import ResilientCtp.Model.Compose

/-!
# The entry point (`main.py`)

`entry` is `compose(req, rsp)`: it runs `_compose`, which fills the response in as it goes, and
reports an exception as a fatal result. What was filled in before the exception stays in the
response, so `fill` keeps its state where it raises.

* `entry_of_compose`: where `compose` of `Model/Compose.lean` returns, the reply is its response.
* `entry_of_error`: where that raises, the reply is fatal and has no status, and its results are
  those of the steps before.
-/

namespace ResilientCtp

open Py Election Heartbeat

/-- The response that `compose(req, rsp)` fills in. -/
structure Reply where
  results : List Result
  /-- The exception of the fatal result, which comes after the `results`. -/
  fatal : Option Err
  resources : Dict
  /-- The `status` of the desired composite, once it is set. -/
  status : Option Dict

def Reply.empty : Reply := ⟨[], none, [], none⟩

/-- A part of `_compose`: it fills the reply in, and may raise. -/
abbrev Fill (α : Type) : Type := EStateM Err Reply α

namespace Fill

def attempt {α : Type} (x : Except Err α) : Fill α := fun s =>
  match x with
  | .ok a => .ok a s
  | .error e => .error e s

/-- `response.warning` and `response.normal`. -/
def say (r : Result) : Fill Unit := modify fun s => { s with results := s.results ++ [r] }

/-- `resource.update(rsp.desired.resources[name], res)`. -/
def desire (kv : String × Value) : Fill Unit :=
  modify fun s => { s with resources := Dict.set s.resources kv.1 kv.2 }

/-- Builds the resource of `a`, which may raise, and desires it. -/
def desireOf {α : Type} (g : α → Except Err (String × Value)) (a : α) : Fill Unit := do
  desire (← attempt (g a))

/-- `rsp.desired.composite.resource.update({"status": st})`. -/
def publish (st : Dict) : Fill Unit := modify fun s => { s with status := some st }

end Fill

open Fill

/-- What the steps up to the decision come to. -/
structure Verdict where
  signal : GslbSignal
  peers : List PeerLiveness
  decision : Decision

/-- Steps 1 to 3: the signal, the peers and the decision. -/
def verdict (env : Env) (req : Request) : Except Err Verdict := do
  let spec := req.xr.spec
  let observed := converted spec req.observed
  let gslbs ← allGslbs req.context observed
  let signal ← Gslb.evaluate gslbs spec.gslb.hostname spec.gslb.strategy
  let peers ← readPeers env spec observed
  let decision ← Election.decide spec.identity signal peers req.xr.status spec.hysteresis
    spec.throttle env.now spec.gslb.strategy env.isoNow
  return { signal, peers, decision }

def warnings (env : Env) (req : Request) : List Result :=
  if req.xr.spec.readMode = "directApi" ∧ env.directApiDepsAvailable = false then
    [.warning depsWarning]
  else []

/-- The event of step 3b, where the role is not the one that the status has. -/
def transition (req : Request) (decision : Decision) : List Result :=
  let priorRole := Dict.getD req.xr.status "role" (.str "")
  if priorRole.isStr decision.role.text then []
  else [.normal (leadershipChange req.xr.spec.identity priorRole decision)]

/-- Steps 4 and 5: the resources. The epoch of the own heartbeat is returned. -/
def render (env : Env) (req : Request) (v : Verdict) : Fill Int := do
  let spec := req.xr.spec
  let ns := req.xr.ns.getD "default"
  let settings := spec.settings ns
  let observed := converted spec req.observed
  -- 4a. the own heartbeat
  let prev ← attempt (prevTags observed)
  let epoch := epochToWrite prev settings.tsTag env.now settings.throttle v.decision.role
  let own ← attempt (buildOwn spec.identity ns settings.providerConfig settings.tsTag epoch
    v.decision.role.text)
  desire own
  -- 4b. the heartbeats of the peers
  spec.peerMembers.forM (desireOf fun m => buildPeerObserve m ns settings.providerConfig)
  -- 5. k8gb
  (installResources spec ns v.signal.found (operatorInstalled observed)).forM desire
  -- 5b. the Gslb
  let k8gbReady ← attempt (releaseReady (Dict.getD observed K8gbInstall.k8gbOperator (.dict [])))
  (gslbResources spec ns k8gbReady v.signal.found).forM desire
  return epoch

/-- `_compose(req, rsp)`. -/
def fill (env : Env) (req : Request) : Fill Unit := do
  (warnings env req).forM say
  let v ← attempt (verdict env req)
  (transition req v.decision).forM say
  let epoch ← render env req v
  -- 6. the status
  publish (Status.buildStatus v.decision v.signal v.peers epoch)

/-- `compose(req, rsp)`. -/
def entry (env : Env) (req : Request) : Reply :=
  match fill env req .empty with
  | .ok _ reply => reply
  | .error e reply => { reply with fatal := some e }

/-! ## Filling in -/

section

variable {α β γ : Type} {s s' : Reply} {e : Err}

/-- The state in which a part ends, also where it raises. -/
def Fill.final : EStateM.Result Err Reply α → Reply
  | .ok _ s => s
  | .error _ s => s

/-- The part leaves `f` of the reply as it is. -/
def Fill.Keeps (f : Reply → β) (x : Fill α) : Prop := ∀ s, f (final (x s)) = f s

theorem Fill.bind_of_ok {x : Fill α} {a : α} (h : x s = .ok a s') (g : α → Fill γ) :
    (x >>= g) s = g a s' := by
  show EStateM.bind x g s = _
  rw [EStateM.bind, h]

theorem Fill.bind_of_error {x : Fill α} (h : x s = .error e s') (g : α → Fill γ) :
    (x >>= g) s = .error e s' := by
  show EStateM.bind x g s = _
  rw [EStateM.bind, h]

theorem Fill.bind_eq_ok {x : Fill α} {g : α → Fill γ} {c : γ} (h : (x >>= g) s = .ok c s') :
    ∃ a s₁, x s = .ok a s₁ ∧ g a s₁ = .ok c s' := by
  cases hx : x s with
  | ok a s₁ => exact ⟨a, s₁, rfl, (bind_of_ok hx g).symm.trans h⟩
  | error e s₁ => rw [bind_of_error hx] at h; cases h

theorem Fill.attempt_of_ok {x : Except Err α} {a : α} (h : x = .ok a) :
    attempt x s = .ok a s := by
  rw [h]
  rfl

theorem Fill.attempt_eq_ok {x : Except Err α} {a : α} (h : attempt x s = .ok a s') :
    x = .ok a ∧ s' = s := by
  cases x with
  | ok a => cases h; exact ⟨rfl, rfl⟩
  | error e => cases h

theorem Fill.Keeps.bind {f : Reply → β} {x : Fill α} {g : α → Fill γ} (hx : Keeps f x)
    (hg : ∀ a, Keeps f (g a)) : Keeps f (x >>= g) := by
  intro s
  have h := hx s
  cases hxs : x s with
  | ok a s₁ => rw [hxs] at h; rw [bind_of_ok hxs]; exact (hg a s₁).trans h
  | error e s₁ => rw [hxs] at h; rw [bind_of_error hxs]; exact h

theorem Fill.Keeps.pure (f : Reply → β) (a : α) : Keeps f (Pure.pure a : Fill α) := fun _ => rfl

theorem Fill.Keeps.attempt (f : Reply → β) (x : Except Err α) : Keeps f (attempt x) := by
  intro s
  cases x <;> rfl

theorem Fill.Keeps.forM {f : Reply → β} {g : α → Fill Unit} (hg : ∀ a, Keeps f (g a))
    (as : List α) : Keeps f (as.forM g) := by
  induction as with
  | nil => exact .pure f _
  | cons a as ih => exact (hg a).bind fun _ => ih

/-- Filling in resources one by one. -/
theorem Fill.forM_desire (kvs : List (String × Value)) (s : Reply) :
    kvs.forM desire s = .ok () { s with resources := setAll s.resources kvs } := by
  induction kvs generalizing s with
  | nil => rfl
  | cons kv kvs ih => exact ih { s with resources := Dict.set s.resources kv.1 kv.2 }

theorem Fill.forM_say (rs : List Result) (s : Reply) :
    rs.forM say s = .ok () { s with results := s.results ++ rs } := by
  induction rs generalizing s with
  | nil => rw [List.append_nil]; rfl
  | cons r rs ih =>
    refine (ih { s with results := s.results ++ [r] }).trans ?_
    simp only [List.append_assoc, List.singleton_append]

theorem Fill.forM_desireOf_eq_ok {g : α → Except Err (String × Value)} {as : List α}
    (h : as.forM (desireOf g) s = .ok () s') :
    ∃ kvs, as.mapM g = .ok kvs ∧ s' = { s with resources := setAll s.resources kvs } := by
  induction as generalizing s with
  | nil => cases h; exact ⟨[], rfl, rfl⟩
  | cons a as ih =>
    obtain ⟨_, s₁, h1, h2⟩ := bind_eq_ok h
    unfold desireOf at h1
    obtain ⟨kv, s₂, hkv, h3⟩ := bind_eq_ok h1
    obtain ⟨hg, rfl⟩ := attempt_eq_ok hkv
    cases h3
    obtain ⟨kvs, hkvs, rfl⟩ := ih h2
    refine ⟨kv :: kvs, ?_, rfl⟩
    rw [List.mapM_cons, hg, hkvs]
    rfl

theorem Fill.forM_desireOf {g : α → Except Err (String × Value)} {as : List α}
    {kvs : List (String × Value)} (h : as.mapM g = .ok kvs) (s : Reply) :
    as.forM (desireOf g) s = .ok () { s with resources := setAll s.resources kvs } := by
  induction mapM_ok_iff.mp h generalizing s with
  | nil => rfl
  | @cons a kv as kvs hkv hall ih =>
    have h1 : desireOf g a s = .ok () { s with resources := Dict.set s.resources kv.1 kv.2 } := by
      unfold desireOf
      rw [hkv]
      rfl
    exact (bind_of_ok h1 _).trans (ih (mapM_ok_iff.mpr hall) _)

end

/-! ## The two halves of a run -/

variable {env : Env} {req : Request} {rsp : Response} {v : Verdict} {e : Err}

/-- What `render` renders, in order, and the epoch. -/
def rendered (env : Env) (req : Request) (v : Verdict) :
    Except Err (Int × List (String × Value)) := do
  let spec := req.xr.spec
  let ns := req.xr.ns.getD "default"
  let settings := spec.settings ns
  let observed := converted spec req.observed
  let prev ← prevTags observed
  let epoch := epochToWrite prev settings.tsTag env.now settings.throttle v.decision.role
  let own ← buildOwn spec.identity ns settings.providerConfig settings.tsTag epoch
    v.decision.role.text
  let observes ← spec.peerMembers.mapM fun m => buildPeerObserve m ns settings.providerConfig
  let k8gbReady ← releaseReady (Dict.getD observed K8gbInstall.k8gbOperator (.dict []))
  return (epoch, own :: observes ++
    installResources spec ns v.signal.found (operatorInstalled observed) ++
    gslbResources spec ns k8gbReady v.signal.found)

/-- The response after the steps of `_compose`. -/
def respond (env : Env) (req : Request) (v : Verdict) (epoch : Int)
    (kvs : List (String × Value)) : Response where
  results := warnings env req ++ transition req v.decision
  resources := setAll [] kvs
  status := Status.buildStatus v.decision v.signal v.peers epoch

theorem setAll_append (d : Dict) (kvs kvs' : List (String × Value)) :
    setAll d (kvs ++ kvs') = setAll (setAll d kvs) kvs' :=
  List.foldl_append

/-- **Inversion** of the first half. -/
theorem verdict_eq_ok_iff : verdict env req = .ok v ↔
    (∃ gslbs, allGslbs req.context (converted req.xr.spec req.observed) = .ok gslbs ∧
      Gslb.evaluate gslbs req.xr.spec.gslb.hostname req.xr.spec.gslb.strategy = .ok v.signal) ∧
    readPeers env req.xr.spec (converted req.xr.spec req.observed) = .ok v.peers ∧
    Election.decide req.xr.spec.identity v.signal v.peers req.xr.status req.xr.spec.hysteresis
      req.xr.spec.throttle env.now req.xr.spec.gslb.strategy env.isoNow = .ok v.decision := by
  constructor
  · intro h
    obtain ⟨gslbs, hg, h⟩ := bind_ok h
    obtain ⟨signal, hs, h⟩ := bind_ok h
    obtain ⟨peers, hp, h⟩ := bind_ok h
    obtain ⟨d, hd, h⟩ := bind_ok h
    cases h
    exact ⟨⟨gslbs, hg, hs⟩, hp, hd⟩
  · rintro ⟨⟨gslbs, hg, hs⟩, hp, hd⟩
    unfold verdict
    simp only [hg, hs, hp, ok_bind]
    exact congrArg (· >>= fun d => .ok (Verdict.mk v.signal v.peers d)) hd

/-- **Inversion** of the second half. -/
theorem rendered_eq_ok_iff {epoch : Int} {kvs : List (String × Value)} :
    rendered env req v = .ok (epoch, kvs) ↔ ∃ prev own observes ready,
      prevTags (converted req.xr.spec req.observed) = .ok prev ∧
      epoch = epochToWrite prev req.xr.spec.tsTag env.now req.xr.spec.throttle v.decision.role ∧
      buildOwn req.xr.spec.identity (req.xr.ns.getD "default")
        (req.xr.spec.settings (req.xr.ns.getD "default")).providerConfig req.xr.spec.tsTag epoch
        v.decision.role.text = .ok own ∧
      req.xr.spec.peerMembers.mapM (fun m => buildPeerObserve m (req.xr.ns.getD "default")
        (req.xr.spec.settings (req.xr.ns.getD "default")).providerConfig) = .ok observes ∧
      releaseReady (Dict.getD (converted req.xr.spec req.observed) K8gbInstall.k8gbOperator
        (.dict [])) = .ok ready ∧
      kvs = own :: observes ++ installResources req.xr.spec (req.xr.ns.getD "default")
          v.signal.found (operatorInstalled (converted req.xr.spec req.observed)) ++
        gslbResources req.xr.spec (req.xr.ns.getD "default") ready v.signal.found := by
  constructor
  · intro h
    obtain ⟨prev, hprev, h⟩ := bind_ok h
    obtain ⟨own, hown, h⟩ := bind_ok h
    obtain ⟨observes, ho, h⟩ := bind_ok h
    obtain ⟨ready, hready, h⟩ := bind_ok h
    cases h
    exact ⟨prev, own, observes, ready, hprev, rfl, hown, ho, hready, rfl⟩
  · rintro ⟨prev, own, observes, ready, hprev, rfl, hown, ho, hready, rfl⟩
    unfold rendered
    simp only [hprev, ok_bind]
    refine (congrArg (· >>= _) hown).trans ?_
    simp only [ok_bind]
    refine (congrArg (· >>= _) ho).trans ?_
    simp only [ok_bind, hready]
    rfl

/-- `compose`, by its two halves. -/
theorem compose_eq_ok_iff : compose env req = .ok rsp ↔ ∃ v epoch kvs,
    verdict env req = .ok v ∧ rendered env req v = .ok (epoch, kvs) ∧
      rsp = respond env req v epoch kvs := by
  constructor
  · intro h
    obtain ⟨gslbs, hg, h⟩ := bind_ok h
    obtain ⟨signal, hs, h⟩ := bind_ok h
    obtain ⟨peers, hp, h⟩ := bind_ok h
    obtain ⟨d, hd, h⟩ := bind_ok h
    obtain ⟨prev, hprev, h⟩ := bind_ok h
    obtain ⟨r, hr, h⟩ := bind_ok h
    obtain ⟨observes, ho, h⟩ := bind_ok h
    obtain ⟨ready, hready, h⟩ := bind_ok h
    cases h
    obtain ⟨own, hown, hr⟩ := bind_ok hr
    cases hr
    obtain ⟨res, hres, hown'⟩ := bind_ok hown
    cases hown'
    exact ⟨⟨signal, peers, d⟩, _, _, verdict_eq_ok_iff.mpr ⟨⟨gslbs, hg, hs⟩, hp, hd⟩,
      rendered_eq_ok_iff.mpr ⟨prev, _, observes, ready, hprev, rfl, hown, ho, hready, rfl⟩, rfl⟩
  · rintro ⟨v, epoch, kvs, hv, hk, rfl⟩
    obtain ⟨⟨gslbs, hg, hs⟩, hp, hd⟩ := verdict_eq_ok_iff.mp hv
    obtain ⟨prev, own, observes, ready, hprev, rfl, hown, ho, hready, rfl⟩ :=
      rendered_eq_ok_iff.mp hk
    obtain ⟨res, hres, hown'⟩ := bind_ok hown
    cases hown'
    unfold compose
    simp only [hg, hs, hp, ok_bind]
    refine (congrArg (· >>= _) hd).trans ?_
    simp only [ok_bind, hprev, writeBack]
    refine (congrArg (fun x => (x >>= _) >>= _) hown).trans ?_
    simp only [ok_bind, pure_bind]
    refine (congrArg (· >>= _) ho).trans ?_
    simp only [ok_bind, hready]
    rfl

/-! ## The reply -/

theorem render_of_rendered {epoch : Int} {kvs : List (String × Value)}
    (h : rendered env req v = .ok (epoch, kvs)) (s : Reply) :
    render env req v s = .ok epoch { s with resources := setAll s.resources kvs } := by
  obtain ⟨prev, own, observes, ready, hprev, rfl, hown, ho, hready, rfl⟩ :=
    rendered_eq_ok_iff.mp h
  rw [setAll_append, setAll_append]
  refine (bind_of_ok (attempt_of_ok hprev) _).trans ?_
  refine (bind_of_ok (attempt_of_ok hown) _).trans ?_
  refine (bind_of_ok rfl _).trans ?_
  refine (bind_of_ok (forM_desireOf ho _) _).trans ?_
  refine (bind_of_ok (forM_desire _ _) _).trans ?_
  refine (bind_of_ok (attempt_of_ok hready) _).trans ?_
  exact (bind_of_ok (forM_desire _ _) _).trans rfl

theorem rendered_of_render {epoch : Int} {s s' : Reply} (h : render env req v s = .ok epoch s') :
    ∃ kvs, rendered env req v = .ok (epoch, kvs) := by
  unfold render at h
  obtain ⟨prev, s1, hprev, h⟩ := bind_eq_ok h
  obtain ⟨own, s2, hown, h⟩ := bind_eq_ok h
  obtain ⟨_, s3, -, h⟩ := bind_eq_ok h
  obtain ⟨_, s4, ho, h⟩ := bind_eq_ok h
  obtain ⟨_, s5, -, h⟩ := bind_eq_ok h
  obtain ⟨ready, s6, hready, h⟩ := bind_eq_ok h
  obtain ⟨_, s7, -, h⟩ := bind_eq_ok h
  cases h
  obtain ⟨hprev, -⟩ := attempt_eq_ok hprev
  obtain ⟨hown, -⟩ := attempt_eq_ok hown
  obtain ⟨hready, -⟩ := attempt_eq_ok hready
  obtain ⟨observes, ho, -⟩ := forM_desireOf_eq_ok ho
  refine ⟨own :: observes ++ installResources req.xr.spec (req.xr.ns.getD "default") v.signal.found
    (operatorInstalled (converted req.xr.spec req.observed)) ++
    gslbResources req.xr.spec (req.xr.ns.getD "default") ready v.signal.found, ?_⟩
  unfold rendered
  simp only [hprev, ok_bind]
  refine (congrArg (· >>= _) hown).trans ?_
  simp only [ok_bind]
  refine (congrArg (· >>= _) ho).trans ?_
  simp only [ok_bind, hready]
  rfl

/-- The status is the last thing that is filled in. -/
theorem render_keeps_status (env : Env) (req : Request) (v : Verdict) :
    Keeps Reply.status (render env req v) := by
  have hdesire : ∀ kv, Keeps Reply.status (desire kv) := fun _ _ => rfl
  refine .bind (.attempt _ _) fun prev => .bind (.attempt _ _) fun own => .bind (hdesire own)
    fun _ => .bind (.forM (fun m => .bind (.attempt _ _) hdesire) _) fun _ =>
    .bind (.forM hdesire _) fun _ => .bind (.attempt _ _) fun ready => .bind (.forM hdesire _)
    fun _ => .pure _ _

/-- No result comes after the event of the decision. -/
theorem render_keeps_results (env : Env) (req : Request) (v : Verdict) :
    Keeps Reply.results (render env req v) := by
  have hdesire : ∀ kv, Keeps Reply.results (desire kv) := fun _ _ => rfl
  refine .bind (.attempt _ _) fun prev => .bind (.attempt _ _) fun own => .bind (hdesire own)
    fun _ => .bind (.forM (fun m => .bind (.attempt _ _) hdesire) _) fun _ =>
    .bind (.forM hdesire _) fun _ => .bind (.attempt _ _) fun ready => .bind (.forM hdesire _)
    fun _ => .pure _ _

/-- **The reply of a run that returns** is its response. -/
theorem entry_of_compose (h : compose env req = .ok rsp) :
    entry env req = ⟨rsp.results, none, rsp.resources, some rsp.status⟩ := by
  obtain ⟨v, epoch, kvs, hv, hk, rfl⟩ := compose_eq_ok_iff.mp h
  have hfill : fill env req .empty = .ok () ⟨warnings env req ++ transition req v.decision, none,
      setAll [] kvs, some (Status.buildStatus v.decision v.signal v.peers epoch)⟩ := by
    refine (bind_of_ok (forM_say _ _) _).trans ?_
    refine (bind_of_ok (attempt_of_ok hv) _).trans ?_
    refine (bind_of_ok (forM_say _ _) _).trans ?_
    exact (bind_of_ok (render_of_rendered hk _) _).trans rfl
  unfold entry
  rw [hfill]
  rfl

/-- **The reply of a run that raises** is fatal and has no status. Its results are those up to the
exception: where it raised after the decision, also the event of a transition. -/
theorem entry_of_error (h : compose env req = .error e) :
    (∃ e, (entry env req).fatal = some e) ∧ (entry env req).status = none ∧
      (entry env req).results = warnings env req ++
        match verdict env req with
        | .ok v => transition req v.decision
        | .error _ => [] := by
  have hsay : fill env req .empty = _ := bind_of_ok (forM_say (warnings env req) .empty) _
  cases hv : verdict env req with
  | error e =>
    have hfill : fill env req .empty = .error e ⟨warnings env req, none, [], none⟩ := by
      refine hsay.trans (bind_of_error ?_ _)
      rw [hv]
      rfl
    unfold entry
    rw [hfill]
    exact ⟨⟨e, rfl⟩, rfl, (List.append_nil _).symm⟩
  | ok v =>
    have hsay' : fill env req .empty = _ :=
      (hsay.trans (bind_of_ok (attempt_of_ok hv) _)).trans (bind_of_ok (forM_say _ _) _)
    generalize hs : Reply.mk ([] ++ warnings env req ++ transition req v.decision) none [] none = s
    cases hr : render env req v s with
    | ok epoch s' =>
      obtain ⟨kvs, hk⟩ := rendered_of_render hr
      rw [compose_eq_ok_iff.mpr ⟨v, epoch, kvs, hv, hk, rfl⟩] at h
      cases h
    | error e s' =>
      have hstatus := render_keeps_status env req v s
      have hresults := render_keeps_results env req v s
      rw [hr, ← hs] at hstatus hresults
      have hfill : fill env req .empty = .error e s' := by
        refine hsay'.trans (bind_of_error ?_ _)
        rw [← hr, ← hs]
        rfl
      unfold entry
      rw [hfill]
      exact ⟨⟨e, rfl⟩, hstatus, hresults⟩

end ResilientCtp
