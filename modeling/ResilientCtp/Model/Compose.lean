import ResilientCtp.Model.Reconcile
import ResilientCtp.Model.K8gbInstall
import ResilientCtp.Model.GslbBuild

/-!
# The composition function (`main.py`)

`compose` is `_compose`: from the request (the XR, the context of the earlier pipeline steps and
the observed composed resources) to the response (the desired composed resources, the results and
the status). Its leadership part is `reconcile`: the decision, then `writeBack`. Where it raises,
the entry point reports a fatal result and Crossplane applies nothing of the response, so an error
stands for no response.

What the run reads from outside is in `Env`: the clock, whether the cloud SDKs resolved, and the
outcome of the thread pool of `directApi` reads (`Fate`).
-/

namespace ResilientCtp

open Py Election Heartbeat

/-! ## The request, the response and the environment -/

structure Xr where
  ns : Option String
  spec : Spec
  status : Dict

structure Request where
  xr : Xr
  context : Value
  observed : Dict

/-- A result event. -/
inductive Result where
  | warning (msg : String)
  | normal (msg : String)
  deriving DecidableEq

structure Response where
  results : List Result
  resources : Dict
  status : Dict

/-- What became of one read of the pool. -/
inductive Fate where
  | returned (p : PeerLiveness)
  | raised
  | notDone

structure Env where
  now : Int
  isoNow : String
  directApiDepsAvailable : Bool
  /-- The futures of the submitted members, in the order in which `_read_peers_direct` collects
  them (first the done ones, then the others). -/
  pool : List Member → List (Member × Fate)

/-! ## The peer reads of `directApi` -/

def unreadablePeer (member : Member) : PeerLiveness :=
  { cpId := member.id
    priority := member.priority
    geoTag := member.geoTag
    epoch := 0
    ageSeconds := 1000000000
    fresh := false
    readable := false
    role := "" }

def Fate.liveness (member : Member) : Fate → PeerLiveness
  | .returned p => p
  | .raised | .notDone => unreadablePeer member

/-- `liveness_by_id`: a later future of an id replaces an earlier one. -/
def livenessById (pool : List (Member × Fate)) : List (String × PeerLiveness) :=
  pool.foldl (fun d mf => (mf.1.id, mf.2.liveness mf.1) :: d) []

/-- `_read_peers_direct`, from the collected futures. -/
def readPeersDirect (pool : List (Member × Fate)) (peerMembers : List Member) :
    Except Err (List PeerLiveness) :=
  peerMembers.mapM fun m => ((livenessById pool).lookup m.id).elim (.error .keyError) .ok

/-! ## The parts of `_compose` -/

def extraResourcesKey : String := "apiextensions.crossplane.io/extra-resources"

/-- The `gslbs` that function-extra-resources fetched. -/
def fetchedGslbs (context : Value) : Except Err (List Value) := do
  let extra := (← context.get extraResourcesKey (.dict [])).or (.dict [])
  ((← extra.get "gslbs" (.list [])).or (.list [])).asList

/-- The Gslb that this composition created, as observed. -/
def composedGslb (observed : Dict) : Value := Dict.getD observed GslbBuild.gslbResource .null

/-- The resources of the k8gb install and the composed Gslb. -/
def k8gbNames : List String :=
  [K8gbInstall.k8gbOperator, K8gbInstall.k8gbNginx, GslbBuild.gslbResource]

/-- The fetched Gslbs, then the composed one. -/
def allGslbs (context : Value) (observed : Dict) : Except Err (List Value) := do
  let gslbs ← fetchedGslbs context
  let composed := composedGslb observed
  if composed.truthy then
    if (← composed.get "kind" .null).isStr "Gslb" then return gslbs ++ [composed]
    else return gslbs
  else return gslbs

/-- `any(c.get("type") == "Ready" and c.get("status") == "True" for c in conds)`. -/
def anyReady : List Value → Except Err Bool
  | [] => .ok false
  | c :: cs => do
    if (← c.get "type" .null).isStr "Ready" then
      if (← c.get "status" .null).isStr "True" then return true else anyReady cs
    else anyReady cs

def releaseReady (observedRelease : Value) : Except Err Bool := do
  let status := (← observedRelease.get "status" (.dict [])).or (.dict [])
  anyReady (← ((← status.get "conditions" (.list [])).or (.list [])).asList)

/-- Any observed k8gb-owned resource is evidence that this XR installed k8gb. -/
def operatorInstalled (observed : Dict) : Bool :=
  (Dict.getD observed K8gbInstall.k8gbOperator .null).truthy ||
    (Dict.getD observed K8gbInstall.k8gbNginx .null).truthy || (composedGslb observed).truthy

def Spec.settings (spec : Spec) (ns : String) : Settings :=
  { tsTag := spec.tsTag
    ttl := spec.ttl
    throttle := spec.throttle
    hysteresis := spec.hysteresis
    ns
    providerConfig := spec.providerConfigName.getD "default" }

/-- The observed resources that are converted: in `directApi` mode not the peers' heartbeats. -/
def converted (spec : Spec) (observed : Dict) : Dict :=
  if spec.readMode = "directApi" then
    observed.filter fun kv => !(spec.peerMembers.map fun m => peerHbResourceName m.id).contains kv.1
  else observed

def readPeers (env : Env) (spec : Spec) (observed : Dict) : Except Err (List PeerLiveness) :=
  if spec.readMode = "directApi" then readPeersDirect (env.pool spec.peerMembers) spec.peerMembers
  else spec.peerMembers.mapM fun m => readPeer m observed spec.tsTag env.now spec.ttl

def depsWarning : String :=
  "heartbeat.read=directApi but no vendored cloud SDKs resolved " ++
  "(vendor/lib/python*/site-packages missing) and boto3 is not " ++
  "importable: peer reads will ALL be 'unreadable' and standbys hold " ++
  "at standby. Rebuild the function image with hack/vendor-deps.sh " ++
  "for the running Python (docs/SPEC.md §11)."

/-- The event of a role transition. -/
def leadershipChange (identity : Identity) (priorRole : Value) (decision : Decision) : String :=
  "leadership change: " ++ identity.id ++ " " ++ (priorRole.or (.str "none")).text ++ " -> " ++
    decision.role.text ++ " (policy " ++ strList decision.managementPolicy ++ "): " ++
    decision.reason

/-- The k8gb Releases that this reconcile renders. -/
def installResources (spec : Spec) (ns : String) (gslbFound operatorInstalled : Bool) :
    List (String × Value) :=
  if K8gbInstall.shouldInstall (spec.k8gb.install.getD "auto") gslbFound operatorInstalled then
    K8gbInstall.build spec.identity spec.members spec.k8gb ns
      (spec.k8gb.helmProviderConfigName.getD "default")
  else []

/-- The Gslb resources that this reconcile renders. -/
def gslbResources (spec : Spec) (ns : String) (k8gbReady gslbFound : Bool) :
    List (String × Value) :=
  if GslbBuild.shouldManage spec.gslb k8gbReady gslbFound then
    GslbBuild.build spec.identity spec.members spec.gslb ns
  else []

/-- `rsp.desired.resources[name] = res`, for each. -/
def setAll (d : Dict) (kvs : List (String × Value)) : Dict :=
  kvs.foldl (fun d kv => Dict.set d kv.1 kv.2) d

def compose (env : Env) (req : Request) : Except Err Response := do
  let spec := req.xr.spec
  let ns := req.xr.ns.getD "default"
  let settings := spec.settings ns
  let observed := converted spec req.observed
  let warnings :=
    if spec.readMode = "directApi" ∧ env.directApiDepsAvailable = false then
      [Result.warning depsWarning]
    else []
  -- 1. the GSLB signal
  let gslbs ← allGslbs req.context observed
  let signal ← Gslb.evaluate gslbs spec.gslb.hostname spec.gslb.strategy
  -- 2. the peers
  let peers ← readPeers env spec observed
  -- 3. the decision
  let decision ← Election.decide spec.identity signal peers req.xr.status settings.hysteresis
    settings.throttle env.now spec.gslb.strategy env.isoNow
  let priorRole := Dict.getD req.xr.status "role" (.str "")
  let events :=
    if priorRole.isStr decision.role.text then []
    else [Result.normal (leadershipChange spec.identity priorRole decision)]
  -- 4a. the own heartbeat
  let prev ← prevTags observed
  let r ← writeBack settings spec.identity
    { gslb := signal, strategy := spec.gslb.strategy, peers, priorStatus := req.xr.status, prev
      now := env.now, isoNow := env.isoNow } decision
  -- 4b. the heartbeats of the peers
  let observes ← spec.peerMembers.mapM fun m => buildPeerObserve m ns settings.providerConfig
  -- 5. k8gb
  let k8gb := installResources spec ns signal.found (operatorInstalled observed)
  -- 5b. the Gslb
  let k8gbReady ← releaseReady (Dict.getD observed K8gbInstall.k8gbOperator (.dict []))
  let gslb := gslbResources spec ns k8gbReady signal.found
  -- 6. the status
  return {
    results := warnings ++ events
    resources := setAll [] ((selfHb, r.heartbeat) :: observes ++ k8gb ++ gslb)
    status := r.status }

/-- The knobs of an admitted spec are within the bounds. -/
theorem Spec.Admitted.settings {spec : Spec} (h : spec.Admitted) (ns : String) :
    (spec.settings ns).Admitted :=
  ⟨h.ttl_le, h.throttle_le, h.hysteresis_le⟩

/-! ## What a run renders -/

theorem get?_setAll {kvs : List (String × Value)} : ∀ {d : Dict} {k : String} {v : Value},
    Dict.get? (setAll d kvs) k = some v → (k, v) ∈ kvs ∨ Dict.get? d k = some v := by
  induction kvs with
  | nil => exact fun h => .inr h
  | cons kv kvs ih =>
    intro d k v h
    rcases ih h with hm | hd
    · exact .inl (List.mem_cons_of_mem _ hm)
    · by_cases hk : kv.1 = k
      · subst hk
        have hv := (Dict.get?_set_self d kv.1 kv.2).symm.trans hd
        cases hv
        exact .inl List.mem_cons_self
      · exact .inr ((Dict.get?_set_ne d kv.2 (Ne.symm hk)).symm.trans hd)

theorem get?_setAll_isSome {kvs : List (String × Value)} : ∀ {d : Dict} {k : String},
    (k ∈ kvs.map Prod.fst ∨ (Dict.get? d k).isSome = true) →
      (Dict.get? (setAll d kvs) k).isSome = true := by
  induction kvs with
  | nil =>
    rintro d k (h | h)
    · cases h
    · exact h
  | cons kv kvs ih =>
    intro d k h
    refine ih (d := Dict.set d kv.1 kv.2) ?_
    by_cases hk : kv.1 = k
    · subst hk
      right
      rw [Dict.get?_set_self, Option.isSome_some]
    · rw [Dict.get?_set_ne _ _ (Ne.symm hk)]
      rcases h with h | h
      · rcases List.mem_cons.mp h with h | h
        · exact absurd h.symm hk
        · exact .inl h
      · exact .inr h

theorem toList_peerHbResourceName (id : String) :
    (peerHbResourceName id).toList = "heartbeat-peer-".toList ++ id.toList :=
  String.toList_append

/-- The names of the resources tell their parts apart. -/
theorem peerHbResourceName_ne (id : String) {name : String}
    (h : name.toList.head? ≠ some 'h') : peerHbResourceName id ≠ name := by
  intro he
  apply h
  rw [← he, toList_peerHbResourceName]
  rfl

theorem peerHbResourceName_ne_selfHb (id : String) : peerHbResourceName id ≠ selfHb := by
  intro he
  have := congrArg String.toList he
  simp [selfHb, toList_peerHbResourceName] at this

theorem mem_installResources {spec : Spec} {ns name : String} {found installed : Bool} {v : Value}
    (h : (name, v) ∈ installResources spec ns found installed) : name.toList.head? = some 'k' := by
  unfold installResources K8gbInstall.build at h
  split at h
  · rcases List.mem_cons.mp h with h | h
    · cases h
      decide
    · cases List.mem_singleton.mp h
      decide
  · cases h

theorem mem_gslbResources {spec : Spec} {ns name : String} {ready found : Bool} {v : Value}
    (h : (name, v) ∈ gslbResources spec ns ready found) : name.toList.head? = some 'g' := by
  unfold gslbResources GslbBuild.build at h
  split at h
  swap
  · cases h
  rcases List.mem_append.mp h with h | h
  · cases List.mem_singleton.mp h
    decide
  · split at h
    · rcases List.mem_cons.mp h with h | h
      · cases h
        decide
      · cases List.mem_singleton.mp h
        decide
    · cases h

/-- The conversion leaves the resource out. -/
def Dropped (spec : Spec) (name : String) : Prop :=
  spec.readMode = "directApi" ∧ name ∈ spec.peerMembers.map fun m => peerHbResourceName m.id

theorem not_dropped (spec : Spec) {name : String} (h : ∀ id, peerHbResourceName id ≠ name) :
    ¬ Dropped spec name := by
  rintro ⟨-, hmem⟩
  obtain ⟨m, -, he⟩ := List.mem_map.mp hmem
  exact h m.id he

theorem get?_converted_of_not_dropped {spec : Spec} {observed : Dict} {name : String}
    (h : ¬ Dropped spec name) :
    Dict.get? (converted spec observed) name = Dict.get? observed name := by
  unfold converted
  split
  · next hmode =>
    apply @Dict.get?_filter observed
      fun k => !(spec.peerMembers.map fun m => peerHbResourceName m.id).contains k
    rw [Bool.not_eq_true', Bool.eq_false_iff, Ne, List.contains_iff_mem]
    exact fun hmem => h ⟨hmode, hmem⟩
  · rfl

theorem get?_converted_of_dropped {spec : Spec} {observed : Dict} {name : String}
    (h : Dropped spec name) : Dict.get? (converted spec observed) name = none := by
  unfold converted
  rw [if_pos h.1]
  apply @Dict.get?_filter_neg observed
    fun k => !(spec.peerMembers.map fun m => peerHbResourceName m.id).contains k
  rw [Bool.not_eq_false', List.contains_iff_mem]
  exact h.2

/-- What a run that returns has computed, with the signal `g` and the leadership part `r`. -/
structure Composes (env : Env) (req : Request) (rsp : Response) (g : GslbSignal) (r : Reconciled) :
    Prop where
  signal : ∃ gslbs, allGslbs req.context (converted req.xr.spec req.observed) = .ok gslbs ∧
    Gslb.evaluate gslbs req.xr.spec.gslb.hostname req.xr.spec.gslb.strategy = .ok g
  reconciled : ∃ peers prev,
    readPeers env req.xr.spec (converted req.xr.spec req.observed) = .ok peers ∧
    prevTags (converted req.xr.spec req.observed) = .ok prev ∧
    reconcile (req.xr.spec.settings (req.xr.ns.getD "default")) req.xr.spec.identity
      { gslb := g, strategy := req.xr.spec.gslb.strategy, peers, prev
        priorStatus := req.xr.status, now := env.now, isoNow := env.isoNow } = .ok r
  resources : ∃ observes ready,
    (∀ kv ∈ observes, ∃ m ∈ req.xr.spec.peerMembers, kv.1 = peerHbResourceName m.id) ∧
    rsp.resources = setAll [] ((selfHb, r.heartbeat) :: observes ++
      installResources req.xr.spec (req.xr.ns.getD "default") g.found
        (operatorInstalled (converted req.xr.spec req.observed)) ++
      gslbResources req.xr.spec (req.xr.ns.getD "default") ready g.found)
  status : rsp.status = r.status

variable {env : Env} {req : Request} {rsp : Response} {g : GslbSignal} {r : Reconciled}

/-- **Inversion.** -/
theorem compose_ok (h : compose env req = .ok rsp) : ∃ g r, Composes env req rsp g r := by
  obtain ⟨gslbs, hg, h⟩ := bind_ok h
  obtain ⟨signal, hs, h⟩ := bind_ok h
  obtain ⟨peers, hp, h⟩ := bind_ok h
  obtain ⟨decision, hd, h⟩ := bind_ok h
  obtain ⟨prev, hv, h⟩ := bind_ok h
  obtain ⟨r, hr, h⟩ := bind_ok h
  obtain ⟨observes, ho, h⟩ := bind_ok h
  obtain ⟨ready, -, h⟩ := bind_ok h
  cases h
  refine ⟨signal, r, ⟨gslbs, hg, hs⟩, ⟨peers, prev, hp, hv, reconcile_of_writeBack hd hr⟩,
    ⟨observes, ready, ?_, rfl⟩, rfl⟩
  intro kv hkv
  obtain ⟨m, hm, e⟩ := (mapM_ok ho).2 kv hkv
  obtain ⟨res, -, e⟩ := bind_ok e
  cases e
  exact ⟨m, hm, rfl⟩

/-- What a resource of the response is. -/
theorem Composes.renders (h : Composes env req rsp g r) {name : String} {w : Value}
    (hw : Dict.get? rsp.resources name = some w) :
    (name = selfHb ∧ w = r.heartbeat) ∨
      (∃ m ∈ req.xr.spec.peerMembers, name = peerHbResourceName m.id) ∨
      (name, w) ∈ installResources req.xr.spec (req.xr.ns.getD "default") g.found
        (operatorInstalled (converted req.xr.spec req.observed)) ∨
      ∃ ready, (name, w) ∈ gslbResources req.xr.spec (req.xr.ns.getD "default") ready g.found := by
  obtain ⟨observes, ready, hobs, hres⟩ := h.resources
  rw [hres] at hw
  rcases get?_setAll hw with hm | hm
  swap
  · cases hm
  rcases List.mem_append.mp hm with hm | hm
  · rcases List.mem_append.mp hm with hm | hm
    · rcases List.mem_cons.mp hm with hm | hm
      · cases hm
        exact .inl ⟨rfl, rfl⟩
      · exact .inr (.inl (hobs _ hm))
    · exact .inr (.inr (.inl hm))
  · exact .inr (.inr (.inr ⟨ready, hm⟩))

/-- The own heartbeat is always rendered. -/
theorem Composes.heartbeat (h : Composes env req rsp g r) :
    Dict.get? rsp.resources selfHb = some r.heartbeat := by
  obtain ⟨w, hw⟩ : ∃ w, Dict.get? rsp.resources selfHb = some w := by
    obtain ⟨observes, ready, -, hres⟩ := h.resources
    apply Option.isSome_iff_exists.mp
    rw [hres]
    exact get?_setAll_isSome (.inl (by simp))
  rw [hw]
  rcases h.renders hw with ⟨-, rfl⟩ | ⟨m, -, e⟩ | hm | ⟨ready, hm⟩
  · rfl
  · exact absurd e.symm (peerHbResourceName_ne_selfHb m.id)
  · exact absurd (mem_installResources hm) (by decide)
  · exact absurd (mem_gslbResources hm) (by decide)

theorem allGslbs_ne_nil {context : Value} {observed : Dict} {gs gslbs : List Value}
    (hf : fetchedGslbs context = .ok gs) (hne : gs ≠ [])
    (h : allGslbs context observed = .ok gslbs) : gslbs ≠ [] := by
  unfold allGslbs at h
  rw [hf] at h
  simp only [bind, Except.bind] at h
  split at h
  · split at h
    · cases h
    · split at h
      · cases h
        simp
      · cases h
        exact hne
  · cases h
    exact hne

end ResilientCtp
