import ResilientCtp.Reads.Records
import ResilientCtp.Run.Install

/-!
# A null field and an absent one

A reconcile, and the same one with a null in place of a field that is absent from a status.

* `afterSignal`: `_compose` from the signal on, where the null of a Gslb is no longer seen.
* `Field.Shows`: the three kinds of fields at which a null is not read as an absent field. At the
  two hops without a guard it raises (`null_hop`); a record of the hostname may overtake.
* `null_is_absent_iff`: at every other field the response is the same.
-/

namespace ResilientCtp

open Py Gslb

/-! ## The rest of `_compose` -/

/-- What `_compose` does with what it has read. -/
def answer (env : Env) (xr : Xr) (signal : GslbSignal) (peers : List PeerLiveness)
    (prev : Except Err Dict) (installed : Bool) (ready : Except Err Bool) :
    Except Err Response := do
  let spec := xr.spec
  let ns := xr.ns.getD "default"
  let settings := spec.settings ns
  let warnings :=
    if spec.readMode = "directApi" ∧ env.directApiDepsAvailable = false then
      [Result.warning depsWarning]
    else []
  let decision ← Election.decide spec.identity signal peers xr.status settings.hysteresis
    settings.throttle env.now spec.gslb.strategy env.isoNow
  let priorRole := Dict.getD xr.status "role" (.str "")
  let events :=
    if priorRole.isStr decision.role.text then []
    else [Result.normal (leadershipChange spec.identity priorRole decision)]
  let prev ← prev
  let r ← writeBack settings spec.identity
    { gslb := signal, strategy := spec.gslb.strategy, peers, priorStatus := xr.status, prev
      now := env.now, isoNow := env.isoNow } decision
  let observes ← spec.peerMembers.mapM fun m =>
    Heartbeat.buildPeerObserve m ns settings.providerConfig
  let k8gb := installResources spec ns signal.found installed
  let gslb := gslbResources spec ns (← ready) signal.found
  return {
    results := warnings ++ events
    resources := setAll [] ((selfHb, r.heartbeat) :: observes ++ k8gb ++ gslb)
    status := r.status }

/-- `_compose` from the signal on. -/
def afterSignal (env : Env) (xr : Xr) (observed : Dict) (signal : GslbSignal) :
    Except Err Response := do
  let peers ← readPeers env xr.spec observed
  answer env xr signal peers (prevTags observed) (operatorInstalled observed)
    (releaseReady (Dict.getD observed K8gbInstall.k8gbOperator (.dict [])))

theorem Received.compose_eq (env : Env) (r : Received) :
    r.compose env = priorStatus r.composite >>= fun status =>
      allGslbs r.context (converted r.spec r.observed) >>= fun gslbs =>
      evaluate gslbs r.spec.gslb.hostname r.spec.gslb.strategy >>=
        afterSignal env ⟨r.ns, r.spec, status⟩ (converted r.spec r.observed) := rfl

/-- The geo tag of the signal is not used. -/
theorem afterSignal_geoTag (env : Env) (xr : Xr) (observed : Dict) (found healthy active : Bool)
    (t t' : Value) : afterSignal env xr observed ⟨found, healthy, active, t⟩ =
      afterSignal env xr observed ⟨found, healthy, active, t'⟩ := rfl

/-- Of the prior status only the texts and the number are used. -/
theorem decide_status {status status' : Dict} (h : ∀ k d, xrStatus.field k = some .scalar →
      Dict.getD status' k d = Dict.getD status k d) (identity : Identity) (gslb : GslbSignal)
    (peers : List PeerLiveness) (hysteresis throttle now : Int) (strategy isoNow : String) :
    Election.decide identity gslb peers status' hysteresis throttle now strategy isoNow =
      Election.decide identity gslb peers status hysteresis throttle now strategy isoNow := by
  unfold Election.decide Election.priorCandidateSince Election.continuousLeader
  rw [h "role" _ rfl, h "selfHeartbeatEpoch" _ rfl, h "promotionCandidateSince" _ rfl,
    h "lastHandoffTime" _ rfl]

theorem answer_status {status status' : Dict} (h : ∀ k d, xrStatus.field k = some .scalar →
      Dict.getD status' k d = Dict.getD status k d) (env : Env) (ns : Option String) (spec : Spec)
    (signal : GslbSignal) (peers : List PeerLiveness) (prev : Except Err Dict) (installed : Bool)
    (ready : Except Err Bool) :
    answer env ⟨ns, spec, status'⟩ signal peers prev installed ready =
      answer env ⟨ns, spec, status⟩ signal peers prev installed ready := by
  unfold answer writeBack
  dsimp only
  rw [decide_status h, h "role" _ rfl]

/-- The response publishes the health and the activity of the signal. -/
theorem answer_shows {env : Env} {xr : Xr} {signal : GslbSignal} {peers : List PeerLiveness}
    {prev : Except Err Dict} {installed : Bool} {ready : Except Err Bool} {rsp : Response}
    (h : answer env xr signal peers prev installed ready = .ok rsp) :
    Dict.get? rsp.status "gslb" = some (.dict [("healthy", .bool signal.healthy),
      ("isActiveForGeo", .bool signal.active)]) := by
  obtain ⟨decision, -, h⟩ := bind_ok h
  obtain ⟨prev, -, h⟩ := bind_ok h
  obtain ⟨r, hr, h⟩ := bind_ok h
  obtain ⟨observes, -, h⟩ := bind_ok h
  obtain ⟨ready, -, h⟩ := bind_ok h
  cases h
  obtain ⟨own, -, hr⟩ := bind_ok hr
  cases hr
  rfl

theorem afterSignal_shows {env : Env} {xr : Xr} {observed : Dict} {signal : GslbSignal}
    {rsp : Response} (h : afterSignal env xr observed signal = .ok rsp) :
    Dict.get? rsp.status "gslb" = some (.dict [("healthy", .bool signal.healthy),
      ("isActiveForGeo", .bool signal.active)]) := by
  obtain ⟨peers, -, h⟩ := bind_ok h
  exact answer_shows h

/-! ## Where a null shows -/

/-- Where a Gslb is among the Gslbs that are read, of which `n` are fetched. -/
def Place.index (n : Nat) : Place → Option Nat
  | .xr => none
  | .fetched i => some i
  | .observed name => if name = GslbBuild.gslbResource then some n else none

namespace Field

/-- The status of the own heartbeat, or its `atProvider`: the hops behind them have no guard. -/
def OwnHop (f : Field) : Prop :=
  f.place = .observed selfHb ∧ (f.path = [] ∨ f.path = [.key "atProvider"])

/-- The status of a peer's heartbeat that is read. -/
def PeerHop (f : Field) (r : Received) : Prop :=
  r.spec.readMode ≠ "directApi" ∧ f.path = [] ∧
    ∃ name ∈ r.spec.peerMembers.map (peerHbResourceName ·.id), f.place = .observed name

/-- The record of the hostname, of a Gslb that is then read in place of one that shows something
else. -/
def Overtakes (f : Field) (r : Received) : Prop :=
  f.path = recordPath r.spec.gslb.hostname ∧ ∃ fetched gslbs i,
    fetchedGslbs r.context = .ok fetched ∧
    allGslbs r.context (converted r.spec r.observed) = .ok gslbs ∧
    f.place.index fetched.length = some i ∧ Gslb.Overtakes r.spec.gslb.hostname gslbs i

/-- A null is not read as an absent field. -/
def Shows (f : Field) (r : Received) : Prop := f.OwnHop ∨ f.PeerHop r ∨ f.Overtakes r

end Field

/-! ## After the signal -/

section

variable {env : Env} {xr : Xr} {name : String} {p : Path} {v w : Value} {observed observed' : Dict}
  {rsp : Response}

theorem Place.schema_gslb (spec : Spec) :
    (Place.observed GslbBuild.gslbResource).schema spec = gslbStatus := by
  rw [Place.schema, if_pos rfl]

theorem Place.schema_operator (spec : Spec) :
    (Place.observed K8gbInstall.k8gbOperator).schema spec = releaseStatus := by
  rw [Place.schema, if_neg (by decide), if_pos rfl]

theorem Place.schema_heartbeat {spec : Spec}
    (h : name = selfHb ∨ name ∈ spec.peerMembers.map (peerHbResourceName ·.id)) :
    (Place.observed name).schema spec = heartbeatStatus := by
  have hhead : name.toList.head? = some 'h' := by
    rcases h with rfl | hmem
    · rfl
    · obtain ⟨m, -, rfl⟩ := List.mem_map.mp hmem
      rw [toList_peerHbResourceName]
      rfl
  have hgslb : name ≠ GslbBuild.gslbResource := by
    rintro rfl
    exact absurd hhead (by decide)
  have hoperator : name ≠ K8gbInstall.k8gbOperator := by
    rintro rfl
    exact absurd hhead (by decide)
  simp only [Place.schema, hgslb, hoperator, h, if_true, if_false]

/-- Where nothing hops, what follows the signal is as before. -/
theorem NullObserved.afterSignal {kind : String}
    (h : NullObserved name p v w observed observed') (hv : IsObject kind v)
    (hp : ((Place.observed name).schema xr.spec).has p = true)
    (hown : ¬ (name = selfHb ∧ (p = [] ∨ p = [.key "atProvider"])))
    (hpeer : ¬ (xr.spec.readMode ≠ "directApi" ∧ p = [] ∧
      name ∈ xr.spec.peerMembers.map (peerHbResourceName ·.id))) :
    afterSignal env xr (converted xr.spec observed') =
      afterSignal env xr (converted xr.spec observed) := by
  have hheartbeat : name = selfHb ∨ name ∈ xr.spec.peerMembers.map (peerHbResourceName ·.id) →
      heartbeatStatus.has p = true := fun hname => by rwa [← Place.schema_heartbeat hname]
  have hprev : prevTags (converted xr.spec observed') = prevTags (converted xr.spec observed) := by
    rcases h.getD_null (n := selfHb) xr.spec (.dict []) (fun e => hheartbeat (.inl e.symm))
      with he | ⟨e, hin⟩
    · rw [prevTags_eq, prevTags_eq, he]
    · exact prevTags_null hin (fun hp => hown ⟨e.symm, .inl hp⟩) fun hp => hown ⟨e.symm, .inr hp⟩
  have hready : releaseReady (Dict.getD (converted xr.spec observed') K8gbInstall.k8gbOperator
        (.dict [])) =
      releaseReady (Dict.getD (converted xr.spec observed) K8gbInstall.k8gbOperator
        (.dict [])) := by
    have hrelease : K8gbInstall.k8gbOperator = name → releaseStatus.has p = true := by
      rintro rfl
      rwa [← Place.schema_operator xr.spec]
    rcases h.getD_null xr.spec (.dict []) hrelease with he | ⟨-, hin⟩
    · rw [he]
    · exact releaseReady_null hin.upToNull
  funext signal
  unfold ResilientCtp.afterSignal
  rw [h.readPeers (fun hmem => hheartbeat (.inr hmem)) hpeer, hprev, h.operatorInstalled hv,
    hready]

/-- A null status or `atProvider` of the own heartbeat raises. -/
theorem NullObserved.afterSignal_own (h : NullObserved selfHb p v w observed observed')
    (hp : p = [] ∨ p = [.key "atProvider"]) (signal : GslbSignal) :
    ResilientCtp.afterSignal env xr (converted xr.spec observed') signal ≠ .ok rsp := by
  intro hok
  obtain ⟨peers, -, hok⟩ := bind_ok hok
  obtain ⟨decision, -, hok⟩ := bind_ok hok
  obtain ⟨prev, hprev, -⟩ := bind_ok hok
  have hafter := (h.getD_self (not_dropped xr.spec peerHbResourceName_ne_selfHb) (.dict [])).2
  rw [prevTags_raises (p := p) (v := v) (by rw [hafter]; exact h.set) hp] at hprev
  cases hprev

/-- A null status of a peer that is read raises. -/
theorem NullObserved.afterSignal_peer (h : NullObserved name [] v w observed observed')
    (hmode : xr.spec.readMode ≠ "directApi")
    (hmem : name ∈ xr.spec.peerMembers.map (peerHbResourceName ·.id)) (signal : GslbSignal) :
    ResilientCtp.afterSignal env xr (converted xr.spec observed') signal ≠ .ok rsp := by
  intro hok
  obtain ⟨peers, hpeers, -⟩ := bind_ok hok
  obtain ⟨m, hm, rfl⟩ := List.mem_map.mp hmem
  unfold ResilientCtp.readPeers at hpeers
  rw [if_neg hmode] at hpeers
  obtain ⟨x, -, hx⟩ := (mapM_ok hpeers).1 m hm
  have hdrop : ¬ Dropped xr.spec (peerHbResourceName m.id) := fun hdrop => hmode hdrop.1
  have hafter := (h.getD_self hdrop (.dict [])).2
  rw [Heartbeat.readPeer_status_null (v := v) (by rw [hafter]; exact h.set)] at hx
  cases hx

end

/-! ## The Gslbs -/

/-- The response is another one exactly if `shows`. -/
structure ShowsIff (env : Env) (shows : Prop) (r r' : Received) : Prop where
  same : ¬ shows → r'.compose env = r.compose env
  other : shows → ∀ rsp, r.compose env = .ok rsp → r'.compose env ≠ .ok rsp

section

variable {env : Env} {f : Field} {r r' : Received} {name kind : String} {p : Path}
  {g g' v w : Value} {pre post fetched : List Value} {observed observed' : Dict}

theorem ShowsIff.of_not {shows : Prop} (h : ¬ shows) (he : r'.compose env = r.compose env) :
    ShowsIff env shows r r' := ⟨fun _ => he, fun hs => absurd hs h⟩

/-- A null in one of the Gslbs. -/
theorem null_gslb {context : Value}
    (hafter : ∀ status, afterSignal env ⟨r.ns, r.spec, status⟩ (converted r.spec observed) =
      afterSignal env ⟨r.ns, r.spec, status⟩ (converted r.spec r.observed))
    (hf : fetchedGslbs r.context = .ok fetched)
    (hi : f.place.index fetched.length = some pre.length)
    (hg : allGslbs r.context (converted r.spec r.observed) = .ok (pre ++ g :: post))
    (hg' : allGslbs context (converted r.spec observed) = .ok (pre ++ g' :: post))
    (h : IsNulled (withStatus gslbStatus) (.key "status" :: f.path) g g') :
    ShowsIff env (f.Overtakes r) r { r with context, observed } := by
  have hover : f.Overtakes r ↔ f.path = recordPath r.spec.gslb.hostname ∧
      Gslb.Overtakes r.spec.gslb.hostname (pre ++ g :: post) pre.length := by
    unfold Field.Overtakes
    rw [hf, hg]
    constructor
    · rintro ⟨hpath, fetched', gslbs, i, e, e', hi', hov⟩
      cases e
      cases e'
      cases hi.symm.trans hi'
      exact ⟨hpath, hov⟩
    · exact fun ⟨hpath, hov⟩ => ⟨hpath, _, _, _, rfl, rfl, hi, hov⟩
  constructor
  · intro hno
    rw [Received.compose_eq, Received.compose_eq]
    dsimp only
    rw [hg, hg']
    refine bind_congr fun status => ?_
    rw [ok_bind, ok_bind, hafter]
    by_cases hpath : f.path = recordPath r.spec.gslb.hostname
    · rw [hpath] at h
      exact record_eq (afterSignal_geoTag _ _ _) h fun hov => hno (hover.mpr ⟨hpath, hov⟩)
    · have hrecord := hasRecord_null h hpath
      rw [evaluate_null (reading_null h.upToNull hrecord) (by unfold decides; rw [hrecord])]
  · intro hov rsp hok hok'
    obtain ⟨hpath, hov⟩ := hover.mp hov
    rw [hpath] at h
    rw [Received.compose_eq, hg] at hok
    rw [Received.compose_eq] at hok'
    dsimp only at hok'
    rw [hg'] at hok'
    obtain ⟨status, hstatus, hok⟩ := bind_ok hok
    rw [hstatus, ok_bind, ok_bind, hafter] at hok'
    exact record_ne (fun _ _ => afterSignal_shows) h hov hok hok'

theorem Received.Valid.object (hv : r.Valid) (h : Dict.get? r.observed name = some v) :
    ∃ kind, IsObject kind v := by
  obtain ⟨fields, kind, e, hk⟩ := hv name v h
  exact ⟨kind, fields, e, hk⟩

theorem not_dropped_gslb (spec : Spec) : ¬ Dropped spec GslbBuild.gslbResource :=
  not_dropped spec fun id => peerHbResourceName_ne id (by decide)

theorem Received.Valid.composedGslbs (hv : r.Valid) :
    ∃ composed, composedGslbs (converted r.spec r.observed) = .ok composed := by
  cases hget : Dict.get? (converted r.spec r.observed) GslbBuild.gslbResource with
  | none =>
    refine ⟨[], ?_⟩
    unfold ResilientCtp.composedGslbs composedGslb Dict.getD
    rw [hget]
    rfl
  | some v =>
    have he : composedGslb (converted r.spec r.observed) = v := by
      rw [composedGslb, Dict.getD, hget, Option.getD_some]
    rw [get?_converted_of_not_dropped (not_dropped_gslb r.spec)] at hget
    obtain ⟨kind, hobject⟩ := hv.object hget
    exact ⟨_, composedGslbs_object (he ▸ hobject)⟩

namespace NullObserved

theorem composed (h : NullObserved GslbBuild.gslbResource p v w observed observed')
    (hv : IsObject kind v) (spec : Spec) :
    composedGslbs (converted spec observed) = .ok (if kind = "Gslb" then [v] else []) ∧
      composedGslbs (converted spec observed') = .ok (if kind = "Gslb" then [w] else []) := by
  obtain ⟨hb, ha⟩ := h.getD_self (not_dropped_gslb spec) .null
  have hbefore : IsObject kind (composedGslb (converted spec observed)) := by
    rwa [composedGslb, hb]
  have hafter : IsObject kind (composedGslb (converted spec observed')) := by
    rw [composedGslb, ha]
    exact hv.null h.set
  rw [composedGslbs_object hbefore, composedGslbs_object hafter, composedGslb, composedGslb, hb, ha]
  exact ⟨rfl, rfl⟩

theorem composed_eq (h : NullObserved name p v w observed observed') (hv : IsObject kind v)
    (hname : ¬ (name = GslbBuild.gslbResource ∧ kind = "Gslb")) (spec : Spec) :
    composedGslbs (converted spec observed') = composedGslbs (converted spec observed) := by
  by_cases he : name = GslbBuild.gslbResource
  · subst he
    have hkind : kind ≠ "Gslb" := fun hk => hname ⟨rfl, hk⟩
    obtain ⟨hb, ha⟩ := h.composed hv spec
    rw [hb, ha, if_neg hkind, if_neg hkind]
  · unfold composedGslbs composedGslb
    rw [h.getD_ne spec (Ne.symm he)]

end NullObserved

/-! ## The three places -/

theorem null_xr (hf : xrStatus.has p = true) (hn : Field.null ⟨.xr, p⟩ r = some r') :
    r'.compose env = r.compose env := by
  simp only [Field.null, Option.bind_eq_bind, Option.bind_eq_some_iff] at hn
  obtain ⟨composite, hset, e⟩ := hn
  cases e
  rw [Received.compose_eq, Received.compose_eq]
  dsimp only
  rcases priorStatus_null hset hf with he | ⟨status, status', hs, hs', hsame⟩
  · rw [he]
  · rw [hs, hs', ok_bind, ok_bind]
    refine bind_congr fun gslbs => bind_congr fun signal => ?_
    exact bind_congr fun peers => answer_status hsame ..

theorem null_fetched {i : Nat} (hv : r.Valid) (hf : gslbStatus.has p = true)
    (hn : Field.null ⟨.fetched i, p⟩ r = some r') :
    ShowsIff env (Field.Overtakes ⟨.fetched i, p⟩ r) r r' := by
  simp only [Field.null, Option.bind_eq_bind, Option.bind_eq_some_iff] at hn
  obtain ⟨context, hset, e⟩ := hn
  cases e
  obtain ⟨pre, g, g', post, hfetched, hfetched', rfl, hg⟩ := fetchedGslbs_null hset
  obtain ⟨composed, hcomposed⟩ := hv.composedGslbs
  have happend : ∀ x, pre ++ x :: (post ++ composed) = pre ++ x :: post ++ composed := fun x => by
    rw [List.append_assoc, List.cons_append]
  have hbefore : allGslbs r.context (converted r.spec r.observed) =
      .ok (pre ++ g :: (post ++ composed)) := by
    rw [happend]
    exact allGslbs_ok hfetched hcomposed
  have hafter : allGslbs context (converted r.spec r.observed) =
      .ok (pre ++ g' :: (post ++ composed)) := by
    rw [happend]
    exact allGslbs_ok hfetched' hcomposed
  exact null_gslb (f := ⟨.fetched pre.length, p⟩) (fun _ => rfl) hfetched rfl hbefore hafter
    ⟨hf, hg⟩

/-- A null in the composed Gslb. -/
theorem null_composed (h : NullObserved GslbBuild.gslbResource p v w r.observed observed)
    (hv : IsObject "Gslb" v) (hf : gslbStatus.has p = true)
    (hafter : ∀ status, afterSignal env ⟨r.ns, r.spec, status⟩ (converted r.spec observed) =
      afterSignal env ⟨r.ns, r.spec, status⟩ (converted r.spec r.observed)) :
    ShowsIff env (Field.Overtakes ⟨.observed GslbBuild.gslbResource, p⟩ r) r
      { r with observed } := by
  obtain ⟨hb, ha⟩ := h.composed hv r.spec
  cases hfetched : fetchedGslbs r.context with
  | error e =>
    refine .of_not ?_ ?_
    · rintro ⟨-, fetched, -, -, hf, -⟩
      rw [hfetched] at hf
      cases hf
    · rw [Received.compose_eq, Received.compose_eq]
      simp only [allGslbs_append, hfetched]
      rfl
  | ok fetched =>
    have hindex : (Place.observed GslbBuild.gslbResource).index fetched.length =
        some fetched.length := by rw [Place.index, if_pos rfl]
    exact null_gslb (f := ⟨.observed GslbBuild.gslbResource, p⟩) hafter hfetched hindex
      (allGslbs_ok hfetched hb) (allGslbs_ok hfetched ha) ⟨hf, h.set⟩

/-- A null in a resource that is no Gslb. -/
theorem null_other (h : NullObserved name p v w r.observed observed) (hv : IsObject kind v)
    (hname : ¬ (name = GslbBuild.gslbResource ∧ kind = "Gslb"))
    (hafter : ∀ status, afterSignal env ⟨r.ns, r.spec, status⟩ (converted r.spec observed) =
      afterSignal env ⟨r.ns, r.spec, status⟩ (converted r.spec r.observed)) :
    ShowsIff env (Field.Overtakes ⟨.observed name, p⟩ r) r { r with observed } := by
  refine .of_not ?_ ?_
  · rintro ⟨-, fetched, gslbs, i, hfetched, hgslbs, hi, -, g, d, hgi, -⟩
    simp only [Place.index] at hi
    split at hi
    swap
    · cases hi
    next he =>
    subst he
    cases hi
    have hkind : kind ≠ "Gslb" := fun hk => hname ⟨rfl, hk⟩
    have hb := (h.composed hv r.spec).1
    rw [if_neg hkind] at hb
    rw [allGslbs_ok hfetched hb, List.append_nil] at hgslbs
    cases hgslbs
    simp at hgi
  · rw [Received.compose_eq, Received.compose_eq]
    dsimp only
    refine bind_congr fun status => ?_
    rw [hafter, allGslbs_append, allGslbs_append, h.composed_eq hv hname]

/-- A null where it raises. -/
theorem null_hop (h : NullObserved name p v w r.observed observed) {rsp : Response}
    (hhop : Field.OwnHop ⟨.observed name, p⟩ ∨ Field.PeerHop ⟨.observed name, p⟩ r) :
    { r with observed }.compose env ≠ .ok rsp := by
  intro hok
  obtain ⟨status, -, hok⟩ := bind_ok hok
  obtain ⟨gslbs, -, hok⟩ := bind_ok hok
  obtain ⟨signal, -, hok⟩ := bind_ok hok
  rcases hhop with ⟨e, hp⟩ | ⟨hmode, rfl, name, hmem, e⟩
  · cases e
    exact h.afterSignal_own hp signal hok
  · cases e
    exact h.afterSignal_peer hmode hmem signal hok

theorem null_observed (hv : r.Valid) (hf : Field.Admitted ⟨.observed name, p⟩ r.spec)
    (hn : Field.null ⟨.observed name, p⟩ r = some r') :
    ShowsIff env (Field.Shows ⟨.observed name, p⟩ r) r r' := by
  simp only [Field.null, Option.bind_eq_bind, Option.bind_eq_some_iff] at hn
  obtain ⟨observed, hset, e⟩ := hn
  cases e
  obtain ⟨v, w, h⟩ := nullObserved_of_nullIn hset
  obtain ⟨kind, hobject⟩ := hv.object h.before
  by_cases hhop : Field.OwnHop ⟨.observed name, p⟩ ∨ Field.PeerHop ⟨.observed name, p⟩ r
  · exact ⟨fun hno => absurd (or_assoc.mp (.inl hhop)) hno, fun _ rsp _ => null_hop h hhop⟩
  have hafter : ∀ status, afterSignal env ⟨r.ns, r.spec, status⟩ (converted r.spec observed) =
      afterSignal env ⟨r.ns, r.spec, status⟩ (converted r.spec r.observed) := by
    refine fun status => h.afterSignal hobject hf ?_ ?_
    · rintro ⟨rfl, hp⟩
      exact hhop (.inl ⟨rfl, hp⟩)
    · rintro ⟨hmode, hp, hmem⟩
      exact hhop (.inr ⟨hmode, hp, name, hmem, rfl⟩)
  have hshows : Field.Shows ⟨.observed name, p⟩ r ↔ Field.Overtakes ⟨.observed name, p⟩ r := by
    unfold Field.Shows
    rw [← or_assoc, or_iff_right hhop]
  rw [hshows]
  by_cases hname : name = GslbBuild.gslbResource ∧ kind = "Gslb"
  · obtain ⟨rfl, rfl⟩ := hname
    rw [Field.Admitted, Place.schema_gslb] at hf
    exact null_composed h hobject hf hafter
  · exact null_other h hobject hname hafter

/-- **A null is read as an absent field** except at the three kinds of fields of `Field.Shows`. -/
theorem null_is_absent_iff (hv : r.Valid) (hf : f.Admitted r.spec) (hn : f.null r = some r') :
    (¬ f.Shows r → r'.compose env = r.compose env) ∧
      ∀ rsp, r.compose env = .ok rsp → (r'.compose env = .ok rsp ↔ ¬ f.Shows r) := by
  have hshows : ShowsIff env (f.Shows r) r r' := by
    obtain ⟨place, path⟩ := f
    cases place with
    | xr =>
      refine .of_not ?_ (null_xr hf hn)
      rintro (⟨e, -⟩ | ⟨-, -, _, -, e⟩ | ⟨-, _, _, _, -, -, e, -⟩) <;> cases e
    | fetched i =>
      have h : ShowsIff env _ r r' := null_fetched hv hf hn
      refine ⟨fun hno => h.same fun hov => hno (.inr (.inr hov)), fun hs => h.other ?_⟩
      rcases hs with ⟨e, -⟩ | ⟨-, -, _, -, e⟩ | hov
      · cases e
      · cases e
      · exact hov
    | observed name => exact null_observed hv hf hn
  exact ⟨hshows.same, fun rsp hok =>
    ⟨fun hok' hs => hshows.other hs rsp hok hok', fun hno => (hshows.same hno).trans hok⟩⟩

end

/-! ## A heartbeat without a status -/

/-- A reconcile on the platform that observes the own heartbeat, just created. -/
def newHeartbeat : Received :=
  { ns := none
    spec := Install.platformSpec
    composite := []
    context := Install.platformContext
    observed := [(selfHb, .dict [("kind", .str "Parameter")])] }

theorem newHeartbeat_valid : newHeartbeat.Valid := by
  intro name v h
  obtain ⟨-, rfl⟩ : name = selfHb ∧ v = .dict [("kind", .str "Parameter")] := by
    simpa [newHeartbeat, Dict.get?_cons, eq_comm] using h
  exact ⟨_, _, rfl, rfl⟩

/-- The Gslb of the platform gets a null in place of its status. -/
theorem null_is_absent_iff_platform : ∃ r', Field.null ⟨.fetched 0, []⟩ newHeartbeat = some r' ∧
    r'.compose (Install.platformEnv 1000) = newHeartbeat.compose (Install.platformEnv 1000) := by
  have hno : ¬ Field.Shows ⟨.fetched 0, []⟩ newHeartbeat := by
    rintro (⟨e, -⟩ | ⟨-, -, _, -, e⟩ | ⟨e, -⟩) <;> cases e
  have hf : Field.Admitted ⟨.fetched 0, []⟩ newHeartbeat.spec := by decide
  exact ⟨_, rfl, (null_is_absent_iff newHeartbeat_valid hf rfl).1 hno⟩

/-- The own heartbeat gets one, and the reconcile fails. -/
theorem null_status_raises : newHeartbeat.Valid ∧
    Field.Admitted ⟨.observed selfHb, []⟩ newHeartbeat.spec ∧
    (∃ rsp, newHeartbeat.compose (Install.platformEnv 1000) = .ok rsp) ∧
    ∃ r', Field.null ⟨.observed selfHb, []⟩ newHeartbeat = some r' ∧
      r'.compose (Install.platformEnv 1000) = .error .attributeError :=
  ⟨newHeartbeat_valid, by decide, ⟨_, rfl⟩, _, rfl, rfl⟩

end ResilientCtp
