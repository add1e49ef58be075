import ResilientCtp.Py.Fits
import ResilientCtp.Lib.Collect
import ResilientCtp.Model.Entry
import ResilientCtp.Reads.Records

/-!
# Readings of the right type do not raise

What the function reads is typed by the APIs of the resources (`Typed`): a field may be absent,
but one that is there has its type. On such readings every reader returns, so a reconcile can only
raise at its persisted timer or at the providers of the set: the schema admits a provider that has
no heartbeat resource (`compose_returns_iff`).
-/

namespace ResilientCtp

open Py Heartbeat

/-- A resource whose status has the schema `s`. -/
def resourceSchema (s : Schema) : Schema := .object [("kind", .scalar), ("status", s)]

def contextSchema : Schema :=
  .object [(extraResourcesKey, .object [("gslbs", .list (withStatus gslbStatus))])]

/-- What a reconcile reads is of the right type. -/
structure Typed (req : Request) : Prop where
  context : Fits contextSchema req.context
  observed : ∀ name v, Dict.get? req.observed name = some v →
    Fits (resourceSchema ((Place.observed name).schema req.xr.spec)) v

/-- The pool gives back a future of every member that is submitted. -/
def Collects (pool : List Member → List (Member × Fate)) : Prop :=
  ∀ ms : List Member, ∀ m ∈ ms, ∃ mf ∈ pool ms, mf.1.id = m.id

/-- The provider has a heartbeat resource. -/
def HasHeartbeat (provider : String) : Prop :=
  provider = "aws" ∨ provider = "azure" ∨ provider = "gcp"

/-- Every provider of the set has one. -/
def Supported (spec : Spec) : Prop :=
  HasHeartbeat spec.identity.provider ∧ ∀ m ∈ spec.peerMembers, HasHeartbeat m.provider

instance (provider : String) : Decidable (HasHeartbeat provider) :=
  inferInstanceAs (Decidable (_ ∨ _))

instance (spec : Spec) : Decidable (Supported spec) := inferInstanceAs (Decidable (_ ∧ _))

variable {req : Request} {env : Env} {spec : Spec} {g v x : Value} {s : Schema}
  {hostname strategy name : String}

theorem withStatus_of_resource (h : Fits (resourceSchema s) v) : Fits (withStatus s) v := by
  cases h with
  | @object _ d hd =>
    refine .object fun k t x hk hx => hd k t x ?_ hx
    rw [List.lookup_cons] at hk
    split at hk
    · next he =>
      rw [beq_iff_eq.mp he, ← hk]
      rfl
    · cases hk

/-! ## A Gslb -/

namespace Gslb

theorem setOf_returns (h : Fits (.list .scalar) x) : ∃ ys, setOf x = .ok ys := by
  cases h with
  | @list _ xs hxs =>
    have hall : xs.all hashable = true := by
      rw [List.all_eq_true]
      intro y hy
      cases hxs y hy with
      | scalar hs => cases y <;> first | rfl | cases hs
    exact ⟨xs, if_pos hall⟩

theorem allHealthy_returns (h : Fits (.map .scalar) x) : ∃ b, allHealthy x = .ok b := by
  cases h with
  | @map _ d hd =>
    unfold allHealthy
    split
    · exact ⟨_, rfl⟩
    · exact ⟨_, rfl⟩

theorem hasRecord_returns (h : Fits (withStatus gslbStatus) g) :
    ∃ b, hasRecord hostname g = .ok b := by
  obtain ⟨status, hs, hstatus⟩ :=
    h.getOr (d := .dict []) (e := .dict []) (field_status _) nofun rfl rfl
  obtain ⟨records, hr, hrecords⟩ :=
    hstatus.getOr (d := .dict []) (e := .dict []) gslbStatus_healthyRecords nofun rfl rfl
  rw [hasRecord_eq, hs, ok_bind, hr, ok_bind]
  cases hrecords with
  | map => exact ⟨_, rfl⟩

theorem reading_returns (h : Fits (withStatus gslbStatus) g) :
    ∃ r, reading hostname g = .ok r := by
  obtain ⟨b, hb⟩ := @hasRecord_returns g hostname h
  obtain ⟨status, hs, hstatus⟩ :=
    h.getOr (d := .dict []) (e := .dict []) (field_status _) nofun rfl rfl
  have hhealth : ∃ b, health g = .ok b := by
    obtain ⟨x, hx, hfit⟩ :=
      hstatus.getOr (k := "serviceHealth") (d := .dict []) (e := .dict []) rfl nofun rfl rfl
    rw [health_eq, hs, ok_bind, hx, ok_bind]
    exact allHealthy_returns hfit
  have hrouted : ∃ b, routed hostname g = .ok b := by
    obtain ⟨records, hr, hrecords⟩ :=
      hstatus.getOr (d := .null) (e := .dict []) gslbStatus_healthyRecords nofun rfl rfl
    obtain ⟨x, hx, hfit⟩ :=
      hrecords.getOr (k := hostname) (d := .list []) (e := .list []) rfl nofun rfl rfl
    obtain ⟨xs, hxs⟩ := setOf_returns hfit
    obtain ⟨lb, hl, hlb⟩ :=
      hstatus.getOr (k := "loadBalancer") (d := .dict []) (e := .dict []) rfl nofun rfl rfl
    obtain ⟨y, hy, hfity⟩ :=
      hlb.getOr (k := "exposedIps") (d := .list []) (e := .list []) rfl nofun rfl rfl
    obtain ⟨ys, hys⟩ := setOf_returns hfity
    rw [routed_eq, hs, ok_bind, hr, ok_bind, hx, ok_bind, hxs, ok_bind, hl, ok_bind, hy, ok_bind,
      hys]
    exact ⟨_, rfl⟩
  have hgeo : ∃ t, reportedGeoTag g = .ok t := by
    obtain ⟨t, ht, -⟩ := hstatus.get (k := "geoTag") (t := .scalar) rfl (.str "")
    rw [reportedGeoTag_eq, hs, ok_bind, Value.getOr, ht]
    exact ⟨_, rfl⟩
  obtain ⟨h1, hh⟩ := hhealth
  obtain ⟨h2, hr⟩ := hrouted
  obtain ⟨h3, hg⟩ := hgeo
  unfold reading
  rw [hb, hh, hr, hg]
  exact ⟨_, rfl⟩

theorem evaluate_returns {gslbs : List Value} (h : ∀ g ∈ gslbs, Fits (withStatus gslbStatus) g) :
    ∃ signal, evaluate gslbs hostname strategy = .ok signal := by
  rw [evaluate_readGslb]
  cases hr : readGslb hostname gslbs with
  | none => exact ⟨_, rfl⟩
  | some g =>
    have hg : g ∈ gslbs := by
      unfold readGslb at hr
      rcases Option.or_eq_some_iff.mp hr with hf | ⟨-, hh⟩
      · exact List.mem_of_find?_eq_some hf
      · exact List.mem_of_mem_head? hh
    obtain ⟨r, hr⟩ := @reading_returns g hostname (h g hg)
    exact ⟨ofReading r, by rw [Option.elim_some, evaluate_single, hr]; rfl⟩

end Gslb

/-! ## The other resources -/

theorem anyReady_returns {cs : List Value}
    (h : ∀ c ∈ cs, Fits (.object [("type", .scalar), ("status", .scalar)]) c) :
    ∃ b, anyReady cs = .ok b := by
  induction cs with
  | nil => exact ⟨false, rfl⟩
  | cons c cs ih =>
    obtain ⟨b, hb⟩ := ih fun x hx => h x (List.mem_cons_of_mem c hx)
    have hc := h c List.mem_cons_self
    obtain ⟨x, hx, -⟩ := hc.get (k := "type") (t := .scalar) rfl .null
    obtain ⟨y, hy, -⟩ := hc.get (k := "status") (t := .scalar) rfl .null
    simp only [anyReady]
    rw [hx, hy, ok_bind, ok_bind, hb]
    split
    · split <;> exact ⟨_, rfl⟩
    · exact ⟨_, rfl⟩

theorem releaseReady_returns (h : Fits (withStatus releaseStatus) v) :
    ∃ b, releaseReady v = .ok b := by
  obtain ⟨status, hs, hstatus⟩ :=
    h.getOr (d := .dict []) (e := .dict []) (field_status _) nofun rfl rfl
  obtain ⟨x, hx, hfit⟩ :=
    hstatus.getOr (k := "conditions") (d := .list []) (e := .list []) rfl nofun rfl rfl
  obtain ⟨cs, hcs, hall⟩ := hfit.asList
  have heq : releaseReady v = v.getOr "status" (.dict []) (.dict []) >>= fun status =>
      status.getOr "conditions" (.list []) (.list []) >>= fun conditions =>
      conditions.asList >>= anyReady := by
    simp only [releaseReady, Value.getOr, bind_assoc, pure_bind]
  rw [heq, hs, ok_bind, hx, ok_bind, hcs, ok_bind]
  exact anyReady_returns hall

/-- The tags of a heartbeat, as its provider reports them, are a dictionary. -/
theorem tags_return (h : Fits (.object [("tags", .map .scalar), ("labels", .map .scalar)]) v)
    (provider : String) : ∃ tags d,
      v.getOr (tagField provider) (.dict []) (.dict []) = .ok tags ∧ tags.asDict = .ok d := by
  have hfield : Schema.field (.object [("tags", .map .scalar), ("labels", .map .scalar)])
      (tagField provider) = some (.map .scalar) := by
    unfold tagField
    split <;> rfl
  obtain ⟨tags, ht, hfit⟩ := h.getOr (d := .dict []) (e := .dict []) hfield nofun rfl rfl
  obtain ⟨d, -, hd⟩ := hfit.asDict rfl nofun
  exact ⟨tags, d, ht, hd⟩

theorem prevTags_returns {observed : Dict}
    (h : Fits (withStatus heartbeatStatus) (Dict.getD observed selfHb (.dict []))) :
    ∃ prev, prevTags observed = .ok prev := by
  obtain ⟨status, hs, hstatus⟩ := h.get_empty (field_status _) nofun rfl
  obtain ⟨atProvider, ha, hat⟩ :=
    hstatus.get_empty (k := "atProvider") (d := .dict []) rfl nofun rfl
  obtain ⟨tags, d, ht, hd⟩ := tags_return hat "aws"
  refine ⟨d, ?_⟩
  rw [prevTags_eq]
  simp only [show heartbeatStatus.empty = Value.dict [] from rfl] at hs
  rw [hs, ok_bind, ha, ok_bind, show "tags" = tagField "aws" from rfl, ht, ok_bind, hd]

theorem readPeer_returns {m : Member} {observed : Dict} (tsTag : String) (now ttl : Int)
    (h : Fits (withStatus heartbeatStatus)
      (Dict.getD observed (peerHbResourceName m.id) (.dict []))) :
    ∃ p, readPeer m observed tsTag now ttl = .ok p := by
  obtain ⟨status, hs, hstatus⟩ := h.get_empty (field_status _) nofun rfl
  obtain ⟨atProvider, ha, hat⟩ :=
    hstatus.getOr (k := "atProvider") (d := .dict []) (e := .dict []) rfl nofun rfl rfl
  obtain ⟨tags, d, ht, hd⟩ := tags_return hat m.provider
  rw [readPeer_eq]
  simp only [show heartbeatStatus.empty = Value.dict [] from rfl] at hs
  rw [hs, ok_bind, ha, ok_bind, ht, ok_bind, hd]
  exact ⟨_, rfl⟩

/-! ## The readings of a reconcile -/

theorem Typed.resource (h : Typed req) (hs : (Place.observed name).schema req.xr.spec = s) :
    Fits (withStatus s) (Dict.getD (converted req.xr.spec req.observed) name (.dict [])) := by
  have hget : Dict.get? (converted req.xr.spec req.observed) name = none ∨
      Dict.get? (converted req.xr.spec req.observed) name = Dict.get? req.observed name := by
    by_cases hd : Dropped req.xr.spec name
    · exact .inl (get?_converted_of_dropped hd)
    · exact .inr (get?_converted_of_not_dropped hd)
  have hempty : Fits (withStatus s) (.dict []) := .object fun k t x _ hx => by cases hx
  rw [Dict.getD]
  rcases hget with he | he
  · rw [he]
    exact hempty
  · rw [he]
    cases hv : Dict.get? req.observed name with
    | none => exact hempty
    | some v => exact withStatus_of_resource (hs ▸ h.observed name v hv)

theorem schema_selfHb (spec : Spec) : (Place.observed selfHb).schema spec = heartbeatStatus := by
  rw [Place.schema, if_neg (by decide), if_neg (by decide), if_pos (.inl rfl)]

theorem schema_peer {m : Member} (hm : m ∈ spec.peerMembers) :
    (Place.observed (peerHbResourceName m.id)).schema spec = heartbeatStatus := by
  rw [Place.schema, if_neg (peerHbResourceName_ne m.id (by decide)),
    if_neg (peerHbResourceName_ne m.id (by decide)),
    if_pos (.inr (List.mem_map.mpr ⟨m, hm, rfl⟩))]

theorem fetchedGslbs_return {context : Value} (h : Fits contextSchema context) :
    ∃ gslbs, fetchedGslbs context = .ok gslbs ∧ ∀ g ∈ gslbs, Fits (withStatus gslbStatus) g := by
  obtain ⟨extra, he, hextra⟩ :=
    h.getOr (k := extraResourcesKey) (d := .dict []) (e := .dict []) rfl nofun rfl rfl
  obtain ⟨gslbs, hg, hfit⟩ :=
    hextra.getOr (k := "gslbs") (d := .list []) (e := .list []) rfl nofun rfl rfl
  obtain ⟨xs, hxs, hall⟩ := hfit.asList
  have heq : fetchedGslbs context = context.getOr extraResourcesKey (.dict []) (.dict []) >>=
      fun extra => extra.getOr "gslbs" (.list []) (.list []) >>= Value.asList := by
    simp only [fetchedGslbs, Value.getOr, bind_assoc, pure_bind]
  rw [heq, he, ok_bind, hg, ok_bind]
  exact ⟨xs, hxs, hall⟩

theorem Typed.allGslbs (h : Typed req) : ∃ gslbs,
    allGslbs req.context (converted req.xr.spec req.observed) = .ok gslbs ∧
      ∀ g ∈ gslbs, Fits (withStatus gslbStatus) g := by
  obtain ⟨fetched, hf, hall⟩ := fetchedGslbs_return h.context
  unfold ResilientCtp.allGslbs
  rw [hf, ok_bind]
  dsimp only
  split
  swap
  · exact ⟨fetched, rfl, hall⟩
  next hc =>
  -- the composed Gslb is there
  have hnd : ¬ Dropped req.xr.spec GslbBuild.gslbResource :=
    not_dropped _ fun id => peerHbResourceName_ne id (by decide)
  have hfit : Fits (resourceSchema gslbStatus)
      (composedGslb (converted req.xr.spec req.observed)) := by
    unfold composedGslb at hc ⊢
    rw [Dict.getD, get?_converted_of_not_dropped hnd] at hc ⊢
    cases hv : Dict.get? req.observed GslbBuild.gslbResource with
    | none => rw [hv] at hc; cases hc
    | some v => exact h.observed _ v hv
  obtain ⟨kind, hk, -⟩ := hfit.get (k := "kind") (t := .scalar) rfl .null
  rw [hk, ok_bind]
  split
  · refine ⟨_, rfl, fun g hg => ?_⟩
    rcases List.mem_append.mp hg with hg | hg
    · exact hall g hg
    · rw [List.mem_singleton.mp hg]
      exact withStatus_of_resource hfit
  · exact ⟨fetched, rfl, hall⟩

theorem mapM_returns {α β : Type} {f : α → Except Err β} {xs : List α}
    (h : ∀ x ∈ xs, ∃ y, f x = .ok y) : ∃ ys, xs.mapM f = .ok ys := by
  induction xs with
  | nil => exact ⟨[], rfl⟩
  | cons x xs ih =>
    obtain ⟨y, hy⟩ := h x List.mem_cons_self
    obtain ⟨ys, hys⟩ := ih fun z hz => h z (List.mem_cons_of_mem x hz)
    exact ⟨y :: ys, by rw [List.mapM_cons, hy, hys]; rfl⟩

theorem Collects.returns (h : Collects env.pool) (ms : List Member) :
    ∃ peers, readPeersDirect (env.pool ms) ms = .ok peers := by
  refine mapM_returns fun m hm => ?_
  obtain ⟨mf, hmf, hid⟩ := h ms m hm
  have hsome : ((livenessById (env.pool ms)).lookup m.id).isSome = true := by
    rw [List.lookup_isSome_iff]
    refine ⟨(mf.1.id, mf.2.liveness mf.1), ?_, by simpa using hid.symm⟩
    show _ ∈ Collect.collect (fun mf : Member × Fate => mf.1.id)
      (fun mf => mf.2.liveness mf.1) (env.pool ms)
    rw [Collect.collect_eq, List.mem_reverse]
    exact List.mem_map.mpr ⟨mf, hmf, rfl⟩
  obtain ⟨p, hp⟩ := Option.isSome_iff_exists.mp hsome
  exact ⟨p, by rw [hp]; rfl⟩

/-! ## The reconcile -/

theorem buildParameter_returns_iff (provider name ns id region pc : String) (mgmt : List String)
    (tags : Dict) : (∃ v, buildParameter provider name ns id region pc mgmt tags = .ok v) ↔
      HasHeartbeat provider := by
  constructor
  · rintro ⟨v, hv⟩
    exact buildParameter_ok hv
  · rintro (rfl | rfl | rfl) <;> exact ⟨_, rfl⟩

theorem buildOwn_returns {identity : Identity} (h : HasHeartbeat identity.provider)
    (ns pc tsTag : String) (epoch : Int) (role : String) :
    ∃ kv, buildOwn identity ns pc tsTag epoch role = .ok kv := by
  obtain ⟨res, hres⟩ := (buildParameter_returns_iff identity.provider selfHb ns identity.id
    identity.region pc ["*"] (ownTags identity tsTag epoch role)).mpr h
  exact ⟨_, congrArg (· >>= _) hres⟩

theorem buildPeerObserve_returns {m : Member} (h : HasHeartbeat m.provider) (ns pc : String) :
    ∃ kv, buildPeerObserve m ns pc = .ok kv := by
  obtain ⟨res, hres⟩ := (buildParameter_returns_iff m.provider (peerHbResourceName m.id) ns m.id
    m.region (m.providerConfigName.getD pc) ["Observe"] []).mpr h
  exact ⟨_, congrArg (· >>= _) hres⟩

/-- The decision is reached. -/
theorem verdict_returns (ht : Typed req) (hp : Collects env.pool) {cand : Int}
    (hc : Election.priorCandidateSince req.xr.status = .ok cand) :
    ∃ v, verdict env req = .ok v := by
  obtain ⟨gslbs, hg, hall⟩ := ht.allGslbs
  obtain ⟨signal, hs⟩ := @Gslb.evaluate_returns req.xr.spec.gslb.hostname
    req.xr.spec.gslb.strategy gslbs hall
  have hpeers : ∃ peers, readPeers env req.xr.spec (converted req.xr.spec req.observed) =
      .ok peers := by
    unfold readPeers
    split
    · exact hp.returns _
    · exact mapM_returns fun m hm =>
        readPeer_returns _ _ _ (ht.resource (schema_peer hm))
  obtain ⟨peers, hpeers⟩ := hpeers
  obtain ⟨d, hd⟩ := @Election.exists_decide req.xr.spec.identity signal req.xr.spec.gslb.strategy
    env.isoNow peers req.xr.status req.xr.spec.hysteresis req.xr.spec.throttle env.now cand hc
  exact ⟨⟨signal, peers, d⟩, verdict_eq_ok_iff.mpr ⟨⟨gslbs, hg, hs⟩, hpeers, hd⟩⟩

/-- Only a provider without a heartbeat resource raises after the decision. -/
theorem rendered_returns_iff (ht : Typed req) (env : Env) (v : Verdict) :
    (∃ r, rendered env req v = .ok r) ↔ Supported req.xr.spec := by
  constructor
  · rintro ⟨⟨epoch, kvs⟩, h⟩
    obtain ⟨prev, own, observes, ready, -, -, hown, ho, -, -⟩ := rendered_eq_ok_iff.mp h
    refine ⟨?_, fun m hm => ?_⟩
    · obtain ⟨res, hres, -⟩ := bind_ok hown
      exact buildParameter_ok hres
    · obtain ⟨kv, -, hkv⟩ := (mapM_ok ho).1 m hm
      obtain ⟨res, hres, -⟩ := bind_ok hkv
      exact buildParameter_ok hres
  · rintro ⟨hown, hpeers⟩
    obtain ⟨prev, hprev⟩ := prevTags_returns (ht.resource (schema_selfHb _))
    obtain ⟨ready, hready⟩ : ∃ b, releaseReady (Dict.getD
        (converted req.xr.spec req.observed) K8gbInstall.k8gbOperator (.dict [])) = .ok b :=
      releaseReady_returns (ht.resource rfl)
    obtain ⟨observes, hobs⟩ := mapM_returns fun m hm => buildPeerObserve_returns (hpeers m hm)
      (req.xr.ns.getD "default") (req.xr.spec.settings (req.xr.ns.getD "default")).providerConfig
    obtain ⟨own, hown⟩ := buildOwn_returns hown (req.xr.ns.getD "default")
      (req.xr.spec.settings (req.xr.ns.getD "default")).providerConfig
      (req.xr.spec.settings (req.xr.ns.getD "default")).tsTag
      (epochToWrite prev (req.xr.spec.settings (req.xr.ns.getD "default")).tsTag env.now
        (req.xr.spec.settings (req.xr.ns.getD "default")).throttle v.decision.role)
      v.decision.role.text
    exact ⟨_, rendered_eq_ok_iff.mpr ⟨prev, own, observes, ready, hprev, rfl, hown, hobs, hready,
      rfl⟩⟩

/-- **When a reconcile returns.** On readings of the right type and a legible timer it returns
exactly if every provider of the set has a heartbeat resource. -/
theorem compose_returns_iff (ht : Typed req) (hp : Collects env.pool) {cand : Int}
    (hc : Election.priorCandidateSince req.xr.status = .ok cand) :
    (∃ rsp, compose env req = .ok rsp) ↔ Supported req.xr.spec := by
  constructor
  · rintro ⟨rsp, h⟩
    obtain ⟨v, epoch, kvs, -, hk, -⟩ := compose_eq_ok_iff.mp h
    exact (rendered_returns_iff ht env v).mp ⟨_, hk⟩
  · intro h
    obtain ⟨v, hv⟩ := verdict_returns ht hp hc
    obtain ⟨⟨epoch, kvs⟩, hk⟩ := (rendered_returns_iff ht env v).mpr h
    exact ⟨_, compose_eq_ok_iff.mpr ⟨v, epoch, kvs, hv, hk, rfl⟩⟩

end ResilientCtp
