import ResilientCtp.Model.Received
import ResilientCtp.Reads.Signal
import ResilientCtp.Reads.Ledger

/-!
# Readers and nulls

What `_compose` reads of a status, from a document and from the same one with a null in place of an
absent field. The readers of a Gslb and of a Release guard every hop with `or {}`. The one of a peer
leaves the first hop open, and the one of the own heartbeat all hops but the last.

* `Gslb.health_null`, `Gslb.routed_null`: a Gslb shows the same.
* `Gslb.hasRecord_null`: it has a record of the hostname as before, unless the null is that record,
  which then counts as one (`Gslb.hasRecord_record`).
* `Heartbeat.readPeer_null`, `prevTags_null`: a heartbeat reads the same, except at the open hops,
  where it raises (`Heartbeat.readPeer_status_null`, `prevTags_raises`).
* `NullObserved`: the null is in one of the observed resources.
-/

namespace ResilientCtp

open Py

variable {g g' v w : Value} {p : Path} {hostname strategy : String}

theorem field_status (s : Schema) : (withStatus s).field "status" = some s := rfl

theorem gslbStatus_healthyRecords :
    gslbStatus.field "healthyRecords" = some (.map (.list .scalar)) := rfl

/-! ## A Gslb -/

namespace Gslb

theorem health_eq (g : Value) :
    health g = g.getOr "status" (.dict []) (.dict []) >>= fun status =>
      status.getOr "serviceHealth" (.dict []) (.dict []) >>= allHealthy := by
  simp only [health, Value.getOr, bind_assoc, pure_bind]

theorem health_null (h : UpToNull (withStatus gslbStatus) g g') : health g' = health g := by
  rw [health_eq, health_eq]
  refine h.bind_or rfl rfl rfl fun status status' hstatus => ?_
  refine hstatus.bind_or rfl rfl rfl fun x y hxy => ?_
  rw [hxy.eq_of_scalars (.inl rfl)]

theorem reportedGeoTag_eq (g : Value) :
    reportedGeoTag g = g.getOr "status" (.dict []) (.dict []) >>= fun status =>
      status.getOr "geoTag" (.str "") (.str "") := by
  simp only [reportedGeoTag, Value.getOr, bind_assoc, pure_bind]

theorem reportedGeoTag_null (h : UpToNull (withStatus gslbStatus) g g') :
    reportedGeoTag g' = reportedGeoTag g := by
  rw [reportedGeoTag_eq, reportedGeoTag_eq]
  refine h.bind_or rfl rfl rfl fun status status' hstatus => ?_
  rw [Value.getOr, Value.getOr, hstatus.get_scalar rfl]

theorem routed_eq (hostname : String) (g : Value) :
    routed hostname g = g.getOr "status" (.dict []) (.dict []) >>= fun status =>
      status.getOr "healthyRecords" .null (.dict []) >>= fun records =>
      records.getOr hostname (.list []) (.list []) >>= fun healthyRecords =>
      setOf healthyRecords >>= fun healthyRecords =>
      status.getOr "loadBalancer" (.dict []) (.dict []) >>= fun loadBalancer =>
      loadBalancer.getOr "exposedIps" (.list []) (.list []) >>= fun exposedIps =>
      setOf exposedIps >>= fun exposedIps =>
      pure (!healthyRecords.isEmpty && !exposedIps.isEmpty &&
        healthyRecords.any fun a => exposedIps.any (hashEq a)) := by
  simp only [routed, Value.getOr, bind_assoc, pure_bind]

theorem routed_null (h : UpToNull (withStatus gslbStatus) g g') :
    routed hostname g' = routed hostname g := by
  rw [routed_eq, routed_eq]
  refine h.bind_or rfl rfl rfl fun status status' hstatus => ?_
  refine hstatus.bind_or rfl rfl rfl fun records records' hrecords => ?_
  refine hrecords.bind_or rfl rfl rfl fun x y hxy => ?_
  rw [hxy.eq_of_scalars (.inr rfl)]
  refine bind_congr fun healthyRecords => ?_
  refine hstatus.bind_or rfl rfl rfl fun lb lb' hlb => ?_
  refine hlb.bind_or rfl rfl rfl fun x y hxy => ?_
  rw [hxy.eq_of_scalars (.inr rfl)]

theorem hasRecord_eq (hostname : String) (g : Value) :
    hasRecord hostname g = g.getOr "status" (.dict []) (.dict []) >>= fun status =>
      status.getOr "healthyRecords" (.dict []) (.dict []) >>= fun records =>
      contains records hostname := by
  simp only [hasRecord, Value.getOr, bind_assoc, pure_bind]

/-- The path of the hostname's record. -/
def recordPath (hostname : String) : Path := [.key "healthyRecords", .key hostname]

/-- No other null changes whether there is a record. -/
theorem hasRecord_null (h : IsNulled (withStatus gslbStatus) (.key "status" :: p) g g')
    (hp : p ≠ recordPath hostname) : hasRecord hostname g' = hasRecord hostname g := by
  rw [hasRecord_eq, hasRecord_eq]
  obtain ⟨status, status', hs, hs', rfl | ⟨q, hq, hstatus⟩⟩ :=
    h.getOr (d := .dict []) (e := .dict []) (field_status gslbStatus) rfl rfl
  · rw [hs, hs']
  obtain ⟨-, rfl⟩ := List.cons.inj hq
  rw [hs, hs', ok_bind, ok_bind]
  obtain ⟨records, records', hr, hr', rfl | ⟨q, rfl, hrecords⟩⟩ :=
    hstatus.getOr (d := .dict []) (e := .dict []) gslbStatus_healthyRecords rfl rfl
  · rw [hr, hr']
  rw [hr, hr', ok_bind, ok_bind]
  obtain ⟨d, d', rfl, rfl, hget | ⟨rfl, -⟩ | ⟨-, x, y, -, hx, hy, -⟩⟩ :=
    hrecords.fields (k := hostname) rfl
  · simp only [contains, hget]
  · exact absurd rfl hp
  · simp only [contains, hx, hy]
    rfl

/-- A null counts as a record. -/
theorem hasRecord_record (h : setNull (.key "status" :: recordPath hostname) g = some g') :
    hasRecord hostname g' = .ok true ∧ ∃ t, reportedGeoTag g' = .ok t := by
  obtain ⟨d, rfl⟩ := setNull_key h
  obtain ⟨status, status', -, hstatus, rfl⟩ := setNull_key_cons h
  obtain ⟨e, rfl⟩ := setNull_key hstatus
  obtain ⟨records, records', -, hrecords, rfl⟩ := setNull_key_cons hstatus
  obtain ⟨m, rfl⟩ := setNull_key hrecords
  obtain ⟨-, rfl⟩ := setNull_key_nil hrecords
  rw [hasRecord_eq, reportedGeoTag_eq]
  simp only [Value.getOr, Value.get_dict, Dict.getD, Dict.get?_set_self, Option.getD_some, ok_bind,
    pure_bind, Value.dict_or_nil, contains, Option.isSome_some]
  exact ⟨trivial, _, rfl⟩

end Gslb

/-! ## A heartbeat -/

namespace Heartbeat

variable {m : Member} {observed observed' : Dict} {tsTag : String} {now ttl : Int}

theorem readPeer_eq (m : Member) (observed : Dict) (tsTag : String) (now ttl : Int) :
    readPeer m observed tsTag now ttl =
      (Dict.getD observed (peerHbResourceName m.id) (.dict [])).get "status" (.dict []) >>=
        fun status => status.getOr "atProvider" (.dict []) (.dict []) >>= fun atProvider =>
        atProvider.getOr (tagField m.provider) (.dict []) (.dict []) >>= fun tags =>
        tags.asDict >>= fun tags => pure (livenessFromTags m (some tags) tsTag now ttl) := by
  simp only [readPeer, Value.getOr, tagField, bind_assoc, pure_bind]

/-- The resource of a peer has the null, not in place of its status. -/
theorem readPeer_null
    (h : IsNulled (withStatus heartbeatStatus) (.key "status" :: p)
      (Dict.getD observed (peerHbResourceName m.id) (.dict []))
      (Dict.getD observed' (peerHbResourceName m.id) (.dict []))) (hp : p ≠ []) :
    readPeer m observed' tsTag now ttl = readPeer m observed tsTag now ttl := by
  rw [readPeer_eq, readPeer_eq]
  rcases h.get (field_status _) with he | ⟨he, -⟩ | ⟨q, x, y, -, hx, hy, hin⟩
  · rw [he]
  · exact absurd (List.cons.inj he).2 hp
  rw [hx, hy, ok_bind, ok_bind]
  refine hin.upToNull.bind_or rfl rfl rfl fun atProvider atProvider' hat => ?_
  have hfield : ∀ provider, Schema.field (.object [("tags", .map .scalar), ("labels",
      .map .scalar)]) (tagField provider) = some (.map .scalar) := by
    intro provider
    unfold tagField
    split <;> rfl
  refine hat.bind_or (hfield m.provider) rfl rfl fun tags tags' htags => ?_
  rw [htags.eq_of_scalars (.inl rfl)]

/-- A null in place of the status raises. -/
theorem readPeer_status_null (h : setNull [.key "status"] v =
      some (Dict.getD observed' (peerHbResourceName m.id) (.dict []))) :
    readPeer m observed' tsTag now ttl = .error .attributeError := by
  obtain ⟨d, rfl⟩ := setNull_key h
  obtain ⟨-, hw⟩ := setNull_key_nil h
  rw [readPeer_eq, hw, Value.get_dict, Dict.getD, Dict.get?_set_self]
  rfl

end Heartbeat

/-! ## The own heartbeat -/

section

variable {observed observed' : Dict}

theorem prevTags_eq (observed : Dict) :
    prevTags observed = (Dict.getD observed selfHb (.dict [])).get "status" (.dict []) >>=
      fun status => status.get "atProvider" (.dict []) >>= fun atProvider =>
      atProvider.getOr "tags" (.dict []) (.dict []) >>= Value.asDict := by
  simp only [prevTags, Value.getOr, bind_assoc, pure_bind]

theorem prevTags_null
    (h : IsNulled (withStatus heartbeatStatus) (.key "status" :: p)
      (Dict.getD observed selfHb (.dict [])) (Dict.getD observed' selfHb (.dict [])))
    (hp : p ≠ []) (hp' : p ≠ [.key "atProvider"]) : prevTags observed' = prevTags observed := by
  rw [prevTags_eq, prevTags_eq]
  rcases h.get (field_status _) with he | ⟨he, -⟩ | ⟨q, x, y, hq, hx, hy, hin⟩
  · rw [he]
  · exact absurd (List.cons.inj he).2 hp
  obtain ⟨-, rfl⟩ := List.cons.inj hq
  rw [hx, hy, ok_bind, ok_bind]
  rcases hin.get (k := "atProvider") rfl with he | ⟨he, -⟩ | ⟨q, x, y, -, hx, hy, hin⟩
  · rw [he]
  · exact absurd he hp'
  rw [hx, hy, ok_bind, ok_bind]
  refine hin.upToNull.bind_or rfl rfl rfl fun tags tags' htags => ?_
  rw [htags.eq_of_scalars (.inl rfl)]

/-- A null in place of the status or of `atProvider` raises. -/
theorem prevTags_raises (h : setNull (.key "status" :: p) v =
      some (Dict.getD observed' selfHb (.dict []))) (hp : p = [] ∨ p = [.key "atProvider"]) :
    prevTags observed' = .error .attributeError := by
  obtain ⟨d, rfl⟩ := setNull_key h
  rw [prevTags_eq]
  rcases hp with rfl | rfl
  · obtain ⟨-, hw⟩ := setNull_key_nil h
    rw [hw, Value.get_dict, Dict.getD, Dict.get?_set_self]
    rfl
  · obtain ⟨x, y, -, hy, hw⟩ := setNull_key_cons h
    obtain ⟨e, rfl⟩ := setNull_key hy
    obtain ⟨-, rfl⟩ := setNull_key_nil hy
    rw [hw, Value.get_dict, Dict.getD, Dict.get?_set_self, Option.getD_some, ok_bind,
      Value.get_dict, Dict.getD, Dict.get?_set_self]
    rfl

end

/-! ## A Release -/

theorem anyReady_null {xs ys : List Value}
    (h : List.Forall₂ (UpToNull (.object [("type", .scalar), ("status", .scalar)])) xs ys) :
    anyReady ys = anyReady xs := by
  induction h with
  | nil => rfl
  | cons hxy _ ih =>
    simp only [anyReady]
    rw [hxy.get_scalar rfl, hxy.get_scalar rfl, ih]

theorem releaseReady_null (h : UpToNull (withStatus releaseStatus) v w) :
    releaseReady w = releaseReady v := by
  have heq : ∀ v : Value, releaseReady v =
      v.getOr "status" (.dict []) (.dict []) >>= fun status =>
        status.getOr "conditions" (.list []) (.list []) >>= fun conditions =>
        conditions.asList >>= anyReady := by
    intro v
    simp only [releaseReady, Value.getOr, bind_assoc, pure_bind]
  rw [heq, heq]
  refine h.bind_or rfl rfl rfl fun status status' hstatus => ?_
  refine hstatus.bind_or rfl rfl rfl fun conditions conditions' hconditions => ?_
  exact hconditions.asList fun xs ys => anyReady_null

/-! ## The observed resources -/

/-- The observed resources with a null in the status of one of them. -/
structure NullObserved (name : String) (p : Path) (v w : Value) (observed observed' : Dict) :
    Prop where
  before : Dict.get? observed name = some v
  set : setNull (.key "status" :: p) v = some w
  after : observed' = Dict.set observed name w

theorem nullObserved_of_nullIn {name : String} {observed observed' : Dict}
    (h : Field.nullIn (.key name :: .key "status" :: p) observed = some observed') :
    ∃ v w, NullObserved name p v w observed observed' := by
  unfold Field.nullIn at h
  split at h
  · next hset =>
    cases h
    obtain ⟨v, w, hv, hw, e⟩ := setNull_key_cons hset
    cases e
    exact ⟨v, w, hv, hw, rfl⟩
  · cases h

/-- An object of the kind. -/
def IsObject (kind : String) (v : Value) : Prop :=
  ∃ fields, v = .dict fields ∧ Dict.get? fields "kind" = some (.str kind)

theorem IsObject.truthy {kind : String} (h : IsObject kind v) : v.truthy = true := by
  obtain ⟨fields, rfl, hk⟩ := h
  cases fields with
  | nil => cases hk
  | cons kv fields => rfl

theorem IsObject.null {kind : String} (h : IsObject kind v)
    (hset : setNull (.key "status" :: p) v = some w) : IsObject kind w := by
  obtain ⟨fields, rfl, hk⟩ := h
  obtain ⟨fields', rfl, hget⟩ := setNull_get? hset
  refine ⟨fields', rfl, ?_⟩
  rcases hget "kind" with he | ⟨he, -⟩ | ⟨q, x, y, he, -⟩
  · rw [he, hk]
  · simp at he
  · simp at he

namespace NullObserved

variable {name : String} {observed observed' : Dict}

/-- A read of the observed resources gives the same, or the resource. -/
theorem getD (h : NullObserved name p v w observed observed') (spec : Spec) (n : String)
    (d : Value) :
    Dict.getD (converted spec observed') n d = Dict.getD (converted spec observed) n d ∨
      (n = name ∧ Dict.getD (converted spec observed) n d = v ∧
        Dict.getD (converted spec observed') n d = w) := by
  unfold Dict.getD
  by_cases hdrop : Dropped spec n
  · rw [get?_converted_of_dropped hdrop, get?_converted_of_dropped hdrop]
    exact .inl rfl
  rw [get?_converted_of_not_dropped hdrop, get?_converted_of_not_dropped hdrop, h.after]
  by_cases hn : n = name
  · subst hn
    rw [h.before, Dict.get?_set_self]
    exact .inr ⟨rfl, rfl, rfl⟩
  · rw [Dict.get?_set_ne _ _ hn]
    exact .inl rfl

/-- The same for a resource with a schema. -/
theorem getD_null {s : Schema} {n : String} (h : NullObserved name p v w observed observed')
    (spec : Spec) (d : Value) (hp : n = name → s.has p = true) :
    Dict.getD (converted spec observed') n d = Dict.getD (converted spec observed) n d ∨
      (n = name ∧ IsNulled (withStatus s) (.key "status" :: p)
        (Dict.getD (converted spec observed) n d) (Dict.getD (converted spec observed') n d)) := by
  rcases h.getD spec n d with he | ⟨hn, hb, ha⟩
  · exact .inl he
  · rw [hb, ha]
    exact .inr ⟨hn, hp hn, h.set⟩

theorem getD_ne (h : NullObserved name p v w observed observed') (spec : Spec) {n : String}
    (hn : n ≠ name) (d : Value) :
    Dict.getD (converted spec observed') n d = Dict.getD (converted spec observed) n d :=
  (h.getD spec n d).resolve_right fun hr => hn hr.1

theorem getD_self (h : NullObserved name p v w observed observed') {spec : Spec}
    (hdrop : ¬ Dropped spec name) (d : Value) : Dict.getD (converted spec observed) name d = v ∧
      Dict.getD (converted spec observed') name d = w := by
  unfold Dict.getD
  rw [get?_converted_of_not_dropped hdrop, get?_converted_of_not_dropped hdrop, h.after, h.before,
    Dict.get?_set_self]
  exact ⟨rfl, rfl⟩

/-- The resource is an object, and stays one. -/
theorem truthy {kind : String} (h : NullObserved name p v w observed observed')
    (hv : IsObject kind v) (spec : Spec) (n : String) :
    (Dict.getD (converted spec observed') n .null).truthy =
      (Dict.getD (converted spec observed) n .null).truthy := by
  rcases h.getD spec n .null with he | ⟨-, hb, ha⟩
  · rw [he]
  · rw [hb, ha, hv.truthy, (hv.null h.set).truthy]

theorem operatorInstalled {kind : String} (h : NullObserved name p v w observed observed')
    (hv : IsObject kind v) (spec : Spec) :
    operatorInstalled (converted spec observed') =
      operatorInstalled (converted spec observed) := by
  unfold ResilientCtp.operatorInstalled composedGslb
  rw [h.truthy hv, h.truthy hv, h.truthy hv]

/-- The peers read as before, unless one of them has lost its status. -/
theorem readPeers {env : Env} {spec : Spec} (h : NullObserved name p v w observed observed')
    (hhas : name ∈ spec.peerMembers.map (peerHbResourceName ·.id) →
      heartbeatStatus.has p = true)
    (hne : ¬ (spec.readMode ≠ "directApi" ∧ p = [] ∧
      name ∈ spec.peerMembers.map (peerHbResourceName ·.id))) :
    readPeers env spec (converted spec observed') =
      readPeers env spec (converted spec observed) := by
  unfold ResilientCtp.readPeers
  split
  · rfl
  next hmode =>
  refine mapM_congr fun m hm => ?_
  have hmem := List.mem_map_of_mem (f := fun m => peerHbResourceName m.id) hm
  rcases h.getD_null (n := peerHbResourceName m.id) spec (.dict [])
    (fun e => hhas (by rwa [← e])) with he | ⟨e, hin⟩
  · rw [Heartbeat.readPeer_eq, Heartbeat.readPeer_eq, he]
  · exact Heartbeat.readPeer_null hin fun hp => hne ⟨hmode, hp, by rwa [← e]⟩

end NullObserved

/-! ## The status of the XR -/

/-- The prior status is the same, or reads the same. -/
theorem priorStatus_null {composite composite' : Dict}
    (h : Field.nullIn (.key "status" :: p) composite = some composite')
    (hp : xrStatus.has p = true) :
    priorStatus composite' = priorStatus composite ∨
      ∃ status status', priorStatus composite = .ok status ∧
        priorStatus composite' = .ok status' ∧ ∀ k d, xrStatus.field k = some .scalar →
          Dict.getD status' k d = Dict.getD status k d := by
  unfold Field.nullIn at h
  split at h
  swap
  · cases h
  next hset =>
  cases h
  obtain ⟨m, e, hget⟩ := setNull_get? hset
  cases e
  unfold priorStatus Dict.getD
  rcases hget "status" with he | ⟨-, hn, hnull⟩ | ⟨q, x, y, hq, hx, hy, hin⟩
  · rw [he]
    exact .inl rfl
  · rw [hn, hnull]
    exact .inl rfl
  · obtain ⟨-, rfl⟩ := List.cons.inj hq
    have hnull : IsNulled xrStatus p x y := ⟨hp, hin⟩
    obtain ⟨status, status', rfl, rfl⟩ := hnull.dicts rfl
    rw [hx, hy, Option.getD_some, Option.getD_some, Value.dict_or_nil, Value.dict_or_nil]
    exact .inr ⟨status, status', rfl, rfl, fun k d hk =>
      Except.ok.inj (hnull.upToNull.get_scalar hk d)⟩

end ResilientCtp
