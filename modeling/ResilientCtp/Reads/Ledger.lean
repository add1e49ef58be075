import ResilientCtp.Run.Stamps

/-!
# The ledger between two control planes

A control plane writes its own heartbeat (`buildOwn`), and every peer renders an `Observe` resource
of the same cloud object (`buildPeerObserve`) and reads the tags back, from the observed resource
(`readPeer`) or from the cloud (`readPeerDirect`). The epoch, the role and the id share the tags,
and the API admits any text as the key of the epoch.

* `same_object`: the two resources have one address.
* `readPeer_shows`, `readPeerDirect_holds`: each reader gets the tags that were written.
* `roundTrips_iff`: a heartbeat is read back exactly if no fixed key takes the place of its epoch.
* `role_key_unread`: the liveness key `resilient-role`.
-/

namespace ResilientCtp

open Py

namespace Heartbeat

/-! ## The cloud object of a resource -/

/-- What names a cloud object: the type of the resource, its external name, and the region or
location. -/
structure Address where
  apiVersion : Value
  kind : Value
  externalName : Value
  place : Value

def forProvider (res : Value) : Except Err Value := do
  (← res.get "spec" .null).get "forProvider" .null

def address (res : Value) : Except Err Address := do
  let annotations ← (← res.get "metadata" .null).get "annotations" .null
  let provided ← (← forProvider res).asDict
  return {
    apiVersion := ← res.get "apiVersion" .null
    kind := ← res.get "kind" .null
    externalName := ← annotations.get "crossplane.io/external-name" .null
    place := (Dict.get? provided "region").getD (Dict.getD provided "location" .null) }

/-- GCP has labels for tags. -/
def tagField (provider : String) : String := if provider = "gcp" then "labels" else "tags"

/-- The tags that a resource writes. -/
def writtenTags (provider : String) (res : Value) : Except Err Dict := do
  (← (← forProvider res).get (tagField provider) .null).asDict

/-- The providers that have a heartbeat resource. -/
def heartbeatProviders : List String := ["aws", "azure", "gcp"]

/-- The address of a heartbeat depends on the provider, the id and the region alone. -/
theorem buildParameter_address {provider : String} (hp : provider ∈ heartbeatProviders) :
    ∃ apiVersion kind : Value, ∀ (name ns cpId region providerConfig : String)
      (mgmtPolicies : List String) (tags : Dict), ∃ res,
        buildParameter provider name ns cpId region providerConfig mgmtPolicies tags = .ok res ∧
        address res =
          .ok ⟨apiVersion, kind, .str (heartbeatExternalName cpId), .str region⟩ ∧
        writtenTags provider res = .ok tags := by
  simp only [heartbeatProviders, List.mem_cons, List.not_mem_nil, or_false] at hp
  rcases hp with rfl | rfl | rfl
  · exact ⟨_, _, fun _ _ _ _ _ _ _ => ⟨_, rfl, rfl, rfl⟩⟩
  · exact ⟨_, _, fun _ _ _ _ _ _ _ => ⟨_, rfl, rfl, rfl⟩⟩
  · exact ⟨_, _, fun _ _ _ _ _ _ _ => ⟨_, rfl, rfl, rfl⟩⟩

variable {m : Member} {ns providerConfig ns' providerConfig' tsTag : String} {epoch now ttl : Int}
  {role : Role}

/-- **Same object.** The resource of a peer has the address of the one that is written, and
the tags that are written are those of the heartbeat. -/
theorem same_object (hp : m.provider ∈ heartbeatProviders) : ∃ own observe a,
    buildOwn m.toIdentity ns providerConfig tsTag epoch role.text = .ok (selfHb, own) ∧
    buildPeerObserve m ns' providerConfig' = .ok (peerHbResourceName m.id, observe) ∧
    address own = .ok a ∧ address observe = .ok a ∧
    a.externalName = .str (heartbeatExternalName m.id) ∧ a.place = .str m.region ∧
    writtenTags m.provider own = .ok (ownTags m.toIdentity tsTag epoch role.text) := by
  obtain ⟨apiVersion, kind, h⟩ := buildParameter_address hp
  obtain ⟨own, hown, haddr, htags⟩ := h selfHb ns m.id m.region providerConfig ["*"]
    (ownTags m.toIdentity tsTag epoch role.text)
  obtain ⟨observe, hobserve, haddr', -⟩ := h (peerHbResourceName m.id) ns' m.id m.region
    (m.providerConfigName.getD providerConfig') ["Observe"] []
  refine ⟨own, observe, _, ?_, ?_, haddr, haddr', rfl, rfl, htags⟩
  · simp only [buildOwn, hown]
    rfl
  · simp only [buildPeerObserve, hobserve]
    rfl

/-! ## The two readers -/

/-- The provider reports the tags in the observed resource, next to whatever else it reports. -/
def ShowsTags (provider : String) (tags : Dict) (observed : Value) : Prop :=
  ∃ fields status atProvider, observed = .dict fields ∧
    Dict.get? fields "status" = some (.dict status) ∧
    Dict.get? status "atProvider" = some (.dict atProvider) ∧
    Dict.get? atProvider (tagField provider) = some (.dict tags)

/-- The cloud returns the tags of the object. -/
def HoldsTags (readResourceTags : String → String → String → Option Dict) (provider : String)
    (a : Address) (tags : Dict) : Prop :=
  readResourceTags provider a.externalName.text a.place.text = some tags

variable {observed tags : Dict} {readResourceTags : String → String → String → Option Dict}
  {a : Address}

theorem readPeer_shows {v : Value} (hv : Dict.get? observed (peerHbResourceName m.id) = some v)
    (h : ShowsTags m.provider tags v) :
    readPeer m observed tsTag now ttl = .ok (livenessFromTags m (some tags) tsTag now ttl) := by
  obtain ⟨fields, status, atProvider, rfl, hstatus, hat, htags⟩ := h
  unfold tagField at htags
  simp only [readPeer, Dict.getD, hv, hstatus, hat, htags, Option.getD_some, Value.get_dict,
    Value.dict_or_nil, bind, Except.bind]
  rfl

theorem readPeerDirect_holds (hname : a.externalName = .str (heartbeatExternalName m.id))
    (hplace : a.place = .str m.region) (h : HoldsTags readResourceTags m.provider a tags) :
    readPeerDirect readResourceTags m tsTag now ttl =
      livenessFromTags m (some tags) tsTag now ttl := by
  unfold HoldsTags at h
  rw [hname, hplace] at h
  exact congrArg (livenessFromTags m · tsTag now ttl) h

/-! ## The round trip -/

/-- What is read is what was written. -/
structure Recovers (p : PeerLiveness) (epoch : Int) (role : Role) : Prop where
  readable : p.readable = true
  epoch : p.epoch = epoch
  role : p.role = role.text

/-- The resources `own` and `observe` have one object, and either reader recovers what `own` wrote
there. -/
structure Delivers (m : Member) (tsTag : String) (epoch : Int) (role : Role) (own observe : Value)
    (a : Address) (tags : Dict) : Prop where
  own_address : address own = .ok a
  observe_address : address observe = .ok a
  written : writtenTags m.provider own = .ok tags
  mr : ∀ observed v now ttl, Dict.get? observed (peerHbResourceName m.id) = some v →
    ShowsTags m.provider tags v →
      ∃ p, readPeer m observed tsTag now ttl = .ok p ∧ Recovers p epoch role
  directApi : ∀ readResourceTags now ttl, HoldsTags readResourceTags m.provider a tags →
    Recovers (readPeerDirect readResourceTags m tsTag now ttl) epoch role

/-- The heartbeat that the member `m` writes reaches a peer, whose settings are `ns'` and
`providerConfig'`. -/
def RoundTrips (m : Member) (ns providerConfig ns' providerConfig' tsTag : String) (epoch : Int)
    (role : Role) : Prop :=
  ∃ own observe a tags,
    buildOwn m.toIdentity ns providerConfig tsTag epoch role.text = .ok (selfHb, own) ∧
    buildPeerObserve m ns' providerConfig' = .ok (peerHbResourceName m.id, observe) ∧
    Delivers m tsTag epoch role own observe a tags

/-- The written tags read back exactly if the epoch keeps its key. -/
theorem recovers_iff (hepoch : 0 < epoch) :
    Recovers (livenessFromTags m (some (ownTags m.toIdentity tsTag epoch role.text)) tsTag now ttl)
        epoch role ↔
      tsTag ≠ roleTag ∧ (tsTag = cpidTag → asInt (.str m.id) 0 = epoch) := by
  rcases livenessKey_cases tsTag with hk | rfl | rfl
  · obtain ⟨hreadable, he, hrole⟩ := livenessFromTags_ownTags hk m m.toIdentity epoch role.text
      now ttl
    exact ⟨fun _ => ⟨hk.1, fun hid => absurd hid hk.2⟩, fun _ => ⟨hreadable, he, hrole⟩⟩
  · constructor
    · intro h
      have he := h.epoch
      simp only [livenessFromTags, Option.getD_some, getD_ownTags_role] at he
      have hzero : asInt (.str role.text) 0 = 0 := by cases role <;> decide
      omega
    · exact fun h => absurd rfl h.1
  · constructor
    · intro h
      have he := h.epoch
      simp only [livenessFromTags, Option.getD_some, getD_ownTags_id] at he
      exact ⟨by decide, fun _ => he⟩
    · rintro ⟨-, hid⟩
      refine ⟨?_, ?_, ?_⟩ <;>
        simp only [livenessFromTags, Option.getD_some, getD_ownTags_id, getD_ownTags_role,
          isSome, Value.text]
      exact hid rfl

/-- **Round trip.** What a member writes is what every peer reads, by either reader, exactly if
the liveness key is not the key of the role, nor that of the id (unless the id reads as the epoch).
-/
theorem roundTrips_iff (hp : m.provider ∈ heartbeatProviders) (hepoch : 0 < epoch) :
    RoundTrips m ns providerConfig ns' providerConfig' tsTag epoch role ↔
      tsTag ≠ roleTag ∧ (tsTag = cpidTag → asInt (.str m.id) 0 = epoch) := by
  obtain ⟨own, observe, a, hown, hobserve, haddr, haddr', hname, hplace, htags⟩ :=
    @same_object m ns providerConfig ns' providerConfig' tsTag epoch role hp
  constructor
  · rintro ⟨own', observe', a', tags', hown', -, h⟩
    cases hown.symm.trans hown'
    cases haddr.symm.trans h.own_address
    cases htags.symm.trans h.written
    have hholds : HoldsTags (fun _ _ _ => some (ownTags m.toIdentity tsTag epoch role.text))
        m.provider a (ownTags m.toIdentity tsTag epoch role.text) := rfl
    have hread := h.directApi _ 0 0 hholds
    rw [readPeerDirect_holds hname hplace hholds] at hread
    exact (recovers_iff hepoch).mp hread
  · intro hkey
    refine ⟨own, observe, a, _, hown, hobserve, haddr, haddr', htags, ?_, ?_⟩
    · intro observed v now ttl hv hshows
      exact ⟨_, readPeer_shows hv hshows, (recovers_iff hepoch).mpr hkey⟩
    · intro readResourceTags now ttl hholds
      rw [readPeerDirect_holds hname hplace hholds]
      exact (recovers_iff hepoch).mpr hkey

theorem roundTrips_iff_memberB :
    RoundTrips memberB "default" "default" "team-b" "peers" tsTagDefault 1000 .leader ↔
      tsTagDefault ≠ roleTag ∧
        (tsTagDefault = cpidTag → asInt (.str memberB.id) 0 = 1000) :=
  roundTrips_iff (by decide) (by decide)

/-- Under the key of the role, the role takes the place of the epoch. -/
theorem role_key_unread : ¬ ∀ (m : Member)
    (ns providerConfig ns' providerConfig' tsTag : String) (epoch : Int) (role : Role),
    m.provider ∈ heartbeatProviders → 0 < epoch →
      RoundTrips m ns providerConfig ns' providerConfig' tsTag epoch role := by
  intro h
  obtain ⟨own, observe, a, tags, hown, -, hd⟩ :=
    h memberA "default" "default" "default" "default" roleTag 1000 .leader (by decide) (by decide)
  cases hown
  cases hd.own_address
  cases hd.written
  have hread := hd.directApi (fun _ _ _ => some (ownTags memberA.toIdentity roleTag 1000 "leader"))
    1000 180 rfl
  exact absurd hread.epoch (by decide)

end Heartbeat

end ResilientCtp
