import ResilientCtp.Model.Spec

/-!
# The heartbeat ledger (`heartbeat.py`)

Each control plane writes one cloud resource, whose tags (labels on GCP) carry its last reconcile
epoch, its role and its id, and observes the resource of every peer.

* `ownTags`, `buildOwn`: what a control plane writes. The three keys share one dictionary, so a
  liveness key equal to one of the fixed keys loses its epoch: `getD_ownTags` asks for another
  key (`LivenessKey`).
* `livenessFromTags`, `readPeer`, `readPeerDirect`: what a peer reads.
* `livenessFromTags_ownTags`: a peer reads back the epoch and the role that were written.
-/

namespace ResilientCtp

open Py

/-- The age of a peer with no known epoch. -/
def unknownAge : Int := 1000000000

structure PeerLiveness where
  cpId : String
  priority : Int
  geoTag : String
  epoch : Int
  ageSeconds : Int
  fresh : Bool
  readable : Bool
  role : String
  deriving DecidableEq

namespace Heartbeat

/-! ## Writing -/

/-- The shape of the three heartbeat resources, which differ in type and `forProvider`. -/
def managedResource (apiVersion kind name ns externalName providerConfig : String)
    (mgmtPolicies : List String) (forProvider : Dict) : Value :=
  .dict [
    ("apiVersion", .str apiVersion),
    ("kind", .str kind),
    ("metadata", .dict [
      ("name", .str name),
      ("namespace", .str ns),
      ("annotations", .dict [
        ("crossplane.io/composition-resource-name", .str name),
        ("crossplane.io/external-name", .str externalName)])]),
    ("spec", .dict [
      ("managementPolicies", .list (mgmtPolicies.map .str)),
      ("forProvider", .dict forProvider),
      ("providerConfigRef", .dict [
        ("name", .str providerConfig),
        ("kind", .str "ProviderConfig")])])]

def awsParameter (name ns externalName region providerConfig : String)
    (mgmtPolicies : List String) (tags : Dict) : Value :=
  managedResource "ssm.aws.m.upbound.io/v1beta1" "Parameter" name ns externalName providerConfig
    mgmtPolicies [
      ("region", .str region),
      ("type", .str "String"),
      ("insecureValue", .str "resilient-ctp-heartbeat"),
      ("tags", .dict tags)]

def azureResourceGroup (name ns externalName location providerConfig : String)
    (mgmtPolicies : List String) (tags : Dict) : Value :=
  managedResource "azure.m.upbound.io/v1beta1" "ResourceGroup" name ns externalName providerConfig
    mgmtPolicies [
      ("location", .str location),
      ("tags", .dict tags)]

def gcpBucket (name ns externalName location providerConfig : String)
    (mgmtPolicies : List String) (labels : Dict) : Value :=
  managedResource "storage.gcp.m.upbound.io/v1beta1" "Bucket" name ns externalName providerConfig
    mgmtPolicies [
      ("location", .str location),
      ("labels", .dict labels),
      ("uniformBucketLevelAccess", .bool true),
      ("forceDestroy", .bool false)]

def buildParameter (provider name ns cpId region providerConfig : String)
    (mgmtPolicies : List String) (tags : Dict) : Except Err Value :=
  let externalName := heartbeatExternalName cpId
  if provider = "aws" then
    .ok (awsParameter name ns externalName region providerConfig mgmtPolicies tags)
  else if provider = "azure" then
    .ok (azureResourceGroup name ns externalName region providerConfig mgmtPolicies tags)
  else if provider = "gcp" then
    .ok (gcpBucket name ns externalName region providerConfig mgmtPolicies tags)
  else
    .error (.notImplementedError ("heartbeat resource for provider '" ++ provider ++
      "' not implemented yet (see docs/ROADMAP.md)"))

/-- The tags of a control plane's own heartbeat. -/
def ownTags (identity : Identity) (tsTag : String) (epoch : Int) (role : String) : Dict :=
  Dict.ofPairs [(tsTag, .str (strInt epoch)), (roleTag, .str role), (cpidTag, .str identity.id)]

def buildOwn (identity : Identity) (ns providerConfig tsTag : String) (epoch : Int)
    (role : String) : Except Err (String × Value) := do
  let res ← buildParameter identity.provider selfHb ns identity.id identity.region providerConfig
    ["*"] (ownTags identity tsTag epoch role)
  return (selfHb, res)

def buildPeerObserve (member : Member) (ns defaultProviderConfig : String) :
    Except Err (String × Value) := do
  let name := peerHbResourceName member.id
  let providerConfig := member.providerConfigName.getD defaultProviderConfig
  let res ← buildParameter member.provider name ns member.id member.region providerConfig
    ["Observe"] []
  return (name, res)

/-! ## Reading -/

/-- `v is not None`. -/
def isSome : Value → Bool
  | .null => false
  | _ => true

/-- `_liveness_from_tags`; `none` is a failed read. -/
def livenessFromTags (member : Member) (tags : Option Dict) (tsTag : String) (now ttl : Int) :
    PeerLiveness :=
  let tags := tags.getD []
  let rawTs := Dict.getD tags tsTag .null
  let readable := isSome rawTs
  let epoch := asInt rawTs 0
  let age := if epoch = 0 then unknownAge else now - epoch
  { cpId := member.id
    priority := member.priority
    geoTag := member.geoTag
    epoch
    ageSeconds := age
    fresh := readable && decide (0 < epoch) && decide (age ≤ ttl)
    readable
    role := (Dict.getD tags roleTag (.str "")).text }

/-- `read_peer_direct`: `readResourceTags provider name region` is the cloud's answer, `none`
where the read raises `CloudReadError`. -/
def readPeerDirect (readResourceTags : String → String → String → Option Dict) (member : Member)
    (tsTag : String) (now ttl : Int) : PeerLiveness :=
  livenessFromTags member
    (readResourceTags member.provider (heartbeatExternalName member.id) member.region) tsTag now ttl

/-- `read_peer`: from the observed resource's `status.atProvider`. -/
def readPeer (member : Member) (observed : Dict) (tsTag : String) (now ttl : Int) :
    Except Err PeerLiveness := do
  let obs := Dict.getD observed (peerHbResourceName member.id) (.dict [])
  let atProvider := (← (← obs.get "status" (.dict [])).get "atProvider" (.dict [])).or (.dict [])
  let field := if member.provider = "gcp" then "labels" else "tags"
  let tags := (← atProvider.get field (.dict [])).or (.dict [])
  return livenessFromTags member (some (← tags.asDict)) tsTag now ttl

/-- An observed heartbeat whose provider reports the tags `tags`, under `labels` on GCP. -/
def observedHeartbeat (provider : String) (tags : Dict) : Value :=
  .dict [("status", .dict [("atProvider",
    .dict [(if provider = "gcp" then "labels" else "tags", .dict tags)])])]

/-! ## What a peer reads back -/

theorem readPeer_observed {m : Member} {observed tags : Dict} (k : String) (now ttl : Int)
    (h : Dict.getD observed (peerHbResourceName m.id) (.dict []) =
      observedHeartbeat m.provider tags) :
    readPeer m observed k now ttl = .ok (livenessFromTags m (some tags) k now ttl) := by
  have hget : ∀ (key : String) (v : Value), (Value.dict [(key, v)]).get key (.dict []) = .ok v := by
    intro key v
    simp [Value.get, Dict.getD, Dict.get?_cons]
  have hor : ∀ (key : String) (v : Value),
      (Value.dict [(key, v)]).or (.dict []) = .dict [(key, v)] := fun _ _ => rfl
  unfold readPeer
  rw [h, observedHeartbeat]
  simp only [bind, Except.bind, hget, hor, Value.dict_or_nil]
  rfl

/-- A heartbeat that is not observed reads as one without tags. -/
theorem readPeer_unobserved {m : Member} {observed : Dict} (k : String) (now ttl : Int)
    (h : Dict.getD observed (peerHbResourceName m.id) (.dict []) = .dict []) :
    readPeer m observed k now ttl = .ok (livenessFromTags m none k now ttl) := by
  unfold readPeer
  rw [h]
  split <;> rfl

/-- A key that leaves the role and the id of a heartbeat alone. -/
def LivenessKey (tsTag : String) : Prop := tsTag ≠ roleTag ∧ tsTag ≠ cpidTag

theorem livenessKey_default : LivenessKey tsTagDefault := ⟨by decide, by decide⟩

theorem getD_ownTags {tsTag : String} (h : LivenessKey tsTag) (i : Identity) (epoch : Int)
    (role : String) (d : Value) :
    Dict.getD (ownTags i tsTag epoch role) tsTag d = .str (strInt epoch) := by
  simp only [ownTags, Dict.ofPairs, List.foldl, Dict.getD]
  rw [Dict.get?_set_ne _ _ h.2, Dict.get?_set_ne _ _ h.1, Dict.get?_set_self, Option.getD_some]

theorem getD_ownTags_role (i : Identity) (tsTag : String) (epoch : Int) (role : String)
    (d : Value) : Dict.getD (ownTags i tsTag epoch role) roleTag d = .str role := by
  simp only [ownTags, Dict.ofPairs, List.foldl, Dict.getD]
  rw [Dict.get?_set_ne _ _ (by decide), Dict.get?_set_self, Option.getD_some]

theorem getD_ownTags_id (i : Identity) (tsTag : String) (epoch : Int) (role : String) (d : Value) :
    Dict.getD (ownTags i tsTag epoch role) cpidTag d = .str i.id := by
  simp only [ownTags, Dict.ofPairs, List.foldl, Dict.getD, Dict.get?_set_self, Option.getD_some]

@[simp] theorem livenessFromTags_cpId (m : Member) (tags : Option Dict) (k : String)
    (now ttl : Int) : (livenessFromTags m tags k now ttl).cpId = m.id := rfl

@[simp] theorem livenessFromTags_priority (m : Member) (tags : Option Dict) (k : String)
    (now ttl : Int) : (livenessFromTags m tags k now ttl).priority = m.priority := rfl

/-- A heartbeat reads as fresh exactly when its epoch is positive and at most the TTL old. -/
theorem fresh_livenessFromTags {m : Member} {tags : Option Dict} {k : String} {now ttl : Int} :
    (livenessFromTags m tags k now ttl).fresh = true ↔
      0 < (livenessFromTags m tags k now ttl).epoch ∧
        now - (livenessFromTags m tags k now ttl).epoch ≤ ttl := by
  simp only [livenessFromTags, Bool.and_eq_true, decide_eq_true_eq]
  constructor
  · rintro ⟨⟨-, h0⟩, h⟩
    rw [if_neg (Int.ne_of_gt h0)] at h
    exact ⟨h0, h⟩
  · rintro ⟨h0, h⟩
    refine ⟨⟨?_, h0⟩, by rw [if_neg (Int.ne_of_gt h0)]; exact h⟩
    cases hv : Dict.getD (tags.getD []) k .null <;> simp_all [isSome]

/-- **Ledger round trip.** A peer reads the epoch and the role that a control plane wrote. -/
theorem livenessFromTags_ownTags {k : String} (hk : LivenessKey k) (m : Member) (i : Identity)
    (epoch : Int) (role : String) (now ttl : Int) :
    (livenessFromTags m (some (ownTags i k epoch role)) k now ttl).readable = true ∧
      (livenessFromTags m (some (ownTags i k epoch role)) k now ttl).epoch = epoch ∧
      (livenessFromTags m (some (ownTags i k epoch role)) k now ttl).role = role := by
  refine ⟨?_, ?_, ?_⟩ <;>
    simp only [livenessFromTags, Option.getD_some, getD_ownTags hk, getD_ownTags_role, asInt_strInt,
      isSome, Value.text]

end Heartbeat

end ResilientCtp
