import ResilientCtp.Cluster.Cloud
import ResilientCtp.Reads.Clients

/-!
# The objects behind the SDKs

A peer is read through `read_resource_tags`, on a client of the cache that all reads of the process
share. `sdkTags` is what the SDK answers to the client of a member's own read. A read that has got
a client comes to just that, in whatever way the reads interleave (`outcome_of_client`).

* `holdsTags`: so a read gets the tags that the cloud holds of the object, and what a member wrote
  is recovered (`recovers_iff_sdk`).
* `readsObject`: where the SDKs answer nothing but the tags of the objects, what becomes of a read
  on the pool is a read of the object, or nothing.
-/

namespace ResilientCtp

open Py Heartbeat

namespace CloudRead

variable {Client Credential Timeout ι : Type}

/-- What the SDK answers on the heartbeat of `m`, to the client of its own read. -/
def sdkTags (sdk : Sdk Client Credential Timeout) (cloud : Cloud Client Timeout) (m : Member)
    (timeout : Timeout) (azureSubscriptionId : Option String) : Except String Dict :=
  let name := heartbeatExternalName m.id
  if m.provider = "aws" then do
    let pairs ← cloud.listTagsForResource (sdk.ssmClient m.region timeout) name
    return Dict.ofPairs (pairs.map fun t => (t.1, .str t.2))
  else if m.provider = "azure" then do
    let client := sdk.resourceManagementClient sdk.defaultAzureCredential
      (azureSubscriptionId.getD "")
    return (← cloud.resourceGroupTags client name timeout).getD []
  else do
    return (← cloud.bucketLabels (sdk.storageClient none) name timeout).getD []

variable {sdk : Sdk Client Credential Timeout} {cloud : Cloud Client Timeout} {m : Member}
  {timeout : Timeout} {azureSubscriptionId : Option String} {want : CacheKey Timeout × Client}
  {cache : Cache Client Timeout} {a : Address} {tags : Dict}

theorem toOption_surface {α : Type} (what : String) (r : Except String α) :
    (surface what r).toOption = r.toOption := by
  cases r <;> rfl

/-- On its own client a read of `m` comes to `sdkTags`. -/
theorem finish_own
    (h : (peerCall m timeout azureSubscriptionId : Call Credential Timeout).wants sdk = some want) :
    ((peerCall m timeout azureSubscriptionId : Call Credential Timeout).finish cloud
      (.ok want.2)).toOption = (sdkTags sdk cloud m timeout azureSubscriptionId).toOption := by
  unfold Call.finish
  unfold Call.wants at h
  split at h
  · next hp =>
    cases h
    rw [if_pos hp, sdkTags, if_pos (show m.provider = "aws" from hp), awsTags, toOption_surface]
    rfl
  next hne =>
  rw [if_neg hne]
  split at h
  · next hp =>
    cases h
    rw [if_pos hp, sdkTags, if_neg (show ¬ m.provider = "aws" from hne),
      if_pos (show m.provider = "azure" from hp), azureTags, toOption_surface]
    rfl
  next hne' =>
  rw [if_neg hne']
  split at h
  · next hp =>
    cases h
    rw [if_pos hp, sdkTags, if_neg (show ¬ m.provider = "aws" from hne),
      if_neg (show ¬ m.provider = "azure" from hne'), gcpLabels, toOption_surface]
    rfl
  · cases h

/-! ## One read -/

variable [DecidableEq Timeout] [DecidableEq ι]

/-- The reader of `read_peer_direct`, while no other read takes a step. -/
def reader (sdk : Sdk Client Credential Timeout) (cloud : Cloud Client Timeout) (timeout : Timeout)
    (azureSubscriptionId : Option String) (cache : Cache Client Timeout)
    (provider name region : String) : Option Dict :=
  (readResourceTags sdk cloud none
    { provider, resourceName := name, region, project := "", subscriptionId := ""
      credential := none, timeout, azureSubscriptionId } none cache).1.toOption

/-- On a cache whose client of the read, if there is one, is the read's own. -/
theorem reader_eq
    (h : (peerCall m timeout azureSubscriptionId : Call Credential Timeout).wants sdk = some want)
    (hcache : ∀ c, cache.lookup want.1 = some c → c = want.2) :
    reader sdk cloud timeout azureSubscriptionId cache m.provider (heartbeatExternalName m.id)
      m.region = (sdkTags sdk cloud m timeout azureSubscriptionId).toOption := by
  have hgot : (cachedClient want.1 (factory none want.2) cache).1 = .ok want.2 := by
    unfold cachedClient
    cases hk : cache.lookup want.1 with
    | none => rfl
    | some c => rw [hcache c hk]
  rw [← finish_own h, ← hgot]
  exact congrArg (fun r => r.1.toOption) (readResourceTags_eq h cloud none cache)

theorem holdsTags
    (h : (peerCall m timeout azureSubscriptionId : Call Credential Timeout).wants sdk = some want)
    (hcache : ∀ c, cache.lookup want.1 = some c → c = want.2)
    (hname : a.externalName = .str (heartbeatExternalName m.id)) (hplace : a.place = .str m.region)
    (htags : sdkTags sdk cloud m timeout azureSubscriptionId = .ok tags) :
    HoldsTags (reader sdk cloud timeout azureSubscriptionId cache) m.provider a tags := by
  rw [HoldsTags, hname, hplace]
  exact (reader_eq h hcache).trans (by rw [htags]; rfl)

/-- **The round trip through the SDK.** A direct read recovers what a member wrote exactly if the
epoch keeps its key. -/
theorem recovers_iff_sdk {epoch now ttl : Int} {tsTag : String} {role : Role}
    (h : (peerCall m timeout azureSubscriptionId : Call Credential Timeout).wants sdk = some want)
    (hcache : ∀ c, cache.lookup want.1 = some c → c = want.2) (hepoch : 0 < epoch)
    (htags : sdkTags sdk cloud m timeout azureSubscriptionId =
      .ok (ownTags m.toIdentity tsTag epoch role.text)) :
    Recovers (readPeerDirect (reader sdk cloud timeout azureSubscriptionId cache) m tsTag now ttl)
        epoch role ↔
      tsTag ≠ roleTag ∧ (tsTag = cpidTag → asInt (.str m.id) 0 = epoch) := by
  have hholds : HoldsTags (reader sdk cloud timeout azureSubscriptionId cache) m.provider
      ⟨.null, .null, .str (heartbeatExternalName m.id), .str m.region⟩
      (ownTags m.toIdentity tsTag epoch role.text) := holdsTags h hcache rfl rfl htags
  rw [readPeerDirect_holds rfl rfl hholds]
  exact recovers_iff hepoch

/-! ## The reads of the pool -/

/-- The reads of a process: whose heartbeat each one reads, and what else it passes. -/
structure PeerReads (ι Timeout : Type) where
  member : ι → Member
  timeout : ι → Timeout
  azureSubscriptionId : ι → Option String

namespace PeerReads

variable (reads : PeerReads ι Timeout) (Credential : Type)

def call (i : ι) : Call Credential Timeout :=
  peerCall (reads.member i) (reads.timeout i) (reads.azureSubscriptionId i)

/-- What the SDK answers to the own client of a read. -/
def answer {Credential : Type} (sdk : Sdk Client Credential Timeout)
    (cloud : Cloud Client Timeout) (i : ι) : Except String Dict :=
  sdkTags sdk cloud (reads.member i) (reads.timeout i) (reads.azureSubscriptionId i)

/-- What `read_peer_direct` has come to. -/
def fate (cloud : Cloud Client Timeout) (tsTag : String) (now ttl : Int)
    (s : Memo.State ι (CacheKey Timeout) Client String) (i : ι) : Fate :=
  match outcome cloud (reads.call Credential i) (s.phase i) with
  | some r => .returned (readPeerDirect (fun _ _ _ => r.toOption) (reads.member i) tsTag now ttl)
  | none => .notDone

end PeerReads

variable {reads : PeerReads ι Timeout} {s : Memo.State ι (CacheKey Timeout) Client String} {i : ι}
  {c : Client} {objects : ResilientCtp.Cloud} {tsTag : String} {now ttl : Int}

/-- A read of a peer that has got a client. -/
theorem outcome_of_client (cloud : Cloud Client Timeout)
    (hs : (readers sdk (reads.call Credential)).Reach s)
    (hc : s.phase i = .done (.ok c)) :
    ∃ r, outcome cloud (reads.call Credential i) (s.phase i) = some r ∧
      r.toOption = (reads.answer sdk cloud i).toOption := by
  obtain ⟨k, hw⟩ := buildsAlone_iff.mp
    ((peers_transparent reads.member reads.timeout reads.azureSubscriptionId).own s hs i c hc)
  rw [hc]
  exact ⟨_, rfl, finish_own hw⟩

theorem fate_of_client (hs : (readers sdk (reads.call Credential)).Reach s)
    (hc : s.phase i = .done (.ok c)) :
    reads.fate Credential cloud tsTag now ttl s i = .returned
      (livenessFromTags (reads.member i) (reads.answer sdk cloud i).toOption tsTag now ttl) := by
  obtain ⟨r, hr, ht⟩ := outcome_of_client cloud hs hc
  unfold PeerReads.fate
  rw [hr]
  show Fate.returned (livenessFromTags (reads.member i) r.toOption tsTag now ttl) = _
  rw [ht]

/-- **A read of the object**, whatever becomes of it. -/
theorem readsObject (hs : (readers sdk (reads.call Credential)).Reach s)
    (hsdk : ∀ tags, reads.answer sdk cloud i = .ok tags →
      objects (objectOf (reads.member i).toIdentity) = some tags) :
    ReadsObject objects (reads.member i) tsTag now ttl
      (reads.fate Credential cloud tsTag now ttl s i) := by
  cases hphase : s.phase i with
  | done client =>
    cases client with
    | error e =>
      -- the factory raised
      obtain ⟨err, herr⟩ := (reads.call Credential i).finish_error cloud e
      unfold PeerReads.fate
      rw [hphase, outcome, herr]
      exact Or.inl rfl
    | ok c =>
      rw [fate_of_client hs hphase]
      cases htags : reads.answer sdk cloud i with
      | error e => exact .inl rfl
      | ok tags =>
        exact .inr (congrArg (livenessFromTags (reads.member i) · tsTag now ttl)
          (hsdk tags htags).symm)
  | _ =>
    unfold PeerReads.fate
    rw [hphase]
    trivial

end CloudRead

end ResilientCtp
