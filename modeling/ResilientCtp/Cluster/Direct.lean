import ResilientCtp.Cluster.Sdk
import ResilientCtp.Reads.Observed
import ResilientCtp.Run.MemberOrder

/-!
# The two read modes

In `mr` mode a run reads its peers from what their Observe resources report, in `directApi` mode
through the SDKs, on the pool (`PoolReads`), whatever is reported on the peers. Where the reports
are up to date and the SDKs answer the tags of the objects, the whole answer of a run is the same in
both modes, also an exception (`direct_eq_mr`). The direct read only saves the wait for the reports.
-/

namespace ResilientCtp

open Py Heartbeat MemberOrder

namespace Direct

/-- The request in `directApi` mode, on other observed resources. -/
def direct (req : Request) (observed : Dict) : Request :=
  { req with
    xr := { req.xr with spec := { req.xr.spec with
      heartbeat := { req.xr.spec.heartbeat with read := some "directApi" } } }
    observed }

/-- The report on the peer has the tags of its object, or there is no object and no report. -/
def UpToDate (cloud : Cloud) (observed : Dict) (m : Member) : Prop :=
  match cloud (objectOf m.toIdentity) with
  | some tags => ∃ v, Dict.get? observed (peerHbResourceName m.id) = some v ∧
      ShowsTags m.provider tags v
  | none => ∀ v, Dict.get? observed (peerHbResourceName m.id) = some v →
      ∃ fields, v = .dict fields ∧ Dict.get? fields "status" = none

/-- A read of the object itself. -/
def readCloud (cloud : Cloud) (provider name region : String) : Option Dict :=
  cloud (heartbeatObject provider name region)

variable {cloud : Cloud} {env : Env} {req : Request} {observed : Dict} {m : Member}
  {tsTag name : String} {now ttl : Int}

theorem readPeer_unreported {fields : Dict}
    (hv : Dict.get? observed (peerHbResourceName m.id) = some (.dict fields))
    (hstatus : Dict.get? fields "status" = none) :
    readPeer m observed tsTag now ttl = .ok (livenessFromTags m none tsTag now ttl) := by
  unfold readPeer
  simp only [Dict.getD, hv, hstatus, Option.getD_some, Value.get_dict, Option.getD_none, ok_bind]
  split <;> rfl

/-- One peer reads the same in both modes. -/
theorem UpToDate.readPeer_eq (h : UpToDate cloud observed m) : readPeer m observed tsTag now ttl =
    .ok (readPeerDirect (readCloud cloud) m tsTag now ttl) := by
  have hdirect : readPeerDirect (readCloud cloud) m tsTag now ttl =
      livenessFromTags m (cloud (objectOf m.toIdentity)) tsTag now ttl := rfl
  unfold UpToDate at h
  cases hc : cloud (objectOf m.toIdentity) with
  | some tags =>
    rw [hc] at h
    obtain ⟨v, hv, hshows⟩ := h
    rw [readPeer_shows hv hshows, hdirect, hc]
  | none =>
    rw [hc] at h
    rw [hdirect, hc]
    cases hv : Dict.get? observed (peerHbResourceName m.id) with
    | none => exact readPeer_unobserved _ _ _ (by rw [Dict.getD, hv]; rfl)
    | some v =>
      obtain ⟨fields, rfl, hstatus⟩ := h v hv
      exact readPeer_unreported hv hstatus

theorem readPeers_mr (hmode : req.xr.spec.readMode ≠ "directApi")
    (hreports : ∀ m ∈ req.xr.spec.peerMembers, UpToDate cloud observed m) :
    readPeers env req.xr.spec observed = .ok (req.xr.spec.peerMembers.map
      (readPeerDirect (readCloud cloud) · req.xr.spec.tsTag env.now req.xr.spec.ttl)) := by
  rw [readPeers, if_neg hmode, mapM_ok_iff, List.forall₂_map_right_iff, List.forall₂_same]
  exact fun m hm => (hreports m hm).readPeer_eq

/-- The read of each peer has come to a read of its object. -/
def ReadsObjects (cloud : Cloud) (env : Env) (spec : Spec) : Prop :=
  (env.pool spec.peerMembers).Perm (spec.peerMembers.map fun m =>
    (m, .returned (readPeerDirect (readCloud cloud) m spec.tsTag env.now spec.ttl)))

theorem readPeers_direct (hids : (req.xr.spec.members.map (·.id)).Nodup)
    (hpool : ReadsObjects cloud env req.xr.spec) :
    readPeers env (direct req observed).xr.spec observed = .ok (req.xr.spec.peerMembers.map
      (readPeerDirect (readCloud cloud) · req.xr.spec.tsTag env.now req.xr.spec.ttl)) := by
  have hmode : (direct req observed).xr.spec.readMode = "directApi" := rfl
  rw [readPeers, if_pos hmode]
  exact readPeersDirect_fates hpool (nodup_peerMembers hids)

/-- The conversion of `directApi` mode leaves out only the heartbeats of the peers. -/
theorem sameAt_direct (hmode : req.xr.spec.readMode ≠ "directApi")
    (hname : ∀ id, peerHbResourceName id ≠ name) :
    SameAt (converted (direct req req.observed).xr.spec req.observed)
      (converted req.xr.spec req.observed) name := by
  unfold SameAt
  rw [get?_converted_of_not_dropped (not_dropped _ hname), converted, if_neg hmode]

theorem compose_direct (hmode : req.xr.spec.readMode ≠ "directApi")
    (hids : (req.xr.spec.members.map (·.id)).Nodup)
    (hdeps : env.directApiDepsAvailable = true)
    (hreports : ∀ m ∈ req.xr.spec.peerMembers, UpToDate cloud req.observed m)
    (hpool : ReadsObjects cloud env req.xr.spec) :
    compose env (direct req req.observed) = compose env req := by
  have hk : ∀ name ∈ k8gbNames, SameAt (converted (direct req req.observed).xr.spec req.observed)
      (converted req.xr.spec req.observed) name :=
    fun name hm => sameAt_direct hmode (k8gb_ne_peer hm)
  have hgslb := @allGslbs_congr _ _ req.context (hk GslbBuild.gslbResource (by simp [k8gbNames]))
  have hprev := prevTags_frame (sameAt_direct hmode peerHbResourceName_ne_selfHb)
  have hop := (hk K8gbInstall.k8gbOperator (by simp [k8gbNames])).getD (.dict [])
  have hmr : readPeers env req.xr.spec (converted req.xr.spec req.observed) = _ :=
    readPeers_mr hmode (by rwa [converted, if_neg hmode])
  have hdirect : readPeers env (direct req req.observed).xr.spec
      (converted (direct req req.observed).xr.spec req.observed) = _ :=
    readPeers_direct hids hpool
  have hobserved : (direct req req.observed).observed = req.observed := rfl
  have hcontext : (direct req req.observed).context = req.context := rfl
  unfold compose
  simp only [hobserved, hcontext, hgslb, hdirect, hmr, hprev, operatorInstalled_congr hk, hop,
    hdeps, Bool.true_eq_false, and_false, if_false]
  rfl

/-! ## The reads of the pool -/

section

open CloudRead

variable {Client Credential Timeout ι : Type} [DecidableEq Timeout] [DecidableEq ι]

/-- The reads of a run, among those of the process: `read m` is the one of `m`. By `s` each of them
has ended with a client; the futures are collected in any order. -/
structure PoolReads (sdk : Sdk Client Credential Timeout) (cloud : CloudRead.Cloud Client Timeout)
    (reads : PeerReads ι Timeout) (s : Memo.State ι (CacheKey Timeout) Client String)
    (read : Member → ι) (env : Env) (spec : Spec) : Prop where
  reach : (readers sdk (reads.call Credential)).Reach s
  member : ∀ m ∈ spec.peerMembers, reads.member (read m) = m
  client : ∀ m ∈ spec.peerMembers, ∃ c, s.phase (read m) = .done (.ok c)
  pool : (env.pool spec.peerMembers).Perm (spec.peerMembers.map fun m =>
    (m, reads.fate Credential cloud spec.tsTag env.now spec.ttl s (read m)))

variable {sdk : Sdk Client Credential Timeout} {sdkCloud : CloudRead.Cloud Client Timeout}
  {reads : PeerReads ι Timeout} {s : Memo.State ι (CacheKey Timeout) Client String}
  {read : Member → ι} {spec : Spec}

/-- Where the SDKs answer the tags of the objects, and raise where there is no object. -/
theorem PoolReads.readsObjects (h : PoolReads sdk sdkCloud reads s read env spec)
    (hsdk : ∀ m ∈ spec.peerMembers,
      (reads.answer sdk sdkCloud (read m)).toOption = cloud (objectOf m.toIdentity)) :
    ReadsObjects cloud env spec := by
  unfold ReadsObjects
  have hmap : (spec.peerMembers.map fun m =>
        (m, reads.fate Credential sdkCloud spec.tsTag env.now spec.ttl s (read m))) =
      spec.peerMembers.map fun m =>
        (m, .returned (readPeerDirect (readCloud cloud) m spec.tsTag env.now spec.ttl)) := by
    refine List.map_congr_left fun m hm => ?_
    obtain ⟨c, hc⟩ := h.client m hm
    rw [fate_of_client h.reach hc, hsdk m hm, h.member m hm]
    rfl
  rw [← hmap]
  exact h.pool

/-- **Both modes give the same answer**, where the reports are up to date and every read returns. -/
theorem direct_eq_mr (hmode : req.xr.spec.readMode ≠ "directApi")
    (hids : (req.xr.spec.members.map (·.id)).Nodup)
    (hdeps : env.directApiDepsAvailable = true)
    (hreports : ∀ m ∈ req.xr.spec.peerMembers, UpToDate cloud req.observed m)
    (hpool : PoolReads sdk sdkCloud reads s read env req.xr.spec)
    (hsdk : ∀ m ∈ req.xr.spec.peerMembers,
      (reads.answer sdk sdkCloud (read m)).toOption = cloud (objectOf m.toIdentity))
    (hsame : ∀ name, name = selfHb ∨ name ∈ k8gbNames → SameAt observed req.observed name) :
    compose env (direct req observed) = compose env req := by
  rw [← compose_direct hmode hids hdeps hreports (hpool.readsObjects hsdk)]
  apply compose_frame
  rintro name (hself | hk | ⟨hmr, -⟩)
  · exact hsame name (.inl hself)
  · exact hsame name (.inr hk)
  · exact absurd rfl hmr

end

/-! ## A pair -/

/-- The heartbeat of `cp-b`, a standby. -/
def tagsB : List (String × String) :=
  [("last-reconciliation-timestamp-utc", "990"), ("resilient-role", "standby"),
    ("resilient-cp-id", "cp-b")]

def dictB : Dict := Dict.ofPairs (tagsB.map fun t => (t.1, .str t.2))

/-- The SDKs know of this heartbeat only. -/
def sdkCloudB : CloudRead.Cloud CloudRead.Built Nat where
  listTagsForResource _ _ := .ok tagsB
  resourceGroupTags _ _ _ := .error "no resource group"
  bucketLabels _ _ _ := .error "no bucket"

def readsB : CloudRead.PeerReads Unit Nat := ⟨fun _ => memberB, fun _ => 10, fun _ => none⟩

/-- A request of `cp-a`, with a current report on `cp-b`. -/
def requestA : Request :=
  ⟨⟨none, sampleSpec memberA.toIdentity [memberA, memberB], []⟩, .dict [],
    [(peerHbResourceName "cp-b", observedHeartbeat "aws" dictB)]⟩

/-- `cp-a` reads `cp-b` from its report, or through the SDK. -/
theorem direct_eq_mr_pair : ∃ env : Env, env.now = 1000 ∧
    env.pool [memberB] =
      [(memberB, .returned (livenessFromTags memberB (some dictB) tsTagDefault 1000 180))] ∧
    compose env (direct requestA []) = compose env requestA := by
  have hinit : (CloudRead.readers CloudRead.recordingSdk (readsB.call String)).Reach
      ⟨[], none, fun _ => .idle⟩ := .init rfl
  have hwants : (readsB.call String ()).wants CloudRead.recordingSdk =
      some (CloudRead.awsWants CloudRead.recordingSdk memberB.region 10) := rfl
  obtain ⟨t, ht, -, -, hdone, -⟩ := Memo.alone hinit rfl rfl hwants none
  have hfate : readsB.fate String sdkCloudB tsTagDefault 1000 180 t () =
      .returned (livenessFromTags memberB (some dictB) tsTagDefault 1000 180) :=
    CloudRead.fate_of_client ht hdone
  obtain ⟨env, henv⟩ : ∃ env : Env, env = ⟨1000, "", true, fun ms => ms.map fun m =>
    (m, readsB.fate String sdkCloudB tsTagDefault 1000 180 t ())⟩ := ⟨_, rfl⟩
  have hpeers : requestA.xr.spec.peerMembers = [memberB] := by decide
  have hpool : PoolReads CloudRead.recordingSdk sdkCloudB readsB t (fun _ => ()) env
      requestA.xr.spec := by
    refine ⟨ht, fun m hm => ?_, fun _ _ => ⟨_, hdone⟩, by rw [henv]; exact .refl _⟩
    rw [hpeers] at hm
    exact (List.mem_singleton.mp hm).symm
  have hreports : ∀ m ∈ requestA.xr.spec.peerMembers,
      UpToDate (fun _ => some dictB) requestA.observed m := by
    rw [hpeers]
    intro m hm
    cases List.mem_singleton.mp hm
    exact ⟨_, rfl, _, _, _, rfl, rfl, rfl, rfl⟩
  refine ⟨env, by rw [henv], by rw [henv, ← hfate]; rfl, ?_⟩
  refine direct_eq_mr (by decide) (by decide) (by rw [henv]) hreports hpool (fun _ _ => rfl) ?_
  -- nothing but the peer is observed
  have hother : ∀ name, peerHbResourceName "cp-b" ≠ name → SameAt [] requestA.observed name := by
    intro name hne
    rw [SameAt, requestA, Dict.get?_cons, if_neg hne.symm]
  rintro name (rfl | hk)
  · exact hother _ (peerHbResourceName_ne_selfHb _)
  · exact hother name (k8gb_ne_peer hk _)

end Direct

end ResilientCtp
