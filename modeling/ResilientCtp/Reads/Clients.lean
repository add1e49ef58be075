import ResilientCtp.Lib.Memo
import ResilientCtp.Model.CloudRead

/-!
# The client that a cloud read uses

The threads of the peer reads, and the reconciles one after another, share the SDK clients of the
process. `readers` are any number of reads without an injected client, in any interleaving of
their accesses to the cache and its lock (`Lib/Memo.lean`); a read of an unsupported provider takes
no step. The cache is transparent if every read uses the client of its own arguments.

* `readResourceTags_alone`: a read that no other one interleaves with is `readResourceTags`.
* `transparent_iff`: the cache is transparent exactly if the azure reads of one subscription have
  one credential, as the credential is not in the key.
* `peers_transparent`: it is for the reads of `_compose`, which pass none.
* `ambient_identity`: a read with a credential of its own gets the client of the ambient identity.
-/

namespace ResilientCtp

open Py

namespace CloudRead

variable {Client Credential Timeout ι : Type} {sdk : Sdk Client Credential Timeout}
  {calls : ι → Call Credential Timeout}

/-! ## The keys -/

/-- The azure reads of one subscription have one credential. -/
def SameCredential (sdk : Sdk Client Credential Timeout)
    (calls : ι → Call Credential Timeout) : Prop :=
  ∀ i j, (calls i).provider = "azure" → (calls j).provider = "azure" →
    (calls i).subscription = (calls j).subscription →
      (calls i).credential.getD sdk.defaultAzureCredential =
        (calls j).credential.getD sdk.defaultAzureCredential

/-- A client authenticates with the credential that it is built with. -/
def Sdk.KeepsCredential (sdk : Sdk Client Credential Timeout) : Prop :=
  ∀ subscriptionId credential credential',
    sdk.resourceManagementClient credential subscriptionId =
      sdk.resourceManagementClient credential' subscriptionId → credential = credential'

theorem wants_cases {call : Call Credential Timeout} {want : CacheKey Timeout × Client}
    (h : call.wants sdk = some want) :
    want = awsWants sdk call.region call.timeout ∨
      (call.provider = "azure" ∧ want = azureWants sdk call.subscription call.credential) ∨
      want = gcpWants sdk call.project := by
  unfold Call.wants at h
  split at h
  · exact .inl (Option.some.inj h).symm
  split at h
  · next hp => exact .inr (.inl ⟨hp, (Option.some.inj h).symm⟩)
  split at h
  · exact .inr (.inr (Option.some.inj h).symm)
  · cases h

/-- Of what a factory reads, the keys leave out the credential of azure alone. -/
theorem coherent_of_sameCredential (h : SameCredential sdk calls) :
    Memo.Coherent fun i => (calls i).wants sdk := by
  intro i j k b c hi hj
  rcases wants_cases hi with hi | ⟨hpi, hi⟩ | hi <;>
    rcases wants_cases hj with hj | ⟨hpj, hj⟩ | hj <;>
      simp only [awsWants, azureWants, gcpWants, Prod.mk.injEq] at hi hj <;>
        obtain ⟨rfl, rfl⟩ := hi
  case inl.inl =>
    obtain ⟨hregion, htimeout⟩ := CacheKey.awsSsm.inj hj.1
    rw [hj.2, hregion, htimeout]
  case inr.inl.inr.inl =>
    have hsub := CacheKey.azureRm.inj hj.1
    rw [hj.2, h i j hpi hpj hsub, hsub]
  case inr.inr.inr.inr =>
    rw [hj.2, CacheKey.gcpStorage.inj hj.1]
  all_goals cases hj.1

theorem sameCredential_of_coherent (hsdk : sdk.KeepsCredential)
    (h : Memo.Coherent fun i => (calls i).wants sdk) : SameCredential sdk calls := by
  intro i j hpi hpj hsub
  have hwants : ∀ i, (calls i).provider = "azure" → (calls i).wants sdk =
      some (azureWants sdk (calls i).subscription (calls i).credential) := by
    intro i hp
    simp [Call.wants, hp]
  have hj := hwants j hpj
  rw [← hsub] at hj
  exact hsdk _ _ _ (h i j _ _ _ (hwants i hpi) hj)

/-! ## The reads -/

variable [DecidableEq Timeout] [DecidableEq ι]

/-- Reads that share the cache, from an empty one. -/
def readers (sdk : Sdk Client Credential Timeout) (calls : ι → Call Credential Timeout) :
    Lts.System (Memo.State ι (CacheKey Timeout) Client String) (ι × Memo.Act String) :=
  Memo.system fun i => (calls i).wants sdk

/-- What a read that has ended returns or raises. -/
def outcome (cloud : Cloud Client Timeout) (call : Call Credential Timeout) :
    Memo.Phase Client String → Option (Except CloudReadError Dict)
  | .done client => some (call.finish cloud client)
  | _ => none

/-- The client that the arguments of the call build on an empty cache. -/
def BuildsAlone (sdk : Sdk Client Credential Timeout) (call : Call Credential Timeout)
    (c : Client) : Prop :=
  ∃ want, call.wants sdk = some want ∧
    (cachedClient want.1 (factory none want.2) []).1 = .ok c

/-- The cache does not show. -/
structure Transparent (sdk : Sdk Client Credential Timeout)
    (calls : ι → Call Credential Timeout) : Prop where
  own : ∀ s, (readers sdk calls).Reach s → ∀ i c, s.phase i = .done (.ok c) →
    BuildsAlone sdk (calls i) c
  once : ∀ s, (readers sdk calls).Reach s → (s.cache.map Prod.fst).Nodup
  kept : ∀ s a s', (readers sdk calls).Reach s → (readers sdk calls).step s a s' →
    ∀ k c, s.cache.lookup k = some c → s'.cache.lookup k = some c
  raised : ∀ s i e s', (readers sdk calls).Reach s →
    (readers sdk calls).step s (i, .build (some e)) s' →
      s'.cache = s.cache ∧ s'.phase i = .leaving (.error e) ∧
        ∀ t, ((readers sdk calls).startingAt s').Reach t → ∀ cloud r,
          outcome cloud (calls i) (t.phase i) = some r → ∃ err, r = .error err

/-! ## One read alone -/

theorem cachedClient_eq (want : CacheKey Timeout × Client) (raised : Option String)
    (cache : Cache Client Timeout) :
    cachedClient want.1 (factory raised want.2) cache = Memo.getOrBuild want raised cache := by
  unfold cachedClient Memo.getOrBuild
  cases cache.lookup want.1 with
  | some c => rfl
  | none => cases raised <;> rfl

theorem buildsAlone_iff {call : Call Credential Timeout} {c : Client} :
    BuildsAlone sdk call c ↔ ∃ k, call.wants sdk = some (k, c) := by
  constructor
  · rintro ⟨⟨k, b⟩, hw, he⟩
    cases he
    exact ⟨k, hw⟩
  · rintro ⟨k, hw⟩
    exact ⟨_, hw, rfl⟩

/-- **In sequence.** A read that runs while no other one takes a step is `readResourceTags`. -/
theorem readResourceTags_alone {s : Memo.State ι (CacheKey Timeout) Client String} {i : ι}
    {want : CacheKey Timeout × Client} (hs : (readers sdk calls).Reach s)
    (hi : s.phase i = .idle) (hl : s.lock = none) (hw : (calls i).wants sdk = some want)
    (cloud : Cloud Client Timeout) (raised : Option String) :
    ∃ t, (readers sdk calls).Reach t ∧
      outcome cloud (calls i) (t.phase i) =
        some (readResourceTags sdk cloud raised (calls i) none s.cache).1 ∧
      t.cache = (readResourceTags sdk cloud raised (calls i) none s.cache).2 := by
  obtain ⟨t, ht, hcache, -, hdone, -⟩ := Memo.alone hs hi hl hw raised
  refine ⟨t, ht, ?_, ?_⟩
  · rw [hdone, readResourceTags_eq hw, cachedClient_eq]
    rfl
  · rw [hcache, readResourceTags_eq hw, cachedClient_eq]

/-! ## Transparency -/

theorem own_iff_coherent : (∀ s, (readers sdk calls).Reach s → ∀ i c,
    s.phase i = .done (.ok c) → BuildsAlone sdk (calls i) c) ↔
      Memo.Coherent fun i => (calls i).wants sdk := by
  rw [← @Memo.own_iff ι (CacheKey Timeout) Client String]
  simp only [buildsAlone_iff]
  rfl

/-- A factory that raises leaves the cache as it is, and its read ends in a `CloudReadError`. -/
theorem raises {s s' : Memo.State ι (CacheKey Timeout) Client String} {i : ι} {e : String}
    (hst : (readers sdk calls).step s (i, .build (some e)) s') :
    s'.cache = s.cache ∧ s'.phase i = .leaving (.error e) ∧
      ∀ t, ((readers sdk calls).startingAt s').Reach t → ∀ cloud r,
        outcome cloud (calls i) (t.phase i) = some r → ∃ err, r = .error err := by
  cases hst with
  | raise _ hp =>
    refine ⟨rfl, Memo.State.move_phase .., fun t ht cloud r hr => ?_⟩
    have hfinal := Memo.result_final (r := .error e) (by rw [Memo.State.move_phase]; rfl) ht
    cases hphase : t.phase i with
    | done client =>
      rw [hphase] at hfinal hr
      cases hfinal
      cases hr
      exact (calls i).finish_error cloud e
    | _ =>
      rw [hphase] at hr
      cases hr

theorem transparent_of_coherent (h : Memo.Coherent fun i => (calls i).wants sdk) :
    Transparent sdk calls where
  own := own_iff_coherent.mpr h
  once _ hs := Memo.once hs
  kept _ _ _ hs hst _ _ hk := Memo.Step.kept hs hst hk
  raised _ _ _ _ _ hst := raises hst

/-- **The cache is transparent** exactly if the azure reads of one subscription have one
credential. -/
theorem transparent_iff (hsdk : sdk.KeepsCredential) :
    Transparent sdk calls ↔ SameCredential sdk calls :=
  ⟨fun h => sameCredential_of_coherent hsdk (own_iff_coherent.mp h.own),
    fun h => transparent_of_coherent (coherent_of_sameCredential h)⟩

/-- The reads of `_compose` use no credential of their own. -/
theorem peers_transparent (members : ι → Member) (timeout : ι → Timeout)
    (azureSubscriptionId : ι → Option String) : Transparent sdk fun i =>
      (peerCall (members i) (timeout i) (azureSubscriptionId i) : Call Credential Timeout) :=
  transparent_of_coherent (coherent_of_sameCredential fun _ _ _ _ _ => rfl)

/-! ## Two identities of one subscription -/

/-- A client as the record of what it is built from. -/
inductive Built where
  | ssm (region : String) (timeout : Nat)
  | resourceManagement (credential subscriptionId : String)
  | storage (project : Option String)

def recordingSdk : Sdk Built String Nat where
  ssmClient := .ssm
  defaultAzureCredential := "ambient"
  resourceManagementClient := .resourceManagement
  storageClient := .storage

theorem recordingSdk_keepsCredential : recordingSdk.KeepsCredential := by
  intro _ _ _ h
  cases h
  rfl

/-- A read of an azure peer in the subscription `sub-1`. -/
def azureCall (credential : Option String) : Call String Nat :=
  { provider := "azure"
    resourceName := "recon-heartbeat-cp-z"
    region := ""
    project := ""
    subscriptionId := "sub-1"
    credential
    timeout := 10
    azureSubscriptionId := none }

/-- The first read has the ambient identity, the second one a credential of its own. -/
def identities (own : Bool) : Call String Nat := azureCall (if own then some "peer" else none)

theorem transparent_iff_identities :
    Transparent recordingSdk identities ↔ SameCredential recordingSdk identities :=
  transparent_iff recordingSdk_keepsCredential

/-- The read with a credential of its own can get the client of the ambient identity. -/
theorem ambient_identity : ¬ Transparent recordingSdk identities := by
  intro h
  have hcoherent := own_iff_coherent.mp h.own
  have he : Built.resourceManagement "ambient" "sub-1" = .resourceManagement "peer" "sub-1" :=
    hcoherent false true (.azureRm "sub-1") _ _ rfl rfl
  exact absurd (Built.resourceManagement.inj he).1 (by decide)

end CloudRead

end ResilientCtp
