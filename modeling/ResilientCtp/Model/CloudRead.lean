import ResilientCtp.Model.Heartbeat

/-!
# Direct reads of the cloud (`cloud_read.py`)

`readResourceTags` reads the tags of one heartbeat from the cloud's API. The SDK client of a read
is the one that the caller injects, else the one that the process keeps under the provider's cache
key (`cachedClient`), which the provider's factory builds on a miss.

The SDKs are outside the repository: their constructors (`Sdk`) are functions of their arguments,
what the cloud answers to a client (`Cloud`) is a parameter, and a factory may raise at any call
(`raised`, with the text of the exception).
-/

namespace ResilientCtp

open Py

namespace CloudRead

structure CloudReadError where
  msg : String

/-- The constructors, with the arguments that vary. -/
structure Sdk (Client Credential Timeout : Type) where
  ssmClient : (region : String) → (timeout : Timeout) → Client
  defaultAzureCredential : Credential
  resourceManagementClient : (credential : Credential) → (subscriptionId : String) → Client
  storageClient : (project : Option String) → Client

/-- The cloud's answer to a client, or the text of the exception. -/
structure Cloud (Client Timeout : Type) where
  listTagsForResource : Client → (resourceId : String) → Except String (List (String × String))
  resourceGroupTags : Client → (name : String) → Timeout → Except String (Option Dict)
  bucketLabels : Client → (name : String) → Timeout → Except String (Option Dict)

inductive CacheKey (Timeout : Type) where
  | awsSsm (region : String) (timeout : Timeout)
  | azureRm (subscriptionId : String)
  | gcpStorage (project : String)
  deriving DecidableEq

/-- The arguments of a read, and `AZURE_SUBSCRIPTION_ID` at its time. -/
structure Call (Credential Timeout : Type) where
  provider : String
  resourceName : String
  region : String
  project : String
  subscriptionId : String
  credential : Option Credential
  timeout : Timeout
  azureSubscriptionId : Option String

variable {Client Credential Timeout : Type}

/-- `_CLIENT_CACHE`. -/
abbrev Cache (Client Timeout : Type) := List (CacheKey Timeout × Client)

/-- A factory that builds `client`, if it does not raise. -/
def factory (raised : Option String) (client : Client) : Except String Client :=
  raised.elim (.ok client) .error

/-- `_cached_client`, with no other thread in between; `Lib/Memo.lean` has the lock. -/
def cachedClient [DecidableEq Timeout] (cacheKey : CacheKey Timeout)
    (factory : Except String Client) (cache : Cache Client Timeout) :
    Except String Client × Cache Client Timeout :=
  match cache.lookup cacheKey with
  | some client => (.ok client, cache)
  | none =>
    match factory with
    | .error e => (.error e, cache)
    | .ok client => (.ok client, (cacheKey, client) :: cache)

/-- `client`, or where none is injected the one of the cache. -/
def injectedOr (client : Option Client)
    (cached : Cache Client Timeout → Except String Client × Cache Client Timeout)
    (cache : Cache Client Timeout) : Except String Client × Cache Client Timeout :=
  client.elim (cached cache) fun c => (.ok c, cache)

/-! ## The readers -/

section

variable (sdk : Sdk Client Credential Timeout) (cloud : Cloud Client Timeout)

/-- Whatever raises in a reader surfaces as a `CloudReadError`. -/
def surface {α : Type} (what : String) (r : Except String α) : Except CloudReadError α :=
  r.mapError fun e => ⟨what ++ " failed: " ++ e⟩

def awsTags (resourceName : String) (client : Except String Client) :
    Except CloudReadError Dict :=
  surface ("aws ssm read of '" ++ resourceName ++ "'") do
    let tagList ← cloud.listTagsForResource (← client) resourceName
    return Dict.ofPairs (tagList.map fun t => (t.1, .str t.2))

def azureTags (resourceName : String) (timeout : Timeout) (client : Except String Client) :
    Except CloudReadError Dict :=
  surface ("azure resource-group read of '" ++ resourceName ++ "'") do
    return (← cloud.resourceGroupTags (← client) resourceName timeout).getD []

def gcpLabels (resourceName : String) (timeout : Timeout) (client : Except String Client) :
    Except CloudReadError Dict :=
  surface ("gcp bucket read of '" ++ resourceName ++ "'") do
    return (← cloud.bucketLabels (← client) resourceName timeout).getD []

def awsWants (region : String) (timeout : Timeout) : CacheKey Timeout × Client :=
  (.awsSsm region timeout, sdk.ssmClient region timeout)

/-- `subscription_id or os.environ.get("AZURE_SUBSCRIPTION_ID", "")`. -/
def resolveSubscription (subscriptionId : String) (azureSubscriptionId : Option String) : String :=
  if subscriptionId = "" then azureSubscriptionId.getD "" else subscriptionId

/-- The key has the subscription alone, and the factory reads the credential too. -/
def azureWants (subscriptionId : String) (credential : Option Credential) :
    CacheKey Timeout × Client :=
  (.azureRm subscriptionId, sdk.resourceManagementClient
    (credential.getD sdk.defaultAzureCredential) subscriptionId)

def gcpWants (project : String) : CacheKey Timeout × Client :=
  (.gcpStorage project, sdk.storageClient (if project = "" then none else some project))

variable [DecidableEq Timeout] (raised : Option String)

def awsReadTags (resourceName region : String) (client : Option Client) (timeout : Timeout)
    (cache : Cache Client Timeout) : Except CloudReadError Dict × Cache Client Timeout :=
  let want := awsWants sdk region timeout
  let (got, cache) := injectedOr client (cachedClient want.1 (factory raised want.2)) cache
  (awsTags cloud resourceName got, cache)

def azureReadTags (resourceName subscriptionId : String) (azureSubscriptionId : Option String)
    (credential : Option Credential) (client : Option Client) (timeout : Timeout)
    (cache : Cache Client Timeout) : Except CloudReadError Dict × Cache Client Timeout :=
  let subscriptionId := resolveSubscription subscriptionId azureSubscriptionId
  let want := azureWants sdk subscriptionId credential
  let (got, cache) := injectedOr client (cachedClient want.1 (factory raised want.2)) cache
  (azureTags cloud resourceName timeout got, cache)

def gcpReadLabels (resourceName project : String) (client : Option Client) (timeout : Timeout)
    (cache : Cache Client Timeout) : Except CloudReadError Dict × Cache Client Timeout :=
  let want := gcpWants sdk project
  let (got, cache) := injectedOr client (cachedClient want.1 (factory raised want.2)) cache
  (gcpLabels cloud resourceName timeout got, cache)

def unsupported (provider : String) : CloudReadError :=
  ⟨"direct tag read not supported for provider '" ++ provider ++ "'"⟩

/-- `read_resource_tags`. -/
def readResourceTags (call : Call Credential Timeout) (client : Option Client)
    (cache : Cache Client Timeout) : Except CloudReadError Dict × Cache Client Timeout :=
  if call.provider = "aws" then
    awsReadTags sdk cloud raised call.resourceName call.region client call.timeout cache
  else if call.provider = "azure" then
    azureReadTags sdk cloud raised call.resourceName call.subscriptionId call.azureSubscriptionId
      call.credential client call.timeout cache
  else if call.provider = "gcp" then
    gcpReadLabels sdk cloud raised call.resourceName call.project client call.timeout cache
  else (.error (unsupported call.provider), cache)

/-- What `read_peer_direct` passes for a member: the API has no project or subscription of a
member, and `_compose` passes no credential. -/
def peerCall (member : Member) (timeout : Timeout) (azureSubscriptionId : Option String) :
    Call Credential Timeout :=
  { provider := member.provider
    resourceName := heartbeatExternalName member.id
    region := member.region
    project := ""
    subscriptionId := ""
    credential := none
    timeout
    azureSubscriptionId }

end

/-! ## What a call asks of the cache, and what it does with the client -/

namespace Call

variable (call : Call Credential Timeout)

def subscription : String := resolveSubscription call.subscriptionId call.azureSubscriptionId

/-- The cache key of a call without an injected client, and what its factory builds. -/
def wants (sdk : Sdk Client Credential Timeout) : Option (CacheKey Timeout × Client) :=
  if call.provider = "aws" then some (awsWants sdk call.region call.timeout)
  else if call.provider = "azure" then some (azureWants sdk call.subscription call.credential)
  else if call.provider = "gcp" then some (gcpWants sdk call.project)
  else none

/-- The rest of a call that has got a client, or whose factory raised. -/
def finish (cloud : Cloud Client Timeout) (client : Except String Client) :
    Except CloudReadError Dict :=
  if call.provider = "aws" then awsTags cloud call.resourceName client
  else if call.provider = "azure" then azureTags cloud call.resourceName call.timeout client
  else if call.provider = "gcp" then gcpLabels cloud call.resourceName call.timeout client
  else .error (unsupported call.provider)

/-- A factory that raises surfaces as a `CloudReadError`. -/
theorem finish_error (cloud : Cloud Client Timeout) (e : String) :
    ∃ err, call.finish cloud (.error e) = .error err := by
  unfold finish
  split
  · exact ⟨_, rfl⟩
  split
  · exact ⟨_, rfl⟩
  split
  · exact ⟨_, rfl⟩
  · exact ⟨_, rfl⟩

end Call

/-- A read without an injected client is its step on the cache and the rest. -/
theorem readResourceTags_eq [DecidableEq Timeout] {sdk : Sdk Client Credential Timeout}
    {call : Call Credential Timeout} {want : CacheKey Timeout × Client}
    (h : call.wants sdk = some want) (cloud : Cloud Client Timeout) (raised : Option String)
    (cache : Cache Client Timeout) :
    readResourceTags sdk cloud raised call none cache =
      (call.finish cloud (cachedClient want.1 (factory raised want.2) cache).1,
        (cachedClient want.1 (factory raised want.2) cache).2) := by
  unfold readResourceTags Call.finish
  unfold Call.wants at h
  split at h
  · next hp =>
    cases h
    rw [if_pos hp, if_pos hp]
    rfl
  · next hp =>
    rw [if_neg hp, if_neg hp]
    split at h
    · next hp =>
      cases h
      rw [if_pos hp, if_pos hp]
      rfl
    · next hp =>
      rw [if_neg hp, if_neg hp]
      split at h
      · next hp =>
        cases h
        rw [if_pos hp, if_pos hp]
        rfl
      · cases h

end CloudRead

end ResilientCtp
