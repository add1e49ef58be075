import ResilientCtp.Py.Value

/-!
# Shared names (`prelude.py`) and the API (`apis/resilientcontrolplane/definition.yaml`)

First the keys of a heartbeat, the names of its resources, and `as_int`, which reads a tag's text
as an integer and never raises. Then the part of `spec` that the function reads. A field that the
schema does not require is an `Option`; the code's own default (the schema's too) stands in its
reader. `Spec.Admitted` is what the API server checks: the required fields are fields of the types
here, so what is left are the bounds, the enumerations and the rule on `members`.

Left out: `policyControl` and `failback.automatic`, which the function does not read.
-/

namespace ResilientCtp

open Py

/-! ## The names -/

def tsTagDefault : String := "last-reconciliation-timestamp-utc"
def roleTag : String := "resilient-role"
def cpidTag : String := "resilient-cp-id"

/-- Composition-resource-name of a control plane's own heartbeat. -/
def selfHb : String := "heartbeat-self"

def heartbeatExternalName (cpId : String) : String := "recon-heartbeat-" ++ cpId

/-- Composition-resource-name of a peer's observed heartbeat. -/
def peerHbResourceName (cpId : String) : String := "heartbeat-peer-" ++ cpId

/-- `as_int`: `int(str(value).strip())`, or `dflt` where that raises. The text of anything but a
string is no integer, also that of a number: the numbers of a JSON document are floats
(`"181.0"`). -/
def asInt (value : Value) (dflt : Int) : Int :=
  match value with
  | .str s => (parseInt s).getD dflt
  | _ => dflt

@[simp] theorem asInt_strInt (n dflt : Int) : asInt (.str (strInt n)) dflt = n := by
  simp [asInt, parseInt_strInt]

@[simp] theorem asInt_num (n dflt : Int) : asInt (.num n) dflt = dflt := rfl

@[simp] theorem asInt_null (dflt : Int) : asInt .null dflt = dflt := rfl

/-- The role of a control plane. -/
inductive Role where
  | leader
  | standby
  deriving DecidableEq

/-- The role as it stands in a tag and in the status. -/
def Role.text : Role → String
  | .leader => "leader"
  | .standby => "standby"

@[simp] theorem Role.text_eq_leader {r : Role} : r.text = "leader" ↔ r = .leader := by
  cases r <;> decide

theorem Role.eq_standby {r : Role} : r = .standby ↔ r ≠ .leader := by cases r <;> decide

/-! ## The API -/

/-- `spec.identity`. -/
structure Identity where
  id : String
  provider : String
  region : String
  geoTag : String
  priority : Int
  deriving DecidableEq

/-- An entry of `spec.members`. -/
structure Member extends Identity where
  providerConfigName : Option String
  deriving DecidableEq

/-- `spec.gslb`. -/
structure GslbCfg where
  hostname : String
  strategy : String
  manage : Option Bool
  ingressClassName : Option String
  backendServiceName : Option String
  demoApp : Option Bool

/-- An entry of `spec.k8gb.dnsZones`. -/
structure DnsZone where
  parentZone : String
  loadBalancedZone : String
  negTTL : Option Int

/-- `spec.k8gb`. -/
structure K8gbCfg where
  install : Option String
  version : Option String
  dnsProvider : Option String
  extdnsCredentialsSecretName : Option String
  dnsZones : Option (List DnsZone)
  edgeDNSServers : Option (List String)
  logLevel : Option String
  helmProviderConfigName : Option String

/-- `spec.heartbeat`. -/
structure HeartbeatCfg where
  read : Option String
  livenessKey : Option String
  freshnessTTLSeconds : Option Int
  writeThrottleSeconds : Option Int
  readTimeoutSeconds : Option Int

/-- `spec`, with `failback.hysteresisPeriods` at its top. -/
structure Spec where
  identity : Identity
  members : List Member
  gslb : GslbCfg
  k8gb : K8gbCfg
  heartbeat : HeartbeatCfg
  hysteresisPeriods : Option Int
  providerConfigName : Option String

namespace Spec

variable (spec : Spec)

def tsTag : String := spec.heartbeat.livenessKey.getD tsTagDefault
def ttl : Int := spec.heartbeat.freshnessTTLSeconds.getD 180
def throttle : Int := spec.heartbeat.writeThrottleSeconds.getD 60
def hysteresis : Int := spec.hysteresisPeriods.getD 3
def readMode : String := spec.heartbeat.read.getD "mr"

/-- Every member but the control plane itself. -/
def peerMembers : List Member := spec.members.filter fun m => m.id != spec.identity.id

end Spec

/-! ## Admission -/

/-- The rule on `members`: each has a priority that exactly one member has. -/
def DistinctPriorities (members : List Member) : Prop :=
  ∀ m ∈ members, (members.filter fun x => x.priority == m.priority).length = 1

instance (members : List Member) : Decidable (DistinctPriorities members) :=
  inferInstanceAs (Decidable (∀ m ∈ members, _))

def providers : List String := ["aws", "azure", "gcp", "alibaba"]

/-- The schema of an identity or a member. -/
structure Identity.Admitted (i : Identity) : Prop where
  provider : i.provider ∈ providers
  priority : 1 ≤ i.priority

/-- What the schema asks of a spec. -/
structure Spec.Admitted (spec : Spec) : Prop where
  identity : spec.identity.Admitted
  members : ∀ m ∈ spec.members, m.toIdentity.Admitted
  minItems : 1 ≤ spec.members.length
  maxItems : spec.members.length ≤ 20
  priorities : DistinctPriorities spec.members
  strategy : spec.gslb.strategy ∈ ["failover", "roundRobin", "geoip"]
  install : ∀ s ∈ spec.k8gb.install, s ∈ ["never", "auto", "always"]
  read : ∀ s ∈ spec.heartbeat.read, s ∈ ["mr", "directApi"]
  ttl : ∀ n ∈ spec.heartbeat.freshnessTTLSeconds, 30 ≤ n
  throttle : ∀ n ∈ spec.heartbeat.writeThrottleSeconds, 10 ≤ n
  readTimeout : ∀ n ∈ spec.heartbeat.readTimeoutSeconds, 1 ≤ n
  hysteresis : ∀ n ∈ spec.hysteresisPeriods, 1 ≤ n

theorem Spec.Admitted.ttl_le {spec : Spec} (h : spec.Admitted) : 30 ≤ spec.ttl := by
  unfold Spec.ttl
  cases e : spec.heartbeat.freshnessTTLSeconds with
  | none => decide
  | some n => exact h.ttl n (by rw [e]; rfl)

theorem Spec.Admitted.throttle_le {spec : Spec} (h : spec.Admitted) : 10 ≤ spec.throttle := by
  unfold Spec.throttle
  cases e : spec.heartbeat.writeThrottleSeconds with
  | none => decide
  | some n => exact h.throttle n (by rw [e]; rfl)

theorem Spec.Admitted.hysteresis_le {spec : Spec} (h : spec.Admitted) : 1 ≤ spec.hysteresis := by
  unfold Spec.hysteresis
  cases e : spec.hysteresisPeriods with
  | none => decide
  | some n => exact h.hysteresis n (by rw [e]; rfl)

/-- A priority names one member. -/
theorem DistinctPriorities.eq_of_priority {members : List Member}
    (h : DistinctPriorities members) {m x : Member} (hm : m ∈ members) (hx : x ∈ members)
    (e : x.priority = m.priority) : x = m := by
  obtain ⟨y, hy⟩ := List.length_eq_one_iff.mp (h m hm)
  have h1 : m ∈ members.filter fun x => x.priority == m.priority := by simp [hm]
  have h2 : x ∈ members.filter fun x => x.priority == m.priority := by simp [hx, e]
  rw [hy, List.mem_singleton] at h1 h2
  rw [h1, h2]

/-! ## Samples -/

/-- The members of the repository's composition tests. -/
def memberA : Member := ⟨⟨"cp-a", "aws", "us-east-1", "us", 1⟩, none⟩
def memberB : Member := ⟨⟨"cp-b", "aws", "us-west-2", "us", 2⟩, none⟩

/-- A spec with the defaults everywhere. -/
def sampleSpec (identity : Identity) (members : List Member) : Spec :=
  { identity
    members
    gslb := ⟨"app.cloud.example.com", "failover", none, none, none, none⟩
    k8gb := ⟨none, none, none, none, none, none, none, none⟩
    heartbeat := ⟨none, none, none, none, none⟩
    hysteresisPeriods := none
    providerConfigName := none }

theorem sampleSpec_admitted {identity : Identity} {members : List Member}
    (hi : identity.Admitted) (hm : ∀ m ∈ members, m.toIdentity.Admitted)
    (h1 : 1 ≤ members.length) (h20 : members.length ≤ 20) (hp : DistinctPriorities members) :
    (sampleSpec identity members).Admitted :=
  { identity := hi
    members := hm
    minItems := h1
    maxItems := h20
    priorities := hp
    strategy := by simp [sampleSpec]
    install := by simp [sampleSpec]
    read := by simp [sampleSpec]
    ttl := by simp [sampleSpec]
    throttle := by simp [sampleSpec]
    readTimeout := by simp [sampleSpec]
    hysteresis := by simp [sampleSpec] }

end ResilientCtp
