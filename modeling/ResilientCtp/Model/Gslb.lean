import ResilientCtp.Model.Spec
import Mathlib.Data.List.Infix

/-!
# The k8gb GSLB signal (`gslb.py`)

`evaluate` reads the `Gslb` of the hostname and says if k8gb finds this control plane healthy and
active. With no `Gslb` at all both default to true (`found` is false).
-/

namespace ResilientCtp

open Py

structure GslbSignal where
  found : Bool
  healthy : Bool
  active : Bool
  geoTag : Value

namespace Gslb

/-- `key in v`. -/
def contains (v : Value) (key : String) : Except Err Bool :=
  match v with
  | .dict kvs => .ok (Dict.get? kvs key).isSome
  | .list xs => .ok (xs.any (·.isStr key))
  | .str s => .ok (decide (key.toList <:+: s.toList))
  | _ => .error .typeError

/-- `v == w` of two hashable values; `True == 1`. -/
def hashEq : Value → Value → Bool
  | .null, .null => true
  | .str s, .str t => s == t
  | .num n, .num m => n == m
  | .bool a, .bool b => a == b
  | .bool a, .num n => (if a then 1 else 0) == n
  | .num n, .bool a => n == (if a then 1 else 0)
  | _, _ => false

def hashable : Value → Bool
  | .list _ | .dict _ => false
  | _ => true

/-- The elements of `set(v)`. -/
def setOf (v : Value) : Except Err (List Value) :=
  match v with
  | .list xs => if xs.all hashable then .ok xs else .error .typeError
  | .dict kvs => .ok (kvs.map fun kv => .str kv.1)
  | .str s => .ok (s.toList.map fun c => .str c.toString)
  | _ => .error .typeError

/-- The first `Gslb` whose `healthyRecords` has the hostname. -/
def withRecord (hostname : String) : List Value → Except Err (Option Value)
  | [] => .ok none
  | g :: gs => do
    let status := (← g.get "status" (.dict [])).or (.dict [])
    let healthyRecords := (← status.get "healthyRecords" (.dict [])).or (.dict [])
    if ← contains healthyRecords hostname then return some g else withRecord hostname gs

/-- `_select_gslb`: the one with the hostname's record, else the first. -/
def selectGslb (gslbs : List Value) (hostname : String) : Except Err (Option Value) :=
  match gslbs with
  | [] => .ok none
  | g :: gs => do return some ((← withRecord hostname (g :: gs)).getD g)

def notFound : GslbSignal := { found := false, healthy := true, active := true, geoTag := .str "" }

/-- Every reported domain is healthy. An empty `serviceHealth` is not yet known, so not healthy. -/
def allHealthy (serviceHealth : Value) : Except Err Bool :=
  if serviceHealth.truthy then do
    return (← serviceHealth.asDict).all fun kv => kv.2.isStr "Healthy"
  else return false

/-- `evaluate`: the signal of this control plane. The strategy is an argument that the source
does not read either. -/
def evaluate (gslbs : List Value) (hostname : String) (_strategy : String) :
    Except Err GslbSignal := do
  let some g ← selectGslb gslbs hostname | return notFound
  let status := (← g.get "status" (.dict [])).or (.dict [])
  let serviceHealth := (← status.get "serviceHealth" (.dict [])).or (.dict [])
  let geoTag := (← status.get "geoTag" (.str "")).or (.str "")
  let healthy ← allHealthy serviceHealth
  let records := (← status.get "healthyRecords" .null).or (.dict [])
  let healthyRecords ← setOf ((← records.get hostname (.list [])).or (.list []))
  let loadBalancer := (← status.get "loadBalancer" (.dict [])).or (.dict [])
  let exposedIps ← setOf ((← loadBalancer.get "exposedIps" (.list [])).or (.list []))
  let active := !healthyRecords.isEmpty && !exposedIps.isEmpty &&
    healthyRecords.any fun a => exposedIps.any (hashEq a)
  return { found := true, healthy, active, geoTag }

theorem selectGslb_cons (g : Value) (gs : List Value) (hostname : String) {o : Option Value}
    (h : selectGslb (g :: gs) hostname = .ok o) : ∃ x, o = some x := by
  simp only [selectGslb] at h
  cases hr : withRecord hostname (g :: gs) with
  | error e => rw [hr] at h; cases h
  | ok r => rw [hr] at h; cases h; exact ⟨_, rfl⟩

/-- Any Gslb at all makes the signal found. -/
theorem evaluate_found {gslbs : List Value} {hostname strategy : String} {signal : GslbSignal}
    (hne : gslbs ≠ []) (h : evaluate gslbs hostname strategy = .ok signal) :
    signal.found = true := by
  unfold evaluate at h
  obtain ⟨o, ho, h⟩ := bind_ok h
  obtain ⟨g, rfl⟩ : ∃ g, o = some g := by
    cases gslbs with
    | nil => exact absurd rfl hne
    | cons g gs => exact selectGslb_cons g gs hostname ho
  obtain ⟨status, -, h⟩ := bind_ok h
  obtain ⟨serviceHealth, -, h⟩ := bind_ok h
  obtain ⟨geoTag, -, h⟩ := bind_ok h
  obtain ⟨healthy, -, h⟩ := bind_ok h
  obtain ⟨records, -, h⟩ := bind_ok h
  obtain ⟨healthyRecords, -, h⟩ := bind_ok h
  obtain ⟨healthySet, -, h⟩ := bind_ok h
  obtain ⟨loadBalancer, -, h⟩ := bind_ok h
  obtain ⟨exposedIps, -, h⟩ := bind_ok h
  obtain ⟨exposedSet, -, h⟩ := bind_ok h
  cases h
  rfl

end Gslb

end ResilientCtp
