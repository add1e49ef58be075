import ResilientCtp.Model.Gslb
import ResilientCtp.Model.Heartbeat

/-!
# Leadership election (`election.py`)

`Election.decide` holds `["*"]` (leader) exactly when this control plane is GSLB-eligible, no
higher-priority peer blocks (`blocks`), no lower-priority peer is a fresh leader
(`lowerLeaders`), and the failover hysteresis is served (`gate`).

The wall-clock text of `iso_now()` is an argument. A status of a type that the schema excludes (a
role or a handoff time that is no string) reads as empty.
-/

namespace ResilientCtp

open Py

structure Decision where
  isLeader : Bool
  role : Role
  managementPolicy : List String
  reason : String
  promotionCandidateSince : Int
  lastHandoffTime : String
  deriving DecidableEq

namespace Election

/-- Why a higher-priority peer blocks a promotion. -/
inductive Block where
  | unreadable
  | leaderActive
  | alive
  deriving DecidableEq

def higher (identity : Identity) (peers : List PeerLiveness) : List PeerLiveness :=
  peers.filter fun p => p.priority < identity.priority

def lower (identity : Identity) (peers : List PeerLiveness) : List PeerLiveness :=
  peers.filter fun p => p.priority > identity.priority

def hysteresisWindow (hysteresisPeriods writeThrottle : Int) : Int :=
  max 1 hysteresisPeriods * max 1 writeThrottle

/-- `role == "leader"` in the persisted status, and its own heartbeat at most a window old. -/
def continuousLeader (priorStatus : Dict) (window now : Int) : Bool :=
  let priorSelfEpoch := asInt (Dict.getD priorStatus "selfHeartbeatEpoch" .null) 0
  let selfHbFresh := decide (0 < priorSelfEpoch) && decide (now - priorSelfEpoch ≤ window)
  (Dict.getD priorStatus "role" (.str "")).isStr "leader" && selfHbFresh

/-- The persisted hysteresis timer, `0` where there is none. -/
def priorCandidateSince (priorStatus : Dict) : Except Err Int :=
  ((Dict.getD priorStatus "promotionCandidateSince" (.num 0)).or (.num 0)).toInt

def selfEligible (gslb : GslbSignal) : Bool := gslb.healthy && gslb.active

/-- This control plane is the sole active geo under `failover`. -/
def gslbActiveFailover (gslb : GslbSignal) (strategy : String) : Bool :=
  gslb.found && gslb.active && strategy == "failover"

/-- `_blocks`: why a higher-priority peer blocks, `none` where it does not. -/
def blocks (activeFailover : Bool) (peer : PeerLiveness) : Option Block :=
  if !peer.readable then
    if activeFailover then none else some .unreadable
  else if !peer.fresh then none
  else if peer.role = "leader" then some .leaderActive
  else if activeFailover then none
  else some .alive

def blocking (activeFailover : Bool) (higher : List PeerLiveness) : List (PeerLiveness × Block) :=
  higher.filterMap fun p => (blocks activeFailover p).map fun why => (p, why)

/-- The ids of the lower-priority peers that still lead. -/
def lowerLeaders (lower : List PeerLiveness) : List String :=
  (lower.filter fun p => decide (p.role = "leader") && p.fresh).map (·.cpId)

/-! ## The texts of `reason` -/

def notEligibleReason (gslb : GslbSignal) : String :=
  "GSLB not eligible (healthy=" ++ strBool gslb.healthy ++ ", active=" ++ strBool gslb.active ++
    (if gslb.found then "" else ", no Gslb found") ++ ")"

/-- The ids that block for the reason `b`. -/
def blockedBy (b : Block) (blocking : List (PeerLiveness × Block)) : List String :=
  (blocking.filter fun pw => pw.2 = b).map (·.1.cpId)

def blockReasons (blocking : List (PeerLiveness × Block)) : List String :=
  let leading := blockedBy .leaderActive blocking
  let alive := blockedBy .alive blocking
  let unreadable := blockedBy .unreadable blocking
  (if leading.isEmpty then [] else
    ["higher-priority leader(s) still active: " ++ strList leading]) ++
  (if alive.isEmpty then [] else ["higher-priority peer(s) alive: " ++ strList alive]) ++
  (if unreadable.isEmpty then [] else
    ["higher-priority peer(s) unreadable, holding standby (fail-safe): " ++ strList unreadable])

/-! ## The decision -/

/-- What the gates after eligibility and blocking give. -/
structure Gate where
  wantLeader : Bool
  candidateSince : Int
  reasons : List String
  deriving DecidableEq

/-- The two-phase handoff and the failover hysteresis, for a control plane that wants to lead. -/
def gate (higher : List PeerLiveness) (lowerLeader : List String) (continuousLeader : Bool)
    (priorCandidateSince window now : Int) : Gate :=
  if !lowerLeader.isEmpty then
    { wantLeader := false, candidateSince := 0
      reasons := ["waiting for lower-priority leader(s) " ++ strList lowerLeader ++
        " to release (two-phase handoff)"] }
  else if !higher.isEmpty && !continuousLeader then
    if priorCandidateSince ≤ 0 then
      { wantLeader := false, candidateSince := now
        reasons := ["promotion candidate; starting hysteresis"] }
    else if now - priorCandidateSince < window then
      { wantLeader := false, candidateSince := priorCandidateSince
        reasons := ["hysteresis " ++ strInt (now - priorCandidateSince) ++ "s/" ++
          strInt window ++ "s"] }
    else { wantLeader := true, candidateSince := 0, reasons := [] }
  else { wantLeader := true, candidateSince := 0, reasons := [] }

protected def decide (identity : Identity) (gslb : GslbSignal) (peers : List PeerLiveness)
    (priorStatus : Dict) (hysteresisPeriods writeThrottle now : Int) (strategy isoNow : String) :
    Except Err Decision := do
  let higher := higher identity peers
  let lower := lower identity peers
  let priorRole := Dict.getD priorStatus "role" (.str "")
  let priorCandidateSince ← priorCandidateSince priorStatus
  let priorHandoff := (Dict.getD priorStatus "lastHandoffTime" (.str "")).text
  let window := hysteresisWindow hysteresisPeriods writeThrottle
  let continuousLeader := continuousLeader priorStatus window now
  let blocking := blocking (gslbActiveFailover gslb strategy) higher
  let reasons := (if selfEligible gslb then [] else [notEligibleReason gslb]) ++
    blockReasons blocking
  let gate :=
    if selfEligible gslb && blocking.isEmpty then
      gate higher (lowerLeaders lower) continuousLeader priorCandidateSince window now
    else { wantLeader := false, candidateSince := 0, reasons := [] }
  let wantLeader := gate.wantLeader
  let role := if wantLeader then Role.leader else Role.standby
  let reasons := reasons ++ gate.reasons
  let reasons :=
    if reasons.isEmpty then
      [if wantLeader then "GSLB healthy+active and no higher-priority peer blocking" else "standby"]
    else reasons
  return {
    isLeader := wantLeader
    role
    managementPolicy := if wantLeader then ["*"] else ["Observe"]
    reason := "; ".intercalate reasons
    promotionCandidateSince := gate.candidateSince
    -- a handoff is recorded when the role changes
    lastHandoffTime := if priorRole.truthy && !priorRole.isStr role.text then isoNow
      else priorHandoff }

end Election

end ResilientCtp
