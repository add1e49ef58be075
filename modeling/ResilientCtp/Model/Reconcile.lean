import ResilientCtp.Model.Election

/-!
# One reconcile, from its readings to its writes (`status.py`; `main.py`, steps 3, 4a and 6)

`buildStatus` is what the next reconcile gets back as its prior status. The timer goes through a
string and back (`priorCandidateSince_buildStatus`); the epoch is published as a number, which
`as_int` does not read, so no status that was published makes a `continuousLeader`
(`continuousLeader_buildStatus`). `reconcile` is the part of `_compose` that the leadership depends
on: the decision, the throttled epoch, the own heartbeat and the status. `Model/Compose.lean` puts
it between the reading of the request and the rest of the response.

* `prevTags`: the read-back of the own heartbeat, from `status.atProvider.tags` on every provider.
  A provider reports what was written to it (`observedSelf`), GCP under `labels`, so on GCP there
  is nothing to read back (`prevTags_observedSelf`).
* `epochToWrite_cases`: the epoch is the clock's, or an earlier one that the throttle keeps.
* `reconcile_ok`: what a reconcile that returns has computed.
-/

namespace ResilientCtp

open Py Election Heartbeat

/-! ## The published status -/

namespace Status

def peerStatus (gslb : GslbSignal) (p : PeerLiveness) : Value :=
  .dict [
    ("id", .str p.cpId),
    ("ageSeconds", .num (if p.ageSeconds < 1000000000 then p.ageSeconds else -1)),
    ("fresh", .bool p.fresh),
    ("gslbHealthy", .bool gslb.healthy),
    ("definitivelyDown", .bool (p.readable && !p.fresh))]

def buildStatus (decision : Decision) (gslb : GslbSignal) (peers : List PeerLiveness)
    (selfEpoch : Int) : Dict :=
  [("role", .str decision.role.text),
   ("managementPolicy", .list (decision.managementPolicy.map .str)),
   ("reason", .str decision.reason),
   ("selfHeartbeatEpoch", .num selfEpoch),
   ("promotionCandidateSince",
      .str (if decision.promotionCandidateSince = 0 then ""
        else strInt decision.promotionCandidateSince)),
   ("gslb", .dict [("healthy", .bool gslb.healthy), ("isActiveForGeo", .bool gslb.active)]),
   ("peers", .list (peers.map (peerStatus gslb)))] ++
  (if decision.lastHandoffTime = "" then [] else
    [("lastHandoffTime", .str decision.lastHandoffTime)])

variable (d : Decision) (g : GslbSignal) (peers : List PeerLiveness) (epoch : Int)

theorem getD_role (v : Value) :
    Dict.getD (buildStatus d g peers epoch) "role" v = .str d.role.text := rfl

theorem getD_selfHeartbeatEpoch (v : Value) :
    Dict.getD (buildStatus d g peers epoch) "selfHeartbeatEpoch" v = .num epoch := rfl

theorem getD_promotionCandidateSince (v : Value) :
    Dict.getD (buildStatus d g peers epoch) "promotionCandidateSince" v =
      .str (if d.promotionCandidateSince = 0 then "" else strInt d.promotionCandidateSince) := rfl

/-- The timer of the decision reads back from the status it is written to. -/
theorem priorCandidateSince_buildStatus :
    priorCandidateSince (buildStatus d g peers epoch) = .ok d.promotionCandidateSince := by
  rw [priorCandidateSince, getD_promotionCandidateSince]
  by_cases h : d.promotionCandidateSince = 0
  · rw [if_pos h, h]; rfl
  · rw [if_neg h, Value.or, Value.truthy_str_strInt, if_pos rfl, Value.toInt_str_strInt]

/-- The number under `selfHeartbeatEpoch`. -/
def selfEpoch (status : Dict) : Int :=
  match Dict.getD status "selfHeartbeatEpoch" .null with
  | .num n => n
  | _ => 0

theorem selfEpoch_buildStatus : selfEpoch (buildStatus d g peers epoch) = epoch := rfl

/-- The published epoch is a number, and `as_int` reads no number. -/
theorem continuousLeader_buildStatus (window now : Int) :
    continuousLeader (buildStatus d g peers epoch) window now = false := by
  simp only [continuousLeader, getD_selfHeartbeatEpoch, asInt_num, Int.lt_irrefl, decide_false,
    Bool.false_and, Bool.and_false]

end Status

open Status

/-! ## The reconcile -/

/-- The knobs of a reconcile. -/
structure Settings where
  tsTag : String
  ttl : Int
  throttle : Int
  hysteresis : Int
  ns : String
  providerConfig : String

/-- The schema's bounds on the knobs. -/
structure Settings.Admitted (s : Settings) : Prop where
  ttl : 30 ≤ s.ttl
  throttle : 10 ≤ s.throttle
  hysteresis : 1 ≤ s.hysteresis

/-- The defaults. -/
def Settings.default : Settings := ⟨tsTagDefault, 180, 60, 3, "default", "default"⟩

theorem Settings.default_admitted : Settings.default.Admitted := ⟨by decide, by decide, by decide⟩

/-- What a reconcile reads. -/
structure Inputs where
  gslb : GslbSignal
  strategy : String
  peers : List PeerLiveness
  priorStatus : Dict
  prev : Dict
  now : Int
  isoNow : String

/-- What a reconcile writes. -/
structure Reconciled where
  decision : Decision
  epoch : Int
  tags : Dict
  heartbeat : Value
  status : Dict

/-- The tags of the own heartbeat as observed. -/
def prevTags (observed : Dict) : Except Err Dict := do
  let self := Dict.getD observed selfHb (.dict [])
  let atProvider ← (← self.get "status" (.dict [])).get "atProvider" (.dict [])
  ((← atProvider.get "tags" (.dict [])).or (.dict [])).asDict

/-- The epoch of this reconcile's heartbeat: the previous one while it is within the throttle
window and the role is the same. -/
def epochToWrite (prev : Dict) (tsTag : String) (now throttle : Int) (role : Role) : Int :=
  let prevEpoch := asInt (Dict.getD prev tsTag .null) 0
  let prevRole := Dict.getD prev roleTag (.str "")
  if prevEpoch ≠ 0 ∧ now - prevEpoch < throttle ∧ prevRole.isStr role.text = true then prevEpoch
  else now

/-- Steps 4a and 6, on the decision. -/
def writeBack (s : Settings) (identity : Identity) (inp : Inputs) (decision : Decision) :
    Except Err Reconciled := do
  let epoch := epochToWrite inp.prev s.tsTag inp.now s.throttle decision.role
  let own ← buildOwn identity s.ns s.providerConfig s.tsTag epoch decision.role.text
  return {
    decision
    epoch
    tags := ownTags identity s.tsTag epoch decision.role.text
    heartbeat := own.2
    status := buildStatus decision inp.gslb inp.peers epoch }

def reconcile (s : Settings) (identity : Identity) (inp : Inputs) : Except Err Reconciled := do
  writeBack s identity inp (← Election.decide identity inp.gslb inp.peers inp.priorStatus
    s.hysteresis s.throttle inp.now inp.strategy inp.isoNow)

/-! ## The own heartbeat, observed -/

/-- The observed heartbeat of a control plane whose provider reports the tags `tags` (labels on
GCP) unchanged. -/
def observedSelf (provider : String) (tags : Dict) : Dict :=
  [(selfHb, observedHeartbeat provider tags)]

theorem prevTags_nil : prevTags [] = .ok [] := rfl

theorem prevTags_observedSelf (provider : String) (tags : Dict) :
    prevTags (observedSelf provider tags) = .ok (if provider = "gcp" then [] else tags) := by
  unfold observedSelf observedHeartbeat
  split
  · rfl
  · show ((Value.dict tags).or (.dict [])).asDict = _
    rw [Value.dict_or_nil]
    rfl

/-- What is read back is what was written, or nothing on GCP. -/
theorem prev_of_observedSelf {provider : String} {tags prev : Dict}
    (h : prevTags (observedSelf provider tags) = .ok prev) :
    prev = [] ∨ (prev = tags ∧ provider ≠ "gcp") := by
  rw [prevTags_observedSelf] at h
  have h := Except.ok.inj h
  by_cases hg : provider = "gcp"
  · rw [if_pos hg] at h
    exact .inl h.symm
  · rw [if_neg hg] at h
    exact .inr ⟨h.symm, hg⟩

/-! ## The throttle -/

theorem epochToWrite_cases (prev : Dict) (k : String) (now throttle : Int) (role : Role) :
    epochToWrite prev k now throttle role = now ∨
      ∃ e, asInt (Dict.getD prev k .null) 0 = e ∧ e ≠ 0 ∧ now - e < throttle ∧
        epochToWrite prev k now throttle role = e := by
  simp only [epochToWrite]
  split
  · next h => exact .inr ⟨_, rfl, h.1, h.2.1, rfl⟩
  · exact .inl rfl

/-- The epoch after a heartbeat with epoch `e` and role `r`. -/
theorem epochToWrite_ownTags {k : String} (hk : LivenessKey k) (i : Identity) (e : Int) (r : Role)
    (now throttle : Int) (role : Role) :
    epochToWrite (ownTags i k e r.text) k now throttle role =
      if e ≠ 0 ∧ now - e < throttle ∧ r = role then e else now := by
  have hr : (r.text == role.text) = true ↔ r = role := by cases r <;> cases role <;> decide
  simp only [epochToWrite, getD_ownTags hk, getD_ownTags_role, asInt_strInt, Value.isStr, hr]

/-- The throttle keeps an epoch only under the same role. -/
theorem epochToWrite_of_role {identity : Identity} {k : String} {e now throttle : Int}
    {r role : Role} (h : r ≠ role) :
    epochToWrite (ownTags identity k e r.text) k now throttle role = now := by
  simp only [epochToWrite, getD_ownTags_role, Value.isStr]
  rw [if_neg]
  rintro ⟨-, -, hr⟩
  revert h hr
  cases r <;> cases role <;> decide

/-! ## What a reconcile computes -/

theorem buildParameter_ok {provider name ns id region pc : String} {mgmt : List String}
    {tags : Dict} {v : Value} (h : buildParameter provider name ns id region pc mgmt tags = .ok v) :
    provider = "aws" ∨ provider = "azure" ∨ provider = "gcp" := by
  unfold buildParameter at h
  by_cases h1 : provider = "aws"
  · exact .inl h1
  by_cases h2 : provider = "azure"
  · exact .inr (.inl h2)
  by_cases h3 : provider = "gcp"
  · exact .inr (.inr h3)
  simp [h1, h2, h3] at h

/-- **Inversion.** A reconcile that returns has decided, on a provider that has a heartbeat
resource, and its epoch, tags and status are those of the decision. -/
theorem reconcile_ok {s : Settings} {identity : Identity} {inp : Inputs} {r : Reconciled}
    (h : reconcile s identity inp = .ok r) :
    Election.decide identity inp.gslb inp.peers inp.priorStatus s.hysteresis s.throttle inp.now
        inp.strategy inp.isoNow = .ok r.decision ∧
      r.epoch = epochToWrite inp.prev s.tsTag inp.now s.throttle r.decision.role ∧
      r.tags = ownTags identity s.tsTag r.epoch r.decision.role.text ∧
      r.status = buildStatus r.decision inp.gslb inp.peers r.epoch ∧
      (identity.provider = "aws" ∨ identity.provider = "azure" ∨ identity.provider = "gcp") := by
  obtain ⟨d, hd, h⟩ := bind_ok h
  obtain ⟨own, ho, h⟩ := bind_ok h
  obtain ⟨v, hv, -⟩ := bind_ok ho
  cases h
  exact ⟨hd, rfl, rfl, rfl, buildParameter_ok hv⟩

theorem reconcile_of_writeBack {s : Settings} {identity : Identity} {inp : Inputs} {d : Decision}
    {r : Reconciled}
    (hd : Election.decide identity inp.gslb inp.peers inp.priorStatus s.hysteresis s.throttle
      inp.now inp.strategy inp.isoNow = .ok d) (hr : writeBack s identity inp d = .ok r) :
    reconcile s identity inp = .ok r := by
  unfold reconcile
  rw [hd]
  exact hr

/-- A reconcile returns where the decision does, on a provider that has a heartbeat resource. -/
theorem reconcile_of_decide {s : Settings} {identity : Identity} {inp : Inputs} {d : Decision}
    (hd : Election.decide identity inp.gslb inp.peers inp.priorStatus s.hysteresis s.throttle
      inp.now inp.strategy inp.isoNow = .ok d)
    (hp : identity.provider = "aws" ∨ identity.provider = "azure" ∨ identity.provider = "gcp") :
    ∃ r, reconcile s identity inp = .ok r ∧ r.decision = d := by
  unfold reconcile
  rw [hd]
  simp only [writeBack, bind, Except.bind, buildOwn, buildParameter]
  rcases hp with h | h | h <;> simp only [h] <;> exact ⟨_, rfl, rfl⟩

end ResilientCtp
