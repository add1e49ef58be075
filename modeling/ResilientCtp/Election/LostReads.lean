import ResilientCtp.Election.Gates
import ResilientCtp.Model.Compose

/-!
# Losing sight of a peer

A failed read (`lost`) of a higher-priority peer holds this control plane at standby. A failed
read of a lower-priority peer does the opposite: an unreadable peer is not fresh, so it no longer
counts as the interim leader that the two-phase handoff waits for.

`standby_loseSight_iff` is the exact line between the two: with no failover signal, losing sight
of the peers of `gone` keeps a standby at standby unless it hides the last lower-priority leader
from a control plane that nothing else holds back (`HidesInterimLeader`).
`loseSight_promotes` is such an input.
-/

namespace ResilientCtp

open Py Heartbeat

namespace Election

/-- The record of a peer whose read fails. -/
def lost (p : PeerLiveness) : PeerLiveness :=
  { p with epoch := 0, ageSeconds := unknownAge, fresh := false, readable := false, role := "" }

/-- The records `peers` after the reads of the positions `gone` fail. -/
def loseSight (gone : Nat → Bool) (peers : List PeerLiveness) : List PeerLiveness :=
  peers.mapIdx fun i p => if gone i then lost p else p

/-- A failed cloud read and a missing observation give the record `lost`. -/
theorem lost_livenessFromTags (m : Member) (tags : Option Dict) (k : String) (now ttl : Int) :
    lost (livenessFromTags m tags k now ttl) = livenessFromTags m none k now ttl := rfl

/-- A read that the pool does not return gives the record `lost`. -/
theorem unreadablePeer_eq (m : Member) (k : String) (now ttl : Int) :
    unreadablePeer m = livenessFromTags m none k now ttl := rfl

/-- A lower-priority peer that is a fresh leader. -/
def LeadsBelow (identity : Identity) (p : PeerLiveness) : Prop :=
  identity.priority < p.priority ∧ p.role = "leader" ∧ p.fresh = true

/-- The lost reads hide every lower-priority leader, and nothing else holds this control plane
back. -/
structure HidesInterimLeader (identity : Identity) (gslb : GslbSignal) (strategy : String)
    (peers : List PeerLiveness) (gone : Nat → Bool) (priorStatus : Dict) (window now : Int) :
    Prop where
  healthy : gslb.healthy = true
  active : gslb.active = true
  unblocked : ∀ i, ∀ h : i < peers.length, peers[i].priority < identity.priority →
    gone i = false ∧ blocks (gslbActiveFailover gslb strategy) peers[i] = none
  leader : ∃ p ∈ peers, LeadsBelow identity p
  hidden : ∀ i, ∀ h : i < peers.length, LeadsBelow identity peers[i] → gone i = true
  served : ∃ cand, priorCandidateSince priorStatus = .ok cand ∧
    Served identity peers priorStatus window now cand

variable {identity : Identity} {gslb : GslbSignal} {strategy isoNow : String}
  {peers : List PeerLiveness} {gone : Nat → Bool} {priorStatus : Dict}
  {hysteresis throttle now : Int}

theorem forall_mem_loseSight {P : PeerLiveness → Prop} :
    (∀ q ∈ loseSight gone peers, P q) ↔
      ∀ i, ∀ h : i < peers.length, P (if gone i then lost peers[i] else peers[i]) := by
  simp only [loseSight, List.mem_mapIdx]
  constructor
  · intro h i hi
    exact h _ ⟨i, hi, rfl⟩
  · rintro h q ⟨i, hi, rfl⟩
    exact h i hi

theorem priority_ite_lost (b : Bool) (p : PeerLiveness) :
    (if b then lost p else p).priority = p.priority := by cases b <;> rfl

/-- A lost peer has the priority it had, so the hysteresis is owed as before. -/
theorem served_loseSight {window cand : Int} :
    Served identity (loseSight gone peers) priorStatus window now cand ↔
      Served identity peers priorStatus window now cand := by
  unfold Served
  rw [forall_mem_loseSight, List.forall_mem_iff_forall_getElem]
  simp only [priority_ite_lost]

/-- What clears a control plane that has lost sight of peers: no higher-priority peer is lost or
blocks, and every lower-priority leader is lost. -/
theorem clear_loseSight (haf : gslbActiveFailover gslb strategy = false) :
    Clear identity gslb strategy (loseSight gone peers) ↔
      gslb.healthy = true ∧ gslb.active = true ∧
      (∀ i, ∀ h : i < peers.length, peers[i].priority < identity.priority →
        gone i = false ∧ blocks (gslbActiveFailover gslb strategy) peers[i] = none) ∧
      ∀ i, ∀ h : i < peers.length, LeadsBelow identity peers[i] → gone i = true := by
  constructor
  · intro hc
    have hu := forall_mem_loseSight.mp hc.unblocked
    have hr := forall_mem_loseSight.mp hc.released
    refine ⟨hc.healthy, hc.active, fun i hi hlt => ?_, fun i hi ⟨hgt, hl, hf⟩ => ?_⟩
    · have := hu i hi
      rw [priority_ite_lost] at this
      have hb := this hlt
      cases hg : gone i with
      | false => rw [hg] at hb; exact ⟨rfl, hb⟩
      | true =>
        -- an unreadable higher-priority peer blocks
        rw [hg, haf] at hb
        cases hb
    · by_contra hg
      have := hr i hi
      rw [priority_ite_lost, if_neg hg] at this
      rw [this hgt hl] at hf
      cases hf
  · rintro ⟨hh, ha, hu, hl⟩
    refine ⟨hh, ha, forall_mem_loseSight.mpr fun i hi => ?_,
      forall_mem_loseSight.mpr fun i hi => ?_⟩
    · rw [priority_ite_lost]
      intro hlt
      obtain ⟨hg, hb⟩ := hu i hi hlt
      simpa [hg] using hb
    · rw [priority_ite_lost]
      intro hgt hle
      cases hg : gone i with
      | true => rfl
      | false =>
        simp only [hg, Bool.false_eq_true, ↓reduceIte] at hle ⊢
        cases hf : peers[i].fresh with
        | false => rfl
        | true => rw [hl i hi ⟨hgt, hle, hf⟩] at hg; cases hg

/-- With every higher-priority peer unblocked, a control plane is clear unless a lower-priority
peer leads. -/
theorem clear_of_noneBelow (hh : gslb.healthy = true) (ha : gslb.active = true)
    (hu : ∀ p ∈ peers, p.priority < identity.priority →
      blocks (gslbActiveFailover gslb strategy) p = none)
    (hn : ¬ ∃ p ∈ peers, LeadsBelow identity p) : Clear identity gslb strategy peers := by
  refine ⟨hh, ha, hu, fun p hp hgt hl => ?_⟩
  cases hf : p.fresh with
  | false => rfl
  | true => exact absurd ⟨p, hp, hgt, hl, hf⟩ hn

/-- **Lost reads.** With no failover signal, a standby that loses sight of the peers `gone` stays
standby if and only if that does not hide the interim leader below it. -/
theorem standby_loseSight_iff (haf : gslbActiveFailover gslb strategy = false) :
    (∀ d d', Election.decide identity gslb peers priorStatus hysteresis throttle now strategy
        isoNow = .ok d → d.role = .standby →
      Election.decide identity gslb (loseSight gone peers) priorStatus hysteresis throttle now
        strategy isoNow = .ok d' → d'.role ≠ .leader) ↔
      ¬ HidesInterimLeader identity gslb strategy peers gone priorStatus
        (hysteresisWindow hysteresis throttle) now := by
  constructor
  · intro hk hm
    obtain ⟨cand, hc, hs⟩ := hm.served
    have hdec : ∀ ps, ∃ d, Election.decide identity gslb ps priorStatus hysteresis throttle now
        strategy isoNow = .ok d := fun _ => exists_decide hc
    obtain ⟨d, hd⟩ := hdec peers
    obtain ⟨d', hd'⟩ := hdec (loseSight gone peers)
    refine hk d d' hd ?_ hd' ?_
    · rw [Role.eq_standby, Ne, decide_leader hd hc]
      rintro ⟨hclear, -⟩
      obtain ⟨p, hp, hgt, hl, hf⟩ := hm.leader
      rw [hclear.released p hp hgt hl] at hf
      cases hf
    · rw [decide_leader hd' hc, served_loseSight, clear_loseSight haf]
      exact ⟨⟨hm.healthy, hm.active, hm.unblocked, hm.hidden⟩, hs⟩
  · intro hm d d' hd hst hd' hl
    obtain ⟨cand, hc, -⟩ := decide_cases hd
    rw [decide_leader hd' hc, served_loseSight, clear_loseSight haf] at hl
    obtain ⟨⟨hh, ha, hu, hhid⟩, hs⟩ := hl
    by_cases hn : ∃ p ∈ peers, LeadsBelow identity p
    · exact hm ⟨hh, ha, hu, hn, hhid, cand, hc, hs⟩
    · have hu' : ∀ p ∈ peers, p.priority < identity.priority →
          blocks (gslbActiveFailover gslb strategy) p = none := by
        rw [List.forall_mem_iff_forall_getElem]
        exact fun i hi hlt => (hu i hi hlt).2
      have : d.role = .leader := (decide_leader hd hc).mpr ⟨clear_of_noneBelow hh ha hu' hn, hs⟩
      rw [hst] at this
      cases this

/-- A lower-priority peer of `memberA` that leads. -/
def leaderB : PeerLiveness := ⟨"cp-b", 2, "us", 990, 10, true, true, "leader"⟩

theorem standby_loseSight_leaderB :
    (∀ d d', Election.decide memberA.toIdentity Gslb.notFound [leaderB] [] 3 60 1000 "failover"
        "" = .ok d → d.role = .standby →
      Election.decide memberA.toIdentity Gslb.notFound (loseSight (fun _ => true) [leaderB]) [] 3
        60 1000 "failover" "" = .ok d' → d'.role ≠ .leader) ↔
      ¬ HidesInterimLeader memberA.toIdentity Gslb.notFound "failover" [leaderB] (fun _ => true) []
        (hysteresisWindow 3 60) 1000 :=
  standby_loseSight_iff (by decide)

/-- The highest-priority control plane waits for a lower-priority leader, and promotes when it
loses sight of it. -/
theorem loseSight_promotes :
    gslbActiveFailover Gslb.notFound "failover" = false ∧
    (Election.decide memberA.toIdentity Gslb.notFound [leaderB] [] 3 60 1000 "failover" "").map
      (·.role) = .ok .standby ∧
    (Election.decide memberA.toIdentity Gslb.notFound (loseSight (fun _ => true) [leaderB]) [] 3
      60 1000 "failover" "").map (·.role) = .ok .leader :=
  ⟨rfl, rfl, rfl⟩

end Election

end ResilientCtp
