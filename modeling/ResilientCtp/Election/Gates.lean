import ResilientCtp.Model.Election

/-!
# What `Election.decide` does

`decide_cases` says once what a decision can be; every proof about the election cites it and none
unfolds `decide`.

* `Clear`: eligible, no higher-priority peer blocks, no lower-priority peer is a fresh leader.
* `Served`: the hysteresis is not owed (no higher-priority peer, or a continuous leader) or over.
* Clear and served: leader. Clear and not served: standby, with a running timer. Not clear:
  standby, and the timer is gone.
-/

namespace ResilientCtp

open Py

namespace Election

/-- Nothing but the hysteresis can hold this control plane back. -/
structure Clear (identity : Identity) (gslb : GslbSignal) (strategy : String)
    (peers : List PeerLiveness) : Prop where
  healthy : gslb.healthy = true
  active : gslb.active = true
  unblocked : ∀ p ∈ peers, p.priority < identity.priority →
    blocks (gslbActiveFailover gslb strategy) p = none
  released : ∀ p ∈ peers, identity.priority < p.priority → p.role = "leader" → p.fresh = false

/-- The hysteresis is not owed or over; `cand` is the persisted timer. -/
def Served (identity : Identity) (peers : List PeerLiveness) (priorStatus : Dict)
    (window now cand : Int) : Prop :=
  (∀ p ∈ peers, ¬ p.priority < identity.priority) ∨
    continuousLeader priorStatus window now = true ∨ (0 < cand ∧ window ≤ now - cand)

variable {identity : Identity} {gslb : GslbSignal} {strategy isoNow : String}
  {peers : List PeerLiveness} {priorStatus : Dict} {hysteresis throttle now : Int} {d : Decision}

theorem higher_eq_nil :
    higher identity peers = [] ↔ ∀ p ∈ peers, ¬ p.priority < identity.priority := by
  simp [higher]

theorem blocking_eq_nil {af : Bool} :
    blocking af (higher identity peers) = [] ↔
      ∀ p ∈ peers, p.priority < identity.priority → blocks af p = none := by
  simp [blocking, higher]

theorem lowerLeaders_eq_nil :
    lowerLeaders (lower identity peers) = [] ↔
      ∀ p ∈ peers, identity.priority < p.priority → p.role = "leader" → p.fresh = false := by
  simp only [lowerLeaders, lower, List.map_eq_nil_iff, List.filter_eq_nil_iff, List.mem_filter,
    Bool.and_eq_true, decide_eq_true_eq, gt_iff_lt]
  constructor
  · intro h p hp hlt hl
    exact Bool.eq_false_iff.mpr fun hf => h p ⟨hp, hlt⟩ ⟨hl, hf⟩
  · rintro h p ⟨hp, hlt⟩ ⟨hl, hf⟩
    rw [h p hp hlt hl] at hf
    cases hf

theorem clear_iff :
    Clear identity gslb strategy peers ↔
      (selfEligible gslb && (blocking (gslbActiveFailover gslb strategy)
        (higher identity peers)).isEmpty) = true ∧ lowerLeaders (lower identity peers) = [] := by
  rw [Bool.and_eq_true, List.isEmpty_iff, blocking_eq_nil, lowerLeaders_eq_nil, selfEligible,
    Bool.and_eq_true]
  exact ⟨fun h => ⟨⟨⟨h.healthy, h.active⟩, h.unblocked⟩, h.released⟩,
    fun ⟨⟨⟨h1, h2⟩, h3⟩, h4⟩ => ⟨h1, h2, h3, h4⟩⟩

/-! ## The gate -/

theorem gate_waits (hs : List PeerLiveness) {ids : List String} (cl : Bool) (cand window now : Int)
    (h : ids ≠ []) :
    (gate hs ids cl cand window now).wantLeader = false ∧
      (gate hs ids cl cand window now).candidateSince = 0 := by
  have : ids.isEmpty = false := by simpa using h
  simp [gate, this]

/-- With no lower-priority leader the gate is the hysteresis. -/
theorem gate_released (cl : Bool) (cand window now : Int) (hs : List PeerLiveness) :
    ((hs = [] ∨ cl = true ∨ (0 < cand ∧ window ≤ now - cand)) ∧
        (gate hs [] cl cand window now).wantLeader = true ∧
        (gate hs [] cl cand window now).candidateSince = 0) ∨
      (¬ (hs = [] ∨ cl = true ∨ (0 < cand ∧ window ≤ now - cand)) ∧
        (gate hs [] cl cand window now).wantLeader = false ∧
        (gate hs [] cl cand window now).candidateSince = if cand ≤ 0 then now else cand) := by
  by_cases hh : hs = []
  · subst hh; left; simp [gate]
  cases cl with
  | true => left; simp [gate]
  | false =>
    have he : hs.isEmpty = false := by simpa using hh
    by_cases h0 : cand ≤ 0
    · right
      refine ⟨?_, by simp [gate, he, h0], by simp [gate, he, h0]⟩
      rintro (e | e | ⟨e, -⟩)
      · exact hh e
      · cases e
      · omega
    by_cases hw : now - cand < window
    · right
      refine ⟨?_, by simp [gate, he, h0, hw], by simp [gate, he, h0, hw]⟩
      rintro (e | e | ⟨-, e⟩)
      · exact hh e
      · cases e
      · omega
    · left
      refine ⟨.inr (.inr ⟨?_, ?_⟩), by simp [gate, he, h0, hw], by simp [gate, he, h0, hw]⟩
      · omega
      · omega

/-! ## The decision -/

/-- **What a decision can be.** -/
theorem decide_cases (h : Election.decide identity gslb peers priorStatus hysteresis throttle now
    strategy isoNow = .ok d) : ∃ cand, priorCandidateSince priorStatus = .ok cand ∧
    ((Clear identity gslb strategy peers ∧
        Served identity peers priorStatus (hysteresisWindow hysteresis throttle) now cand ∧
        d.role = .leader ∧ d.promotionCandidateSince = 0) ∨
      (Clear identity gslb strategy peers ∧
        ¬ Served identity peers priorStatus (hysteresisWindow hysteresis throttle) now cand ∧
        d.role = .standby ∧ d.promotionCandidateSince = if cand ≤ 0 then now else cand) ∨
      (¬ Clear identity gslb strategy peers ∧
        d.role = .standby ∧ d.promotionCandidateSince = 0)) := by
  unfold Election.decide at h
  obtain ⟨cand, hc, h⟩ := bind_ok h
  refine ⟨cand, hc, ?_⟩
  cases h
  by_cases he : (selfEligible gslb && (blocking (gslbActiveFailover gslb strategy)
      (higher identity peers)).isEmpty) = true
  · by_cases hl : lowerLeaders (lower identity peers) = []
    · have hclear := clear_iff.mpr ⟨he, hl⟩
      rcases gate_released (continuousLeader priorStatus (hysteresisWindow hysteresis throttle) now)
        cand (hysteresisWindow hysteresis throttle) now (higher identity peers) with
        ⟨hs, hw, hcs⟩ | ⟨hs, hw, hcs⟩
      · left
        rw [higher_eq_nil] at hs
        exact ⟨hclear, hs, by simp [he, hl, hw], by simp [he, hl, hcs]⟩
      · right; left
        rw [higher_eq_nil] at hs
        exact ⟨hclear, hs, by simp [he, hl, hw], by simp [he, hl, hcs]⟩
    · right; right
      obtain ⟨hw, hcs⟩ := gate_waits (higher identity peers)
        (continuousLeader priorStatus (hysteresisWindow hysteresis throttle) now) cand
        (hysteresisWindow hysteresis throttle) now hl
      exact ⟨fun hclear => hl (clear_iff.mp hclear).2, by simp [he, hw], by simp [he, hcs]⟩
  · right; right
    exact ⟨fun hclear => he (clear_iff.mp hclear).1, by simp [he], by simp [he]⟩

theorem decide_leader (h : Election.decide identity gslb peers priorStatus hysteresis throttle now
    strategy isoNow = .ok d) {cand : Int} (hc : priorCandidateSince priorStatus = .ok cand) :
    d.role = .leader ↔ Clear identity gslb strategy peers ∧
      Served identity peers priorStatus (hysteresisWindow hysteresis throttle) now cand := by
  obtain ⟨cand', hc', hd⟩ := decide_cases h
  rw [hc] at hc'; cases hc'
  rcases hd with ⟨h1, h2, h3, -⟩ | ⟨h1, h2, h3, -⟩ | ⟨h1, h3, -⟩ <;> simp [h1, h3]
  · exact h2
  · exact h2

/-- The published policy is that of the role. -/
theorem decide_policy (h : Election.decide identity gslb peers priorStatus hysteresis throttle now
    strategy isoNow = .ok d) :
    d.managementPolicy = if d.role = .leader then ["*"] else ["Observe"] := by
  have key : ∀ w : Bool, (if w then ["*"] else ["Observe"]) =
      if (if w then Role.leader else Role.standby) = Role.leader then ["*"] else ["Observe"] := by
    decide
  unfold Election.decide at h
  obtain ⟨cand, -, h⟩ := bind_ok h
  cases h
  exact key _

/-- A decision raises only on a timer that is no integer. -/
theorem exists_decide {cand : Int} (hc : priorCandidateSince priorStatus = .ok cand) :
    ∃ d, Election.decide identity gslb peers priorStatus hysteresis throttle now strategy isoNow =
      .ok d := by
  unfold Election.decide
  rw [hc]
  exact ⟨_, rfl⟩

/-! ## Which peers hold a control plane back -/

theorem blocks_eq_none {af : Bool} {p : PeerLiveness} :
    blocks af p = none ↔ (p.readable = false ∧ af = true) ∨ (p.readable = true ∧ p.fresh = false) ∨
      (p.readable = true ∧ p.fresh = true ∧ p.role ≠ "leader" ∧ af = true) := by
  cases hr : p.readable <;> cases hf : p.fresh <;> cases af <;>
    by_cases hl : p.role = "leader" <;> simp [blocks, hr, hf, hl]

/-- A leader sees no other peer that is readable, fresh and leader, higher or lower. -/
theorem Clear.not_fresh_leader (h : Clear identity gslb strategy peers) {p : PeerLiveness}
    (hp : p ∈ peers) (hne : p.priority ≠ identity.priority) (hr : p.readable = true)
    (hl : p.role = "leader") : p.fresh = false := by
  rcases Int.lt_or_gt_of_ne hne with hlt | hgt
  · rcases blocks_eq_none.mp (h.unblocked p hp hlt) with ⟨e, -⟩ | ⟨-, e⟩ | ⟨-, -, e, -⟩
    · rw [hr] at e; cases e
    · exact e
    · exact absurd hl e
  · exact h.released p hp hgt hl

/-- Peers that are all known to be down hold nobody back. -/
theorem clear_of_down (hh : gslb.healthy = true) (ha : gslb.active = true)
    (hp : ∀ p ∈ peers, p.readable = true ∧ p.fresh = false) :
    Clear identity gslb strategy peers where
  healthy := hh
  active := ha
  unblocked p hm _ := blocks_eq_none.mpr (.inr (.inl (hp p hm)))
  released p hm _ _ := (hp p hm).2

/-- Without a failover signal a higher-priority peer holds unless it is known to be down. -/
theorem Clear.higher_down (h : Clear identity gslb strategy peers)
    (haf : gslbActiveFailover gslb strategy = false) {p : PeerLiveness} (hp : p ∈ peers)
    (hlt : p.priority < identity.priority) : p.readable = true ∧ p.fresh = false := by
  rcases blocks_eq_none.mp (h.unblocked p hp hlt) with ⟨-, e⟩ | e | ⟨-, -, -, e⟩
  · rw [haf] at e; cases e
  · exact e
  · rw [haf] at e; cases e

end Election

end ResilientCtp
