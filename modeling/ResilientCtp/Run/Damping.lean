import ResilientCtp.Run.Hysteresis
import ResilientCtp.Lib.Throttle

/-!
# The hysteresis damps flapping

A control plane with a higher-priority peer that lost the lead stays off it for a whole window,
whatever it reads: the timer of its next promotion was started after its last leading round
(`Cool`), and a promotion waits for a window of that timer (`cooled_down`). So its promotions are
spaced by the window, and a span of time holds at most one more of them than it has windows
(`flaps_bounded`).
-/

namespace ResilientCtp

open Py Election

namespace Solo

/-- A running timer is not older than any leading round. -/
def Cool (rs : List Round) : Prop :=
  0 < pending rs → ∀ p ∈ rs, p.Leads → p.now ≤ pending rs

instance (r : Round) : Decidable r.Leads := inferInstanceAs (Decidable (_ = _))

/-- The rounds that take the lead. -/
def promotions : List Round → List Round
  | [] => []
  | r :: rs => if r.Leads ∧ ∀ p ∈ rs.head?, ¬ p.Leads then r :: promotions rs else promotions rs

/-- The runs in which the control plane always has a higher-priority peer. -/
def contested (s : Settings) (identity : Identity) : Lts.System (List Round) Round :=
  (run s identity).restrict fun _ r => r.HasHigher identity

variable {s : Settings} {identity : Identity} {rs : List Round} {r p : Round}

/-- The clock of a run never goes back. -/
theorem le_now (h : (run s identity).Reach (r :: rs)) : ∀ p ∈ rs, p.now ≤ r.now := by
  induction rs generalizing r with
  | nil => exact fun p hp => nomatch hp
  | cons q rs ih =>
    obtain ⟨hrs, hn⟩ := next_of_reach_run h
    have hq := hn.mono q rfl
    intro p hp
    rcases List.mem_cons.mp hp with rfl | hp
    · exact hq
    · exact Int.le_trans (ih hrs p hp) hq

theorem cool_step (hr : (run s identity).Reach (r :: rs)) (ih : Cool rs) : Cool (r :: rs) := by
  obtain ⟨hrs, hn⟩ := next_of_reach_run hr
  intro hpos p hp hl
  rcases hn.cases hrs with ⟨-, -, -, h0⟩ | ⟨-, -, hrl, ht⟩ | ⟨-, -, h0⟩
  · exact absurd h0 (Int.ne_of_gt hpos)
  · rcases List.mem_cons.mp hp with rfl | hp
    · exact absurd hl hrl
    · by_cases h0 : pending rs ≤ 0
      · rw [if_pos h0] at ht
        exact Int.le_trans (le_now hr p hp) (Int.le_of_eq ht.symm)
      · rw [if_neg h0] at ht
        exact Int.le_trans (ih (by omega) p hp hl) (Int.le_of_eq ht.symm)
  · exact absurd h0 (Int.ne_of_gt hpos)

theorem cool_inductive (s : Settings) (identity : Identity) :
    (run s identity).Inductive Cool where
  init rs hi := by
    cases hi
    intro hpos
    cases hpos
  step := by
    rintro rs r - hrs ih ⟨hn, rfl⟩
    exact cool_step (.step hrs ⟨hn, rfl⟩) ih

/-- **Cool-down.** A round that leads past a higher-priority peer comes a window after
every round that led. -/
theorem cooled_down (h : (run s identity).Reach (r :: rs)) (hl : r.Leads)
    (hh : r.HasHigher identity) (hp : p ∈ rs) (hpl : p.Leads) : p.now + window s ≤ r.now := by
  obtain ⟨hrs, hn⟩ := next_of_reach_run h
  rcases ((hn.leads_iff hrs).mp hl).2 with hno | ⟨hpos, hw⟩
  · exact absurd hh hno
  · have := (cool_inductive s identity).reach hrs hpos p hp hpl
    omega

theorem mem_promotions (h : p ∈ promotions rs) : p ∈ rs ∧ p.Leads := by
  induction rs with
  | nil => cases h
  | cons r rs ih =>
    rw [promotions] at h
    split at h
    · next hr =>
      rcases List.mem_cons.mp h with rfl | h
      · exact ⟨List.mem_cons_self, hr.1⟩
      · exact ⟨List.mem_cons_of_mem r (ih h).1, (ih h).2⟩
    · exact ⟨List.mem_cons_of_mem r (ih h).1, (ih h).2⟩

/-- The promotions of a run are spaced by the window. -/
theorem promotions_spaced (h : (contested s identity).Reach rs) :
    Spacing.Spaced Round.now (window s) (promotions rs) := by
  induction rs with
  | nil => exact .nil
  | cons r rs ih =>
    obtain ⟨hrs, -, hh⟩ := next_of_reach h
    rw [promotions]
    split
    · next hr =>
      refine List.pairwise_cons.mpr ⟨fun p hp => ?_, ih hrs⟩
      obtain ⟨hpm, hpl⟩ := mem_promotions hp
      exact cooled_down h.of_restrict hr.1 hh hpm hpl
    · exact ih hrs

/-- **Flap damping.** In `span` seconds a control plane with a higher-priority peer takes the lead
at most once more than there are windows in them. -/
theorem flaps_bounded (h : (contested s identity).Reach rs) (t : Int) {span : Int}
    (hspan : 0 ≤ span) :
    (((promotions rs).filter fun r => t ≤ r.now ∧ r.now ≤ t + span).length : Int) * window s ≤
      span + window s := by
  have hw : 0 ≤ window s := by
    unfold window hysteresisWindow
    exact Int.mul_nonneg (by omega) (by omega)
  have hmem : ∀ r ∈ (promotions rs).filter fun r => t ≤ r.now ∧ r.now ≤ t + span,
      t ≤ r.now ∧ r.now ≤ t + span := fun r hr => by simpa using (List.mem_filter.mp hr).2
  have hlen : (((promotions rs).filter fun r => t ≤ r.now ∧ r.now ≤ t + span).length : Int) *
      window s ≤ t + span - t + window s :=
    Spacing.length_mul_le ((promotions_spaced h).filter _) (fun r hr => (hmem r hr).1)
      (fun r hr => (hmem r hr).2) (by omega)
  omega

/-- `cp-b` takes the lead at 181, and once in the 600 seconds from 1 on. -/
theorem flaps_bounded_memberB : ∃ n i : Round,
    (contested Settings.default memberB.toIdentity).Reach [n, i] ∧ promotions [n, i] = [n] ∧
      (((promotions [n, i]).filter fun r => 1 ≤ r.now ∧ r.now ≤ 1 + 600).length : Int) * 180 ≤
        600 + 180 := by
  obtain ⟨n, i, hr, en, ei, hnl, hil, -⟩ := @exists_promotion 181 (by decide)
  have hh : ∀ r ∈ [n, i], r.HasHigher memberB.toIdentity := by
    intro r hm
    refine ⟨downA, ?_, by decide⟩
    rcases List.mem_cons.mp hm with rfl | hm
    · rw [en]
      exact List.mem_singleton_self _
    · rw [List.mem_singleton.mp hm, ei]
      exact List.mem_singleton_self _
  obtain ⟨hi, hni⟩ := next_of_reach_run hr
  obtain ⟨-, hii⟩ := next_of_reach_run hi
  have hc : (contested Settings.default memberB.toIdentity).Reach [n, i] :=
    reach_cons (reach_cons (.init rfl) hii (hh i (by simp))) hni (hh n (by simp))
  refine ⟨n, i, hc, ?_, flaps_bounded hc 1 (by decide)⟩
  simp [promotions, hnl, hil]

end Solo

end ResilientCtp
