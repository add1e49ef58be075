import ResilientCtp.Run.Hysteresis

/-!
# The first round after an outage

Whoever led before an outage owes the hysteresis again after it. But the timer of a candidacy has
no bound on its age: it is not younger than the round that published it (`timer_le_inductive`), so
one that was running before a gap of more than the hysteresis window is over after it.

* `standby_after_gap_iff`: the first round after the gap stands by if and only if no candidacy was
  left running, or something holds the round back.
* `promotes_after_gap`: one clear round before the gap and one after it make a leader.
-/

namespace ResilientCtp

open Py Election

namespace Solo

variable {s : Settings} {identity : Identity} {rs earlier : List Round} {r last : Round}

/-- No timer is ahead of the newest round. -/
theorem timer_le_inductive (s : Settings) (identity : Identity) :
    (run s identity).Inductive fun rs => ∀ r ∈ rs.head?, pending rs ≤ r.now where
  init rs hi := by cases hi; intro r hr; cases hr
  step := by
    rintro rs r - hrs ih ⟨hn, rfl⟩ _ hr
    cases hr
    have hpos := hn.positive
    have hle : pending rs ≤ r.now := by
      cases rs with
      | nil => exact Int.le_of_lt hpos
      | cons q rs => exact Int.le_trans (ih q rfl) (hn.mono q rfl)
    show r.timer ≤ r.now
    rcases hn.cases hrs with ⟨-, -, -, h0⟩ | ⟨-, -, -, ht⟩ | ⟨-, -, h0⟩
    · omega
    · rw [ht]
      split
      · exact Int.le_refl _
      · exact hle
    · omega

/-- **After a gap.** The first round stands by exactly if the last one left no running timer, or
something else than the hysteresis holds it back. -/
theorem standby_after_gap_iff (hs : s.Admitted)
    (h : (run s identity).Reach (r :: last :: earlier)) (hh : r.HasHigher identity)
    (hgap : s.hysteresis * s.throttle < r.now - last.now) :
    ¬ r.Leads ↔ ¬ (r.Clear identity ∧ 0 < last.timer) := by
  obtain ⟨hrs, hn⟩ := next_of_reach_run h
  have htimer : last.timer ≤ last.now := (timer_le_inductive s identity).reach hrs last rfl
  rw [hn.leads_iff hrs, ← window_eq hs] at *
  refine not_congr (and_congr_right fun _ => ?_)
  constructor
  · rintro (hno | ⟨h0, -⟩)
    · exact absurd hh hno
    · exact h0
  · intro h0
    refine .inr ⟨h0, ?_⟩
    show window s ≤ r.now - last.timer
    omega

/-! ## A run -/

/-- The candidate of `exists_promotion`, back after 9999 seconds. -/
theorem exists_promotion_after_gap : ∃ n i : Round,
    (run Settings.default memberB.toIdentity).Reach [n, i] ∧
      n.HasHigher memberB.toIdentity ∧ n.Clear memberB.toIdentity ∧ n.Leads ∧ i.timer = 1 ∧
      Settings.default.hysteresis * Settings.default.throttle < n.now - i.now := by
  obtain ⟨n, i, hr, en, ei, hnl, -, hit⟩ := @exists_promotion 10000 (by decide)
  refine ⟨n, i, hr, ?_, clear_of_quiet en downA_down, hnl, hit, ?_⟩
  · exact ⟨downA, by rw [en]; exact List.mem_singleton_self _, by decide⟩
  · rw [Round.now, Round.now, en, ei]
    show (180 : Int) < 10000 - 1
    decide

theorem standby_after_gap_iff_memberB : ∃ n i : Round,
    (run Settings.default memberB.toIdentity).Reach [n, i] ∧
      n.HasHigher memberB.toIdentity ∧ 180 < n.now - i.now ∧
      (¬ n.Leads ↔ ¬ (n.Clear memberB.toIdentity ∧ 0 < i.timer)) := by
  obtain ⟨n, i, hr, hh, -, -, -, hgap⟩ := exists_promotion_after_gap
  exact ⟨n, i, hr, hh, hgap, standby_after_gap_iff Settings.default_admitted hr hh hgap⟩

/-- The first round after an outage of 9999 seconds leads, on the timer from before it. -/
theorem promotes_after_gap : ¬ ∀ (s : Settings) (identity : Identity) (r last : Round)
    (earlier : List Round), s.Admitted → (run s identity).Reach (r :: last :: earlier) →
      r.HasHigher identity → s.hysteresis * s.throttle < r.now - last.now → ¬ r.Leads := by
  intro h
  obtain ⟨n, i, hr, hh, -, hl, -, hgap⟩ := exists_promotion_after_gap
  exact h _ _ n i [] Settings.default_admitted hr hh hgap hl

end Solo

end ResilientCtp
