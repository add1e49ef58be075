import Mathlib.Tactic.Ring

/-!
# Throttled stamps and spaced events

A writer stamps what it writes with its clock, and keeps the stamp of the mark that it observes
of itself while that is less than a window old and has the same label. What it observes may be
any mark: an old one, none, or one ahead of the clock.

* `stamp_eq`: the stamp is the clock's or the observed one.
* `window_le_of_ne`: under one label a changed stamp is a window away.
* `now_lt_stamp_iff`, `stamp_lt_iff`: when a stamp is ahead of the clock, and when it falls behind
  an earlier one.

Events of a history, newest first, of which any two are at least `w` apart (`Spacing.Spaced`): a
span of time holds at most one more of them than it has windows `w` (`Spacing.length_mul_le`).
-/

namespace Throttle

variable {ρ : Type} [DecidableEq ρ]

structure Mark (ρ : Type) where
  stamp : Int
  label : ρ

/-- The observed mark is kept. -/
def Mark.Kept (m : Mark ρ) (window now : Int) (label : ρ) : Prop :=
  now - m.stamp < window ∧ m.label = label

instance (m : Mark ρ) (window now : Int) (label : ρ) : Decidable (m.Kept window now label) :=
  inferInstanceAs (Decidable (_ ∧ _))

/-- The stamp of a write at `now` under `label`. -/
def stamp (window : Int) (observed : Option (Mark ρ)) (now : Int) (label : ρ) : Int :=
  match observed with
  | some m => if m.Kept window now label then m.stamp else now
  | none => now

variable {window now last : Int} {observed : Option (Mark ρ)} {label : ρ} {m : Mark ρ}

theorem stamp_of_kept (h : m.Kept window now label) :
    stamp window (some m) now label = m.stamp := if_pos h

theorem stamp_of_not_kept (h : ∀ m ∈ observed, ¬ m.Kept window now label) :
    stamp window observed now label = now := by
  cases observed with
  | none => rfl
  | some m => exact if_neg (h m rfl)

theorem stamp_eq (window : Int) (observed : Option (Mark ρ)) (now : Int) (label : ρ) :
    (∃ m ∈ observed, m.Kept window now label ∧ stamp window observed now label = m.stamp) ∨
      ((∀ m ∈ observed, ¬ m.Kept window now label) ∧ stamp window observed now label = now) := by
  by_cases h : ∃ m ∈ observed, m.Kept window now label
  · obtain ⟨m, rfl, hk⟩ := h
    exact .inl ⟨m, rfl, hk, stamp_of_kept hk⟩
  · have hno : ∀ m ∈ observed, ¬ m.Kept window now label := fun m hm hk => h ⟨m, hm, hk⟩
    exact .inr ⟨hno, stamp_of_not_kept hno⟩

/-- **Once a window.** A write that changes the stamp under one label moves it by a window. -/
theorem window_le_of_ne (hl : m.label = label) (hne : stamp window (some m) now label ≠ m.stamp) :
    window ≤ stamp window (some m) now label - m.stamp := by
  by_cases hk : m.Kept window now label
  · exact absurd (stamp_of_kept hk) hne
  · have hold : ¬ now - m.stamp < window := fun h => hk ⟨h, hl⟩
    rw [stamp_of_not_kept fun x hx => by cases hx; exact hk]
    omega

/-- **Ahead of the clock.** Only a mark that was ahead already is kept ahead. -/
theorem now_lt_stamp_iff (hw : 0 ≤ window) :
    now < stamp window observed now label ↔ ∃ m ∈ observed, now < m.stamp ∧ m.label = label := by
  constructor
  · intro h
    rcases stamp_eq window observed now label with ⟨m, hm, hk, e⟩ | ⟨-, e⟩
    · exact ⟨m, hm, e ▸ h, hk.2⟩
    · rw [e] at h
      exact absurd h (Int.lt_irrefl _)
  · rintro ⟨m, rfl, hlt, hl⟩
    have hk : m.Kept window now label := ⟨by omega, hl⟩
    rw [stamp_of_kept hk]
    exact hlt

/-- **Back in time.** The stamp falls behind an earlier one where a mark from before it is kept,
or where none is kept and the clock is behind it too. -/
theorem stamp_lt_iff : stamp window observed now label < last ↔
    (∃ m ∈ observed, m.Kept window now label ∧ m.stamp < last) ∨
      ((∀ m ∈ observed, ¬ m.Kept window now label) ∧ now < last) := by
  constructor
  · intro hlt
    rcases stamp_eq window observed now label with ⟨m, hm, hk, e⟩ | ⟨hno, e⟩
    · exact .inl ⟨m, hm, hk, e ▸ hlt⟩
    · exact .inr ⟨hno, e ▸ hlt⟩
  · rintro (⟨m, rfl, hk, hlt⟩ | ⟨hno, hlt⟩)
    · rw [stamp_of_kept hk]
      exact hlt
    · rw [stamp_of_not_kept hno]
      exact hlt

end Throttle

namespace Spacing

universe u

variable {α : Type u} {time : α → Int} {w lo hi : Int} {as : List α}

/-- Any two events are at least `w` apart. -/
def Spaced (time : α → Int) (w : Int) (as : List α) : Prop :=
  as.Pairwise fun a b => time b + w ≤ time a

theorem Spaced.filter (h : Spaced time w as) (p : α → Bool) : Spaced time w (as.filter p) :=
  List.Pairwise.filter p h

/-- **Few in a span.** -/
theorem length_mul_le (h : Spaced time w as) (hlo : ∀ a ∈ as, lo ≤ time a)
    (hhi : ∀ a ∈ as, time a ≤ hi) (hle : lo ≤ hi + w) : (as.length : Int) * w ≤ hi - lo + w := by
  induction as generalizing hi with
  | nil =>
    rw [List.length_nil, Nat.cast_zero, Int.zero_mul]
    omega
  | cons a as ih =>
    obtain ⟨ha, h⟩ := List.pairwise_cons.mp h
    have h1 := hlo a List.mem_cons_self
    have h2 := hhi a List.mem_cons_self
    -- the others are over a window before `a`
    have h3 : (as.length : Int) * w ≤ time a - w - lo + w :=
      ih h (fun b hb => hlo b (List.mem_cons_of_mem a hb))
        (fun b hb => by have := ha b hb; omega) (by omega)
    have h4 : ((a :: as).length : Int) * w = as.length * w + w := by
      rw [List.length_cons]
      push_cast
      ring
    omega

end Spacing
