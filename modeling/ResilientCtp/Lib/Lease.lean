import ResilientCtp.Lib.Lts
import Mathlib.Logic.Function.Basic

/-!
# Leases on a shared board

Parties post notes on a board, each over its own last one. A note carries a stamp of its writer's
clock and says whether the writer claims the lease. A party may claim if every other claim on the
board is older than the time to live, by its own clock. A writer may stamp a note early, by less
than `slack`: it renews a claim seldom.

* `Apart`: any two claims were posted more than `ttl - slack` apart, each by its writer's clock.
* `exclusive`: so with `slack + d + skew ≤ ttl` no two parties hold claims that were posted within
  the last `d`.
-/

namespace Lease

universe u

/-- What the parties agree on, and their clocks, as offsets from a common time. -/
structure Terms (ι : Type u) where
  ttl : Int
  slack : Int
  clock : ι → Int

structure Note where
  stamp : Int
  claim : Bool
  /-- When the note was posted, in common time; no party reads it. -/
  posted : Int

structure Board (ι : Type u) where
  now : Int
  note : ι → Option Note

inductive Move (ι : Type u) where
  | tick (t : Int)
  | post (i : ι) (n : Note)

section

variable {ι : Type u} [DecidableEq ι]

/-- The board after `i` posted `n`. -/
def Board.post (b : Board ι) (i : ι) (n : Note) : Board ι :=
  { b with note := Function.update b.note i (some n) }

@[simp] theorem Board.post_note (b : Board ι) (i : ι) (n : Note) : (b.post i n).note i = some n :=
  Function.update_self ..

theorem Board.post_note_ne (b : Board ι) {i j : ι} (n : Note) (h : j ≠ i) :
    (b.post i n).note j = b.note j :=
  Function.update_of_ne h ..

variable (T : Terms ι)

/-- Party `i` may post the note `n`. -/
structure MayPost (b : Board ι) (i : ι) (n : Note) : Prop where
  posted : n.posted = b.now
  stamp : b.now + T.clock i - T.slack < n.stamp
  claim : n.claim = true → ∀ j ≠ i, ∀ m, b.note j = some m → m.claim = true →
    T.ttl < b.now + T.clock i - m.stamp

/-- The board, from one without notes. -/
def board : Lts.System (Board ι) (Move ι) where
  init b := ∀ i, b.note i = none
  step b a b' := match a with
    | .tick t => b.now ≤ t ∧ b' = { b with now := t }
    | .post i n => MayPost T b i n ∧ b' = b.post i n

/-- Every note is past and was stamped within the slack. -/
def Stamped (b : Board ι) : Prop :=
  ∀ i n, b.note i = some n → n.posted ≤ b.now ∧ n.posted + T.clock i - T.slack < n.stamp

/-- Two claims are more than `ttl - slack` apart. -/
def Apart (b : Board ι) : Prop :=
  ∀ i j, i ≠ j → ∀ n m, b.note i = some n → b.note j = some m → n.claim = true → m.claim = true →
    T.ttl - T.slack < (m.posted + T.clock j) - (n.posted + T.clock i) ∨
      T.ttl - T.slack < (n.posted + T.clock i) - (m.posted + T.clock j)

theorem stamped_inductive : (board T).Inductive (Stamped T) where
  init b hb i n hn := by rw [hb i] at hn; cases hn
  step := by
    rintro b a b' - ih hst
    cases a with
    | tick t =>
      obtain ⟨ht, rfl⟩ := hst
      intro i n hn
      exact ⟨Int.le_trans (ih i n hn).1 ht, (ih i n hn).2⟩
    | post j x =>
      obtain ⟨hx, rfl⟩ := hst
      intro i n hn
      by_cases hij : i = j
      · subst hij
        rw [Board.post_note, Option.some.injEq] at hn
        subst hn
        exact ⟨Int.le_of_eq hx.posted, by rw [hx.posted]; exact hx.stamp⟩
      · rw [Board.post_note_ne _ _ hij] at hn
        exact ih i n hn

theorem apart_inductive : (board T).Inductive (Apart T) where
  init b hb i j _ n m hn := by rw [hb i] at hn; cases hn
  step := by
    rintro b a b' hr ih hst
    cases a with
    | tick t =>
      obtain ⟨-, rfl⟩ := hst
      exact ih
    | post k x =>
      obtain ⟨hx, rfl⟩ := hst
      -- a new claim is more than the TTL after the stamp of any other
      have key : ∀ j, j ≠ k → ∀ m, b.note j = some m → x.claim = true → m.claim = true →
          T.ttl - T.slack < (x.posted + T.clock k) - (m.posted + T.clock j) := by
        intro j hj m hm hxc hmc
        have h1 := hx.claim hxc j hj m hm hmc
        have h2 := (stamped_inductive T).reach hr j m hm
        have h3 := hx.posted
        omega
      intro i j hij n m hn hm hnc hmc
      by_cases hi : i = k
      · subst hi
        rw [Board.post_note, Option.some.injEq] at hn
        rw [Board.post_note_ne _ _ (Ne.symm hij)] at hm
        subst hn
        exact .inr (key j (Ne.symm hij) m hm hnc hmc)
      · rw [Board.post_note_ne _ _ hi] at hn
        by_cases hj : j = k
        · subst hj
          rw [Board.post_note, Option.some.injEq] at hm
          subst hm
          exact .inl (key i hi n hn hmc hnc)
        · rw [Board.post_note_ne _ _ hj] at hm
          exact ih i j hij n m hn hm hnc hmc

/-- **Exclusion.** -/
theorem exclusive {skew d : Int} (hd : T.slack + d + skew ≤ T.ttl) {b : Board ι}
    (hb : (board T).Reach b) {i j : ι} (hij : i ≠ j) (hskew : T.clock i - T.clock j ≤ skew)
    (hskew' : T.clock j - T.clock i ≤ skew) {n m : Note} (hn : b.note i = some n)
    (hm : b.note j = some m) (hnc : n.claim = true) (hmc : m.claim = true)
    (hnd : b.now - n.posted ≤ d) : ¬ b.now - m.posted ≤ d := by
  intro hmd
  have h1 := ((stamped_inductive T).reach hb i n hn).1
  have h2 := ((stamped_inductive T).reach hb j m hm).1
  rcases (apart_inductive T).reach hb i j hij n m hn hm hnc hmc with h | h <;> omega

end

end Lease
