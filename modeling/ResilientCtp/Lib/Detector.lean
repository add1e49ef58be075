import Mathlib.Data.List.Basic

/-!
# A failure detector from heartbeats

Processes post beats to a common history, each stamped by its own clock. An observer sees the
newest beat of a process as of some past moment, and trusts the process while that beat is not
older than the time to live, by the clock of the observer.

* `WellFormed`: the history is in order, and a beat is stamped at most `slack` early.
* `Paced`, `Silent`: a process that never pauses for more than `d`, and one that stopped.
* `trusts_of_paced`: accuracy, where the time to live covers the lag, the pause, the slack and the
  skew of the clocks.
* `not_trusts_of_silent`: completeness, a time to live and a skew after the last beat.
-/

namespace Detector

universe u

structure Beat (ι : Type u) where
  who : ι
  stamp : Int
  /-- When the beat was posted, in common time. -/
  posted : Int

/-- The time to live, the slack of the stamps, and the clocks as offsets from the common time. -/
structure Terms (ι : Type u) where
  ttl : Int
  slack : Int
  clock : ι → Int

section

variable {ι : Type u}

/-- A history, newest first. -/
structure WellFormed (T : Terms ι) (h : List (Beat ι)) : Prop where
  sorted : h.Pairwise fun a b => b.posted ≤ a.posted
  stamp_le : ∀ b ∈ h, b.stamp ≤ b.posted + T.clock b.who
  slack : ∀ b ∈ h, b.posted + T.clock b.who - T.slack < b.stamp

/-- From `t` to `now` the process `i` never pauses for more than `d`. -/
def Paced (h : List (Beat ι)) (d : Int) (i : ι) (t now : Int) : Prop :=
  ∀ v, t < v → v ≤ now → ∃ b ∈ h, b.who = i ∧ t ≤ b.posted ∧ b.posted < v ∧ v - b.posted ≤ d

/-- The process `i` posts nothing after `t`. -/
def Silent (h : List (Beat ι)) (i : ι) (t : Int) : Prop := ∀ b ∈ h, b.who = i → b.posted ≤ t

/-- The clocks differ by at most `skew`. -/
def Skew (T : Terms ι) (skew : Int) (is : ι → Prop) : Prop :=
  ∀ i j, is i → is j → T.clock i - T.clock j ≤ skew

variable {T : Terms ι} {h h' : List (Beat ι)} {i j : ι} {b x : Beat ι} {d t v now skew : Int}
  {is : ι → Prop}

theorem Paced.mono (hp : Paced h d i t now) {now' : Int} (hle : now' ≤ now) :
    Paced h d i t now' :=
  fun v ht hv => hp v ht (Int.le_trans hv hle)

/-- What was posted before `now` is what paces a process up to `now`. -/
theorem Paced.of_before (hp : Paced h d i t now) (hb : ∀ b ∈ h, b.posted < now → b ∈ h') :
    Paced h' d i t now := by
  intro v ht hv
  obtain ⟨b, hm, hi, htb, hbv, hd⟩ := hp v ht hv
  exact ⟨b, hb b hm (Int.lt_of_lt_of_le hbv hv), hi, htb, hbv, hd⟩

/-- A beat at `now` keeps the pace for another `d`. -/
theorem Paced.extend (hp : Paced h d i t now) (hb : b ∈ h) (hi : b.who = i) (ht : t ≤ b.posted)
    (hnow : b.posted = now) : Paced h d i t (now + d) := by
  intro v htv hv
  by_cases hle : v ≤ now
  · exact hp v htv hle
  · exact ⟨b, hb, hi, ht, by omega, by omega⟩

variable [DecidableEq ι]

/-- What is seen of `i` as of `v`. -/
def visible (h : List (Beat ι)) (i : ι) (v : Int) : Option (Beat ι) :=
  h.find? fun b => decide (b.who = i) && decide (b.posted ≤ v)

/-- At `now` the observer `i`, who sees the history as of `v`, trusts `j`. -/
def Trusts (T : Terms ι) (h : List (Beat ι)) (i j : ι) (v now : Int) : Prop :=
  ∃ b, visible h j v = some b ∧ now + T.clock i - b.stamp ≤ T.ttl

theorem visible_mem (hx : visible h i v = some x) : x ∈ h ∧ x.who = i ∧ x.posted ≤ v := by
  have := List.find?_some hx
  simp only [Bool.and_eq_true, decide_eq_true_eq] at this
  exact ⟨List.mem_of_find?_eq_some hx, this⟩

theorem visible_cons (a : Beat ι) (h : List (Beat ι)) (i : ι) (v : Int) : visible (a :: h) i v =
    if a.who = i ∧ a.posted ≤ v then some a else visible h i v := by
  by_cases hw : a.who = i <;> by_cases hv : a.posted ≤ v <;> simp [visible, hw, hv]

/-- In a history in order the visible beat is at least as new as any other. -/
theorem exists_visible (hs : h.Pairwise fun a b => b.posted ≤ a.posted) (hb : b ∈ h)
    (hv : b.posted ≤ v) : ∃ x, visible h b.who v = some x ∧ b.posted ≤ x.posted := by
  induction h with
  | nil => cases hb
  | cons a h ih =>
    obtain ⟨ha, hs⟩ := List.pairwise_cons.mp hs
    rw [visible_cons]
    rcases List.mem_cons.mp hb with rfl | hb
    · rw [if_pos ⟨rfl, hv⟩]
      exact ⟨b, rfl, Int.le_refl _⟩
    · split
      · exact ⟨a, rfl, ha b hb⟩
      · exact ih hs hb

/-- A paced process is seen within its pace. -/
theorem Paced.visible (hp : Paced h d i t now)
    (hs : h.Pairwise fun a b => b.posted ≤ a.posted) (ht : t < v) (hv : v ≤ now) :
    ∃ x, Detector.visible h i v = some x ∧ t ≤ x.posted ∧ v - x.posted ≤ d := by
  obtain ⟨b, hb, rfl, htb, hbv, hd⟩ := hp v ht hv
  obtain ⟨x, hx, hle⟩ := exists_visible hs hb (Int.le_of_lt hbv)
  exact ⟨x, hx, by omega, by omega⟩

/-- **Accuracy.** A paced process is trusted, also by an observer that sees it `lag` late. -/
theorem trusts_of_paced {lag : Int} (hw : WellFormed T h) (hskew : Skew T skew is) (hi : is i)
    (hj : is j) (httl : lag + d + T.slack + skew ≤ T.ttl) (hp : Paced h d j t now) (ht : t < v)
    (hv : v ≤ now) (hlag : now - lag ≤ v) : Trusts T h i j v now := by
  obtain ⟨x, hx, -, hd⟩ := hp.visible hw.sorted ht hv
  obtain ⟨hxm, rfl, -⟩ := visible_mem hx
  refine ⟨x, hx, ?_⟩
  have h1 := hw.slack x hxm
  have h2 := hskew i x.who hi hj
  omega

/-- **Completeness.** A silent process is not trusted, however late the observer sees it. -/
theorem not_trusts_of_silent (hw : WellFormed T h) (hskew : Skew T skew is) (hi : is i)
    (hj : is j) (hs : Silent h j t) (hlate : t + T.ttl + skew < now) : ¬ Trusts T h i j v now := by
  rintro ⟨x, hx, hle⟩
  obtain ⟨hxm, rfl, -⟩ := visible_mem hx
  have h1 := hw.stamp_le x hxm
  have h2 := hs x hxm rfl
  have h3 := hskew x.who i hj hi
  omega

end

end Detector
