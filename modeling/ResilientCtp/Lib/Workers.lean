import Mathlib.Algebra.Order.BigOperators.Group.Finset
import Mathlib.Data.Fintype.BigOperators

/-!
# Jobs on a pool of workers

Jobs wait in a queue. The one that waits longest is taken by a worker that is free first (`Runs`).
If a job takes at most `c` times `T`, it counts `c`: with `n` counted before it and `w` workers, it
starts within `n / w` times `T` (`ends_le`), as some worker has had no more than its share.
-/

namespace Workers

universe u v

/-- A job, with the time that it takes and the time at which it ends. -/
structure Job (τ : Type v) where
  duration : τ
  ends : τ

variable {ι : Type u} {τ : Type v}

/-- The jobs run in their order; `free` says from when on each worker is free. -/
inductive Runs [DecidableEq ι] [Add τ] [LE τ] : (free : ι → τ) → List (Job τ) → Prop
  | nil (free : ι → τ) : Runs free []
  | cons {free : ι → τ} {d : τ} {jobs : List (Job τ)} (i : ι) (first : ∀ j, free i ≤ free j)
      (rest : Runs (Function.update free i (free i + d)) jobs) :
      Runs free (⟨d, free i + d⟩ :: jobs)

/-- The workers have had jobs that count `n` together. -/
def Packed [Fintype ι] [AddMonoid τ] [LE τ] (T : τ) (free : ι → τ) (n : Nat) : Prop :=
  ∃ count : ι → Nat, (∀ i, free i ≤ count i • T) ∧ ∑ i, count i = n

/-- What the jobs count. -/
def load (c : τ → Nat) : List (Job τ) → Nat
  | [] => 0
  | j :: jobs => c j.duration + load c jobs

theorem packed_zero [Fintype ι] [AddMonoid τ] [Preorder τ] (T : τ) :
    Packed T (fun _ : ι => (0 : τ)) 0 :=
  ⟨fun _ => 0, by simp, by simp⟩

section

variable [Fintype ι] [AddCommMonoid τ] [PartialOrder τ] [IsOrderedAddMonoid τ] {T d : τ}
  {free : ι → τ} {n k : Nat} {c : τ → Nat} {pre post : List (Job τ)} {job : Job τ} {i : ι}

/-- Some worker has had no more than its share, so the first one is free by then. -/
theorem Packed.first_le (h : Packed T free n) (hT : 0 ≤ T) (hi : ∀ j, free i ≤ free j) :
    free i ≤ (n / Fintype.card ι) • T := by
  obtain ⟨count, hcount, hsum⟩ := h
  have hcard : 0 < Fintype.card ι := Fintype.card_pos_iff.mpr ⟨i⟩
  obtain ⟨j, -, hj⟩ : ∃ j ∈ Finset.univ, count j < n / Fintype.card ι + 1 := by
    apply Finset.exists_lt_of_sum_lt
    rw [hsum, Finset.sum_const, Finset.card_univ, Nat.nsmul_eq_mul]
    exact Nat.lt_mul_div_succ n hcard
  calc free i ≤ free j := hi j
    _ ≤ count j • T := hcount j
    _ ≤ (n / Fintype.card ι) • T := nsmul_le_nsmul_left hT (Nat.le_of_lt_succ hj)

variable [DecidableEq ι]

theorem Packed.step (h : Packed T free n) (hd : d ≤ k • T) :
    Packed T (Function.update free i (free i + d)) (n + k) := by
  obtain ⟨count, hcount, hsum⟩ := h
  refine ⟨Function.update count i (count i + k), fun j => ?_, ?_⟩
  · by_cases hj : j = i
    · subst hj
      rw [Function.update_self, Function.update_self, add_nsmul]
      exact add_le_add (hcount j) hd
    · rw [Function.update_of_ne hj, Function.update_of_ne hj]
      exact hcount j
  · have hsplit := Finset.sum_update_of_mem (Finset.mem_univ i) count (count i + k)
    have hall := Finset.add_sum_erase Finset.univ count (Finset.mem_univ i)
    rw [hsplit, ← hsum, ← hall, Finset.sdiff_singleton_eq_erase]
    omega

/-- **The end of a job.** -/
theorem ends_le (h : Runs free (pre ++ job :: post)) (hp : Packed T free n) (hT : 0 ≤ T)
    (hc : ∀ j ∈ pre ++ [job], j.duration ≤ c j.duration • T) :
    job.ends ≤ ((n + load c pre) / Fintype.card ι + c job.duration) • T := by
  induction pre generalizing free n with
  | nil =>
    cases h with
    | cons i hi _ =>
      rw [load, add_zero, add_nsmul]
      exact add_le_add (hp.first_le hT hi) (hc _ List.mem_cons_self)
  | cons j pre ih =>
    cases h with
    | cons i _ hrest =>
      have := ih hrest (hp.step (hc _ List.mem_cons_self)) fun x hx =>
        hc x (List.mem_cons_of_mem _ hx)
      rwa [Nat.add_assoc] at this

end

end Workers
