import Mathlib.Data.List.Nodup

/-!
# Results collected by key

Jobs that finish in any order leave their results in one map, under a key of each job; a later
result of a key replaces an earlier one. The map gives every job its own result back exactly if
the keys are distinct (`lossless_iff`), where results of different jobs are different.
-/

namespace Collect

variable {α κ β τ : Type}

/-- The results, as the jobs are collected. -/
def collect (key : α → κ) (val : α → β) (jobs : List α) : List (κ × β) :=
  jobs.foldl (fun d a => (key a, val a) :: d) []

/-- Every job finds its own result. -/
def Lossless [DecidableEq κ] (key : α → κ) (val : α → β) (pool jobs : List α) : Prop :=
  ∀ a ∈ jobs, (collect key val pool).lookup (key a) = some (val a)

variable {key : α → κ} {val : α → β} {pool jobs : List α} {a : α}

theorem collect_eq : collect key val jobs = (jobs.map fun a => (key a, val a)).reverse := by
  have h : ∀ d, jobs.foldl (fun d a => (key a, val a) :: d) d =
      (jobs.map fun a => (key a, val a)).reverse ++ d := by
    induction jobs with
    | nil => exact fun d => rfl
    | cons a jobs ih =>
      intro d
      rw [List.foldl_cons, ih, List.map_cons, List.reverse_cons, List.append_assoc]
      rfl
  rw [collect, h, List.append_nil]

variable [DecidableEq κ]

theorem lookup_of_mem {d : List (κ × β)} {k : κ} {v : β} (hn : (d.map Prod.fst).Nodup)
    (h : (k, v) ∈ d) : d.lookup k = some v := by
  induction d with
  | nil => cases h
  | cons kv d ih =>
    rw [List.map_cons, List.nodup_cons] at hn
    rcases List.mem_cons.mp h with rfl | h
    · exact List.lookup_cons_self
    · have hne : k ≠ kv.1 := by
        rintro rfl
        exact hn.1 (List.mem_map.mpr ⟨_, h, rfl⟩)
      rw [List.lookup_cons, beq_eq_false_iff_ne.mpr hne]
      exact ih hn.2 h

theorem lossless_of_nodup (hp : pool.Perm jobs) (hn : (jobs.map key).Nodup) :
    Lossless key val pool jobs := by
  intro a ha
  apply lookup_of_mem
  · have hkeys : (collect key val pool).map Prod.fst = (pool.map key).reverse := by
      rw [collect_eq, List.map_reverse, List.map_map]
      rfl
    rw [hkeys, List.nodup_reverse]
    exact (hp.map key).nodup_iff.mpr hn
  · rw [collect_eq, List.mem_reverse]
    exact List.mem_map.mpr ⟨a, hp.mem_iff.mpr ha, rfl⟩

/-- **No result is lost or swapped** exactly if the keys are distinct; `tag` tells the results of
different jobs apart. -/
theorem lossless_iff (tag : β → τ) (htag : (jobs.map fun a => tag (val a)).Nodup)
    (hp : pool.Perm jobs) : Lossless key val pool jobs ↔ (jobs.map key).Nodup := by
  refine ⟨fun h => ?_, lossless_of_nodup hp⟩
  -- the tag of a job is a function of its key
  have he : (jobs.map key).map (fun k => ((collect key val pool).lookup k).map tag) =
      (jobs.map fun a => tag (val a)).map some := by
    rw [List.map_map, List.map_map]
    refine List.map_congr_left fun a ha => ?_
    show ((collect key val pool).lookup (key a)).map tag = some (tag (val a))
    rw [h a ha, Option.map_some]
  have hn := htag.map fun _ _ => Option.some.inj
  rw [← he] at hn
  exact hn.of_map _

end Collect
