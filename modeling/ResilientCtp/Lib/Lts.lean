/-!
# Transition systems

A system is its initial states and its labelled steps. A claim about every run is a claim about
every reachable state, so a state that has to speak of the past records it.

* `System.Reach`: the states that a run reaches.
* `System.Inductive`: an invariant, by its step.
* `System.restrict`: the runs whose steps all meet a condition; `System.startingAt`: those that go
  on from a state.
* `System.Refines`: a refinement mapping; a step maps to a step or to nothing.
* `System.lockstep`: two systems side by side, for what relates two runs.
* `System.log`: the systems whose state is the log of their labels.
-/

namespace Lts

universe u v

structure System (σ : Type u) (α : Type v) where
  init : σ → Prop
  step : σ → α → σ → Prop

namespace System

variable {σ τ : Type u} {α β : Type v} {S : System σ α} {T : System τ β}

/-- The states that a run reaches. -/
inductive Reach (S : System σ α) : σ → Prop
  | init {s : σ} : S.init s → Reach S s
  | step {s s' : σ} {a : α} : Reach S s → S.step s a s' → Reach S s'

/-- An inductive invariant: it holds initially, and every step from a reachable state keeps it. -/
structure Inductive (S : System σ α) (I : σ → Prop) : Prop where
  init : ∀ s, S.init s → I s
  step : ∀ s a s', S.Reach s → I s → S.step s a s' → I s'

theorem Inductive.reach {I : σ → Prop} (h : S.Inductive I) {s : σ} (hs : S.Reach s) : I s := by
  induction hs with
  | init hi => exact h.init _ hi
  | step hr hst ih => exact h.step _ _ _ hr ih hst

/-! ## Restriction -/

/-- The runs of `S` whose steps all meet `C`. -/
def restrict (S : System σ α) (C : σ → α → Prop) : System σ α where
  init := S.init
  step s a s' := S.step s a s' ∧ C s a

theorem Reach.of_restrict {C : σ → α → Prop} {s : σ} (h : (S.restrict C).Reach s) : S.Reach s := by
  induction h with
  | init hi => exact .init hi
  | step _ hst ih => exact .step ih hst.1

/-- A run whose steps meet `C` is one of the restricted system. -/
theorem Reach.to_restrict {C : σ → α → Prop} {s : σ} (h : S.Reach s)
    (hC : ∀ s a s', S.Reach s → S.step s a s' → C s a) : (S.restrict C).Reach s := by
  induction h with
  | init hi => exact .init hi
  | step hr hst ih => exact .step ih ⟨hst, hC _ _ _ hr hst⟩

theorem Reach.weaken {C D : σ → α → Prop} {s : σ} (h : (S.restrict C).Reach s)
    (hCD : ∀ s a, C s a → D s a) : (S.restrict D).Reach s := by
  induction h with
  | init hi => exact .init hi
  | step _ hst ih => exact .step ih ⟨hst.1, hCD _ _ hst.2⟩

/-- The runs of `S` that go on from `s`. -/
def startingAt (S : System σ α) (s : σ) : System σ α where
  init := (· = s)
  step := S.step

/-! ## Refinement -/

/-- `f` maps the runs of `S` to runs of `T`. -/
structure Refines (S : System σ α) (T : System τ β) (f : σ → τ) : Prop where
  init : ∀ s, S.init s → T.init (f s)
  step : ∀ s a s', S.Reach s → S.step s a s' → f s' = f s ∨ ∃ b, T.step (f s) b (f s')

theorem Refines.reach {f : σ → τ} (h : Refines S T f) {s : σ} (hs : S.Reach s) :
    T.Reach (f s) := by
  induction hs with
  | init hi => exact .init (h.init _ hi)
  | step hr hst ih =>
    rcases h.step _ _ _ hr hst with e | ⟨b, hb⟩
    · rw [e]; exact ih
    · exact .step ih hb

/-! ## Two runs -/

/-- `S` and `T` side by side; each step is one of each, which `L` relates. -/
def lockstep (S : System σ α) (T : System τ β) (L : σ → τ → α → β → Prop) :
    System (σ × τ) (α × β) where
  init p := S.init p.1 ∧ T.init p.2
  step p a p' := S.step p.1 a.1 p'.1 ∧ T.step p.2 a.2 p'.2 ∧ L p.1 p.2 a.1 a.2

theorem Reach.left {L : σ → τ → α → β → Prop} {p : σ × τ} (h : (lockstep S T L).Reach p) :
    S.Reach p.1 := by
  induction h with
  | init hi => exact .init hi.1
  | step _ hst ih => exact .step ih hst.1

theorem Reach.right {L : σ → τ → α → β → Prop} {p : σ × τ} (h : (lockstep S T L).Reach p) :
    T.Reach p.2 := by
  induction h with
  | init hi => exact .init hi.2
  | step _ hst ih => exact .step ih hst.2.1

/-! ## Logs -/

/-- The system whose state is the log of its labels, newest first; `next` says what can follow. -/
def log (next : List α → α → Prop) : System (List α) α where
  init as := as = []
  step as a as' := next as a ∧ as' = a :: as

section Log

variable {next C : List α → α → Prop} {as bs : List α} {a : α}

theorem Reach.head (h : (log next).Reach (a :: as)) : (log next).Reach as ∧ next as a := by
  cases h with
  | init hi => cases hi
  | step hr hst =>
    obtain ⟨hn, e⟩ := hst
    cases e
    exact ⟨hr, hn⟩

/-- What a log was at any time is a log. -/
theorem Reach.suffix (h : (log next).Reach as) (hs : bs <:+ as) : (log next).Reach bs := by
  obtain ⟨later, rfl⟩ := hs
  induction later with
  | nil => exact h
  | cons a later ih => exact ih h.head.1

theorem Reach.entry (h : (log next).Reach as) (ha : a ∈ as) :
    ∃ older, a :: older <:+ as ∧ (log next).Reach older ∧ next older a := by
  obtain ⟨later, older, rfl⟩ := List.append_of_mem ha
  have hs : a :: older <:+ later ++ a :: older := List.suffix_append _ _
  exact ⟨older, hs, (h.suffix hs).head⟩

/-- A restricted log is a log. -/
theorem reach_log_restrict :
    ((log next).restrict C).Reach as ↔ (log fun as a => next as a ∧ C as a).Reach as := by
  constructor
  · intro h
    induction h with
    | init hi => exact .init hi
    | step _ hst ih => exact .step ih ⟨⟨hst.1.1, hst.2⟩, hst.1.2⟩
  · intro h
    induction h with
    | init hi => exact .init hi
    | step _ hst ih => exact .step ih ⟨⟨hst.1.1, hst.2⟩, hst.1.2⟩

theorem Reach.head_restrict (h : ((log next).restrict C).Reach (a :: as)) :
    ((log next).restrict C).Reach as ∧ next as a ∧ C as a := by
  obtain ⟨hr, hn, hc⟩ := (reach_log_restrict.mp h).head
  exact ⟨reach_log_restrict.mpr hr, hn, hc⟩

/-- What the newest label followed. -/
theorem Reach.newest (h : ((log next).restrict C).Reach as) : ∀ a ∈ as.head?, next as.tail a := by
  cases as with
  | nil => exact nofun
  | cons b bs =>
    intro a ha
    cases ha
    exact h.head_restrict.2.1

end Log

end System

end Lts
