import ResilientCtp.Lib.Lts
import Mathlib.Data.List.Nodup
import Mathlib.Logic.Function.Basic

/-!
# Values built once, under a lock

Callers share a cache. A caller looks its key up without the lock. On a miss it takes the lock and
looks again, and where that misses too it builds the value and stores it; its factory may raise.
`wants i` is the key of caller `i` and what its own factory builds.

* `Step`: one access of the cache or the lock; the callers' steps interleave freely.
* `once`: a key is stored once, so what is stored stays (`kept`).
* `done_eq`: a caller gets what some caller of the same key builds.
* `own_iff`: every caller gets what it would build itself, in every run, exactly if callers of one
  key build the same (`Coherent`).
* `getOrBuild`: the same in sequence; a caller that runs alone does that (`alone`).
-/

namespace Memo

variable {ι κ γ ε : Type}

/-- Where a caller is. -/
inductive Phase (γ ε : Type) where
  | idle
  /-- The lookup without the lock missed. -/
  | missed
  /-- It holds the lock, before the second lookup. -/
  | entered
  /-- It holds the lock and its factory runs. -/
  | building
  /-- It holds the lock and the value. -/
  | storing (c : γ)
  /-- It holds the lock and has its result. -/
  | leaving (r : Except ε γ)
  | done (r : Except ε γ)

namespace Phase

def holds : Phase γ ε → Bool
  | entered | building | storing _ | leaving _ => true
  | idle | missed | done _ => false

/-- Between the second lookup and the store. -/
def builds : Phase γ ε → Bool
  | building | storing _ => true
  | _ => false

/-- The value that the caller returns. -/
def result : Phase γ ε → Option (Except ε γ)
  | leaving r | done r => some r
  | _ => none

end Phase

inductive Act (ε : Type) where
  | lookup
  | acquire
  | recheck
  /-- The factory ends, by the exception if one is raised. -/
  | build (raised : Option ε)
  | store
  | release

structure State (ι κ γ ε : Type) where
  /-- What was stored, newest first. -/
  cache : List (κ × γ)
  lock : Option ι
  phase : ι → Phase γ ε

section

variable [DecidableEq ι]

/-- Caller `i` goes on to `p`. -/
def State.move (s : State ι κ γ ε) (i : ι) (p : Phase γ ε) : State ι κ γ ε :=
  { s with phase := Function.update s.phase i p }

variable (s : State ι κ γ ε) (i : ι) (p : Phase γ ε)

@[simp] theorem State.move_cache : (s.move i p).cache = s.cache := rfl

@[simp] theorem State.move_lock : (s.move i p).lock = s.lock := rfl

@[simp] theorem State.move_phase : (s.move i p).phase i = p := Function.update_self ..

theorem State.move_phase_ne {j : ι} (h : j ≠ i) : (s.move i p).phase j = s.phase j :=
  Function.update_of_ne h ..

end

section

variable [DecidableEq ι] [DecidableEq κ]

/-- One step of a caller. -/
inductive Step (wants : ι → Option (κ × γ)) :
    State ι κ γ ε → ι × Act ε → State ι κ γ ε → Prop
  | hit {s i k b c} : s.phase i = .idle → wants i = some (k, b) → s.cache.lookup k = some c →
      Step wants s (i, .lookup) (s.move i (.done (.ok c)))
  | miss {s i k b} : s.phase i = .idle → wants i = some (k, b) → s.cache.lookup k = none →
      Step wants s (i, .lookup) (s.move i .missed)
  | acquire {s i} : s.phase i = .missed → s.lock = none →
      Step wants s (i, .acquire) { s.move i .entered with lock := some i }
  | rehit {s i k b c} : s.phase i = .entered → wants i = some (k, b) →
      s.cache.lookup k = some c → Step wants s (i, .recheck) (s.move i (.leaving (.ok c)))
  | remiss {s i k b} : s.phase i = .entered → wants i = some (k, b) → s.cache.lookup k = none →
      Step wants s (i, .recheck) (s.move i .building)
  | raise {s i} (e : ε) : s.phase i = .building →
      Step wants s (i, .build (some e)) (s.move i (.leaving (.error e)))
  | build {s i k b} : s.phase i = .building → wants i = some (k, b) →
      Step wants s (i, .build none) (s.move i (.storing b))
  | store {s i k b c} : s.phase i = .storing c → wants i = some (k, b) →
      Step wants s (i, .store) { s.move i (.leaving (.ok c)) with cache := (k, c) :: s.cache }
  | release {s i r} : s.phase i = .leaving r →
      Step wants s (i, .release) { s.move i (.done r) with lock := none }

/-- The callers, from an empty cache. -/
def system (wants : ι → Option (κ × γ)) : Lts.System (State ι κ γ ε) (ι × Act ε) where
  init s := s = { cache := [], lock := none, phase := fun _ => .idle }
  step := Step wants

variable {wants : ι → Option (κ × γ)} {s s' : State ι κ γ ε} {i j : ι} {k : κ} {b c : γ}

/-- A step leaves the other callers where they are. -/
theorem Step.phase_ne {a : ι × Act ε} (h : Step wants s a s') (hj : j ≠ a.1) :
    s'.phase j = s.phase j := by
  cases h <;> exact State.move_phase_ne _ _ _ hj

/-! ## The lock -/

/-- Whoever is inside holds the lock. -/
theorem locked_inductive : (system wants).Inductive
    fun s : State ι κ γ ε => ∀ i, (s.phase i).holds = true → s.lock = some i where
  init := by
    rintro s rfl i hi
    cases hi
  step := by
    rintro s ⟨i, a⟩ s' - ih hst j hj
    by_cases hji : j = i
    · subst hji
      cases hst with
      | hit | miss | release => simp [Phase.holds] at hj
      | acquire => rfl
      | rehit hp | remiss hp | raise e hp | build hp | store hp =>
        exact ih j (by rw [hp]; rfl)
    · rw [hst.phase_ne hji] at hj
      have hlock := ih j hj
      cases hst with
      | acquire _ hfree =>
        rw [hfree] at hlock
        cases hlock
      | release hp =>
        have := ih i (by rw [hp]; rfl)
        rw [this] at hlock
        cases hlock
        exact absurd rfl hji
      | _ => exact hlock

/-- At most one caller is inside. -/
theorem holder_unique (hs : (system wants).Reach s) (hi : (s.phase i).holds = true)
    (hj : (s.phase j).holds = true) : i = j := by
  have h1 := locked_inductive.reach hs i hi
  have h2 := locked_inductive.reach hs j hj
  rw [h1] at h2
  exact Option.some.inj h2

/-! ## The cache -/

theorem holds_of_builds {p : Phase γ ε} (h : p.builds = true) : p.holds = true := by
  cases p with
  | building | storing => rfl
  | _ => cases h

/-- Nothing is stored under the key of a caller that builds. -/
theorem fresh_inductive : (system wants).Inductive
    fun s : State ι κ γ ε => ∀ i k b, wants i = some (k, b) → (s.phase i).builds = true →
      s.cache.lookup k = none where
  init := by
    rintro s rfl i k b - hi
    cases hi
  step := by
    rintro s ⟨i, a⟩ s' hs ih hst j k b hw hj
    by_cases hji : j = i
    · subst hji
      cases hst with
      | remiss _ hw' hmiss =>
        cases hw.symm.trans hw'
        exact hmiss
      | build hp => exact ih j k b hw (by rw [hp]; rfl)
      | _ => simp [Phase.builds] at hj
    · rw [hst.phase_ne hji] at hj
      have hmiss := ih j k b hw hj
      cases hst with
      | store hp =>
        -- the caller that stores holds the lock, so no other one builds
        exact absurd (holder_unique hs (holds_of_builds hj) (by rw [hp]; rfl)) hji
      | _ => exact hmiss

/-- A store is of a key that is not there yet. -/
theorem Step.cache_cases {a : ι × Act ε} (hs : (system wants).Reach s) (h : Step wants s a s') :
    s'.cache = s.cache ∨ ∃ k c, s.cache.lookup k = none ∧ s'.cache = (k, c) :: s.cache ∧
      s.phase a.1 = .storing c ∧ ∃ b, wants a.1 = some (k, b) := by
  cases h with
  | store hp hw =>
    exact .inr ⟨_, _, fresh_inductive.reach hs _ _ _ hw (by rw [hp]; rfl), rfl, hp, _, hw⟩
  | _ => exact .inl rfl

/-- **Once.** No key is stored twice. -/
theorem once (hs : (system wants).Reach s) : (s.cache.map Prod.fst).Nodup := by
  induction hs with
  | init hi =>
    cases hi
    exact List.nodup_nil
  | step hr hst ih =>
    rcases Step.cache_cases hr hst with e | ⟨k, c, hmiss, e, -⟩
    · rw [e]
      exact ih
    · rw [e, List.map_cons, List.nodup_cons]
      refine ⟨fun hmem => ?_, ih⟩
      obtain ⟨kv, hkv, hk⟩ := List.mem_map.mp hmem
      have hne := List.lookup_eq_none_iff.mp hmiss kv hkv
      simp [hk] at hne

/-- **Kept.** What is stored under a key stays. -/
theorem Step.kept {a : ι × Act ε} (hs : (system wants).Reach s) (h : Step wants s a s')
    (hk : s.cache.lookup k = some c) : s'.cache.lookup k = some c := by
  rcases h.cache_cases hs with e | ⟨k', c', hmiss, e, -⟩
  · rw [e]
    exact hk
  · have hne : k ≠ k' := by
      rintro rfl
      rw [hmiss] at hk
      cases hk
    rw [e, List.lookup_cons, beq_eq_false_iff_ne.mpr hne]
    exact hk

/-! ## What a caller gets -/

/-- Where the values come from. -/
structure Sourced (wants : ι → Option (κ × γ)) (s : State ι κ γ ε) : Prop where
  entry : ∀ k c, s.cache.lookup k = some c → ∃ i, wants i = some (k, c)
  storing : ∀ i c, s.phase i = .storing c → ∃ k, wants i = some (k, c)
  result : ∀ i c, (s.phase i).result = some (.ok c) →
    ∃ k b, wants i = some (k, b) ∧ s.cache.lookup k = some c

theorem sourced_inductive :
    (system wants).Inductive fun s : State ι κ γ ε => Sourced wants s where
  init := by
    rintro s rfl
    exact ⟨nofun, nofun, nofun⟩
  step := by
    rintro s ⟨i, a⟩ s' hs ih hst
    refine ⟨fun k c hk => ?_, fun j c hj => ?_, fun j c hj => ?_⟩
    · rcases hst.cache_cases hs with e | ⟨k', c', -, e, hp, b, hw⟩
      · rw [e] at hk
        exact ih.entry k c hk
      · rw [e, List.lookup_cons] at hk
        split at hk
        · next hkk =>
          cases hk
          obtain ⟨k'', hk''⟩ := ih.storing i _ hp
          cases hw.symm.trans hk''
          exact ⟨i, by rw [eq_of_beq hkk]; exact hk''⟩
        · exact ih.entry k c hk
    · by_cases hji : j = i
      · subst hji
        cases hst with
        | build hp hw =>
          rw [State.move_phase] at hj
          cases hj
          exact ⟨_, hw⟩
        | _ => simp at hj
      · rw [hst.phase_ne hji] at hj
        exact ih.storing j c hj
    · by_cases hji : j = i
      · subst hji
        cases hst with
        | hit hp hw hc | rehit hp hw hc =>
          rw [State.move_phase] at hj
          cases hj
          exact ⟨_, _, hw, hc⟩
        | store hp hw =>
          simp only [State.move_phase, Phase.result, Option.some.injEq, Except.ok.injEq] at hj
          cases hj
          exact ⟨_, _, hw, List.lookup_cons_self⟩
        | release hp =>
          simp only [State.move_phase, Phase.result, Option.some.injEq] at hj
          cases hj
          exact ih.result j c (by rw [hp]; rfl)
        | _ => simp [Phase.result] at hj
      · rw [hst.phase_ne hji] at hj
        obtain ⟨k, b, hw, hc⟩ := ih.result j c hj
        exact ⟨k, b, hw, hst.kept hs hc⟩

/-- **Source.** A caller gets what some caller of the same key builds. -/
theorem done_eq (hs : (system wants).Reach s) (hc : s.phase i = .done (.ok c)) :
    ∃ k b j, wants i = some (k, b) ∧ wants j = some (k, c) := by
  have hsourced := sourced_inductive.reach hs
  obtain ⟨k, b, hw, hk⟩ := hsourced.result i c (by rw [hc]; rfl)
  obtain ⟨j, hj⟩ := hsourced.entry k c hk
  exact ⟨k, b, j, hw, hj⟩

/-- A result is final. -/
theorem result_final {r : Except ε γ} {t : State ι κ γ ε} (hr : (s.phase i).result = some r)
    (ht : ((system wants).startingAt s).Reach t) : (t.phase i).result = some r := by
  induction ht with
  | init hi =>
    cases hi
    exact hr
  | @step t t' a _ hst ih =>
    change Step wants t a t' at hst
    by_cases hi : i = a.1
    · subst hi
      cases hst with
      | release hp =>
        rw [hp] at ih
        simpa [Phase.result] using ih
      | hit hp | miss hp | acquire hp | rehit hp | remiss hp | raise e hp | build hp | store hp =>
        rw [hp] at ih
        cases ih
    · rw [hst.phase_ne hi]
      exact ih

/-! ## In sequence -/

/-- A caller's lookup, and its build on a miss, with nothing in between. -/
def getOrBuild (want : κ × γ) (raised : Option ε) (cache : List (κ × γ)) :
    Except ε γ × List (κ × γ) :=
  match cache.lookup want.1 with
  | some c => (.ok c, cache)
  | none =>
    match raised with
    | some e => (.error e, cache)
    | none => (.ok want.2, want :: cache)

/-- **Alone.** A caller that runs while no other one takes a step does the same. -/
theorem alone {want : κ × γ} (hs : (system wants).Reach s) (hi : s.phase i = .idle)
    (hl : s.lock = none) (hw : wants i = some want) (raised : Option ε) :
    ∃ t, (system wants).Reach t ∧ t.cache = (getOrBuild want raised s.cache).2 ∧ t.lock = none ∧
      t.phase i = .done (getOrBuild want raised s.cache).1 ∧ ∀ j ≠ i, t.phase j = s.phase j := by
  unfold getOrBuild
  cases hk : s.cache.lookup want.1 with
  | some c =>
    exact ⟨_, hs.step (.hit hi hw hk), rfl, hl, State.move_phase ..,
      fun j hj => s.move_phase_ne i _ hj⟩
  | none =>
    have h1 := hs.step (.miss hi hw hk)
    have h2 := h1.step (.acquire (State.move_phase ..) hl)
    have h3 := h2.step (.remiss (State.move_phase ..) hw hk)
    cases raised with
    | some e =>
      have h4 := h3.step (.raise e (State.move_phase ..))
      have h5 := h4.step (.release (State.move_phase ..))
      refine ⟨_, h5, rfl, rfl, State.move_phase .., fun j hj => ?_⟩
      simp [State.move, Function.update_of_ne hj]
    | none =>
      have h4 := h3.step (.build (State.move_phase ..) hw)
      have h5 := h4.step (.store (State.move_phase ..) hw)
      have h6 := h5.step (.release (State.move_phase ..))
      refine ⟨_, h6, rfl, rfl, State.move_phase .., fun j hj => ?_⟩
      simp [State.move, Function.update_of_ne hj]

/-! ## Transparency -/

/-- Callers of one key build the same. -/
def Coherent (wants : ι → Option (κ × γ)) : Prop :=
  ∀ i j k b c, wants i = some (k, b) → wants j = some (k, c) → b = c

/-- **Transparency.** Every caller gets what it would build itself, in every run, exactly if
callers of one key build the same. -/
theorem own_iff : (∀ s : State ι κ γ ε, (system wants).Reach s → ∀ i c,
    s.phase i = .done (.ok c) → ∃ k, wants i = some (k, c)) ↔ Coherent wants := by
  constructor
  · intro h i j k b c hi hj
    by_cases hij : j = i
    · subst hij
      cases hi.symm.trans hj
      rfl
    -- `i` builds and stores, then `j` looks up
    have h₀ : (system wants).Reach ({ cache := [], lock := none, phase := fun _ => .idle } :
        State ι κ γ ε) := .init rfl
    obtain ⟨s, hs, hcache, hlock, -, hne⟩ := alone h₀ rfl rfl hi none
    obtain ⟨t, ht, -, -, hdone, -⟩ := alone hs (hne j hij) hlock hj none
    rw [getOrBuild, hcache, getOrBuild] at hdone
    simp only [List.lookup_nil, List.lookup_cons_self] at hdone
    obtain ⟨k', hk'⟩ := h t ht j b hdone
    cases hj.symm.trans hk'
    rfl
  · intro h s hs i c hc
    obtain ⟨k, b, j, hi, hj⟩ := done_eq hs hc
    cases h i j k b c hi hj
    exact ⟨k, hi⟩

end

end Memo
