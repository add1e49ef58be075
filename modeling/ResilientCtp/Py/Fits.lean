import ResilientCtp.Py.Null

/-!
# Values of a type

A value fits a schema when its parts are of the types that the schema names. A field may be
absent, and an object may have others. A read of a field that the schema names then returns: its
default, or a value that fits (`Fits.get`); after a guard (`v.get(k, d) or d`) the value fits in
both cases (`Fits.getOr`).
-/

namespace Py

namespace Value

/-- A text, a number, a truth value or a null. -/
def isScalar : Value → Bool
  | list _ | dict _ => false
  | _ => true

end Value

/-- The value is of the type of the schema. -/
inductive Fits : Schema → Value → Prop
  | scalar {v : Value} : v.isScalar = true → Fits .scalar v
  | list {s : Schema} {xs : List Value} : (∀ x ∈ xs, Fits s x) → Fits (.list s) (.list xs)
  | map {s : Schema} {d : Dict} : (∀ k v, Dict.get? d k = some v → Fits s v) →
      Fits (.map s) (.dict d)
  | object {fields : List (String × Schema)} {d : Dict} :
      (∀ k s v, fields.lookup k = some s → Dict.get? d k = some v → Fits s v) →
      Fits (.object fields) (.dict d)

variable {s t : Schema} {v x : Value} {k : String} {d e : Value}

/-- What the empty value of a container fits. -/
theorem Fits.empty (ht : t ≠ .scalar) : Fits t t.empty := by
  cases t with
  | scalar => exact absurd rfl ht
  | list s => exact .list nofun
  | map s => exact .map fun k v h => by cases h
  | object fields => exact .object fun k s v _ h => by cases h

/-- A container, or its empty value in place of a false one. -/
theorem Fits.or_empty (h : Fits t x) (ht : t ≠ .scalar) : x.or t.empty = x := by
  cases h with
  | scalar => exact absurd rfl ht
  | list => exact Value.list_or_nil _
  | map => exact Value.dict_or_nil _
  | object => exact Value.dict_or_nil _

/-- **A read returns** its default, or a value that fits. -/
theorem Fits.get (h : Fits s v) (hk : s.field k = some t) (d : Value) :
    ∃ x, v.get k d = .ok x ∧ (x = d ∨ Fits t x) := by
  cases h with
  | scalar => cases hk
  | list => cases hk
  | @map s m hm =>
    cases hk
    refine ⟨_, rfl, ?_⟩
    rw [Dict.getD]
    cases hx : Dict.get? m k with
    | none => exact .inl rfl
    | some x => exact .inr (hm k x hx)
  | @object fields m hm =>
    refine ⟨_, rfl, ?_⟩
    rw [Dict.getD]
    cases hx : Dict.get? m k with
    | none => exact .inl rfl
    | some x => exact .inr (hm k t x hk hx)

/-- A read whose default is the empty container returns a value that fits. -/
theorem Fits.get_empty (h : Fits s v) (hk : s.field k = some t) (ht : t ≠ .scalar)
    (hd : t.empty = d) : ∃ x, v.get k d = .ok x ∧ Fits t x := by
  obtain ⟨x, hx, rfl | hfit⟩ := h.get hk d
  · exact ⟨x, hx, hd ▸ .empty ht⟩
  · exact ⟨x, hx, hfit⟩

/-- **A guarded read returns** a value that fits. -/
theorem Fits.getOr (h : Fits s v) (hk : s.field k = some t) (ht : t ≠ .scalar)
    (he : t.empty = e) (hd : d.or e = e) : ∃ x, v.getOr k d e = .ok x ∧ Fits t x := by
  subst he
  obtain ⟨x, hx, hfit⟩ := h.get hk d
  refine ⟨x.or t.empty, by rw [Value.getOr, hx]; rfl, ?_⟩
  rcases hfit with rfl | hfit
  · rw [hd]
    exact .empty ht
  · rw [hfit.or_empty ht]
    exact hfit

theorem Fits.asList (h : Fits (.list s) v) : ∃ xs, v.asList = .ok xs ∧ ∀ x ∈ xs, Fits s x := by
  cases h with
  | list hxs => exact ⟨_, rfl, hxs⟩

theorem Fits.asDict (h : Fits s v) (hs : s.empty = .dict []) (hne : s ≠ .scalar) :
    ∃ d, v = .dict d ∧ v.asDict = .ok d := by
  cases h with
  | scalar => exact absurd rfl hne
  | list => cases hs
  | map => exact ⟨_, rfl, rfl⟩
  | object => exact ⟨_, rfl, rfl⟩

end Py
