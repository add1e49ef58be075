import ResilientCtp.Py.Value
import Mathlib.Data.List.Forall2

/-!
# A null for an absent field

Two documents that differ in one field, which one of them leaves out and the other sets to null,
and the readers that cannot tell them apart.

* `setNull`: the document with the null, at a path of keys and indices.
* `Schema.has`: the paths that lead to an object, a list, or a field that the schema does not name.
* `UpToNull`: `w` is `v`, or `v` with one such field set to null. A guarded read
  (`v.get(k, d) or d`) keeps this for the value that it gives (`UpToNull.bind_or`), and a text or
  number is read as before (`UpToNull.get_scalar`).
-/

namespace Py

/-- A step from a container to a part of it. -/
inductive Seg where
  | key (k : String)
  | index (i : Nat)
  deriving DecidableEq

abbrev Path := List Seg

/-- `v` with a null at the path, where the path is to an absent field of `v`. -/
def setNull : Path → Value → Option Value
  | [.key k], .dict d => if (Dict.get? d k).isNone then some (.dict (Dict.set d k .null)) else none
  | .key k :: s :: p, .dict d => do
    let w ← setNull (s :: p) (← Dict.get? d k)
    return .dict (Dict.set d k w)
  | .index i :: s :: p, .list xs => do
    let w ← setNull (s :: p) (← xs[i]?)
    return .list (xs.set i w)
  | _, _ => none

/-- The type of a field. An object may have fields besides those that its schema names. -/
inductive Schema where
  | scalar
  | list (elem : Schema)
  | map (entry : Schema)
  | object (fields : List (String × Schema))

namespace Schema

/-- The path leads to no scalar and to nothing inside one. -/
def has : Schema → Path → Bool
  | scalar, _ => false
  | _, [] => true
  | list s, .index _ :: p => s.has p
  | map s, .key _ :: p => s.has p
  | object fields, .key k :: p =>
    match fields.lookup k with
    | some s => s.has p
    | none => true
  | _, _ => false

/-- The schema of the part under a key. -/
def field : Schema → String → Option Schema
  | map s, _ => some s
  | object fields, k => fields.lookup k
  | _, _ => none

/-- What a guarded read puts in place of a missing value. -/
def empty : Schema → Value
  | list _ => .list []
  | _ => .dict []

end Schema

/-- `w` is `v` with the field at `p` set to null. -/
structure IsNulled (s : Schema) (p : Path) (v w : Value) : Prop where
  has : s.has p = true
  set : setNull p v = some w

/-- `w` is `v`, or `v` with a field of the schema set to null. -/
def UpToNull (s : Schema) (v w : Value) : Prop := w = v ∨ ∃ p, IsNulled s p v w

variable {s t : Schema} {p : Path} {v w : Value} {k : String}

theorem UpToNull.refl (s : Schema) (v : Value) : UpToNull s v v := .inl rfl

theorem IsNulled.upToNull (h : IsNulled s p v w) : UpToNull s v w := .inr ⟨p, h⟩

/-! ## The shape -/

theorem setNull_key_nil {d : Dict} (h : setNull [.key k] (.dict d) = some w) :
    Dict.get? d k = none ∧ w = .dict (Dict.set d k .null) := by
  simp only [setNull] at h
  split at h
  · next hn => exact ⟨Option.isNone_iff_eq_none.mp hn, (Option.some.inj h).symm⟩
  · cases h

theorem setNull_key_cons {d : Dict} {q : Seg} (h : setNull (.key k :: q :: p) (.dict d) = some w) :
    ∃ x y, Dict.get? d k = some x ∧ setNull (q :: p) x = some y ∧
      w = .dict (Dict.set d k y) := by
  simp only [setNull, Option.bind_eq_bind, Option.bind_eq_some_iff] at h
  obtain ⟨x, hx, y, hy, e⟩ := h
  exact ⟨x, y, hx, hy, (Option.some.inj e).symm⟩

theorem setNull_nil : setNull [] v = none := by cases v <;> rfl

/-- Only a dictionary has a field that can be set, through a key. -/
theorem setNull_key (h : setNull (.key k :: p) v = some w) : ∃ d, v = .dict d := by
  cases v with
  | dict d => exact ⟨d, rfl⟩
  | _ => cases p <;> simp [setNull] at h

theorem setNull_index {i : Nat} (h : setNull (.index i :: p) v = some w) :
    ∃ xs x y, v = .list xs ∧ xs[i]? = some x ∧ setNull p x = some y ∧ w = .list (xs.set i y) := by
  cases p with
  | nil => simp [setNull] at h
  | cons q p =>
    cases v with
    | list xs =>
      simp only [setNull, Option.bind_eq_bind, Option.bind_eq_some_iff] at h
      obtain ⟨x, hx, y, hy, e⟩ := h
      exact ⟨xs, x, y, rfl, hx, hy, (Option.some.inj e).symm⟩
    | _ => simp [setNull] at h

/-- **Fields.** The field of a key is as before, or the null is there, or inside. -/
theorem setNull_get? {d : Dict} (h : setNull p (.dict d) = some w) : ∃ d', w = .dict d' ∧ ∀ k,
    Dict.get? d' k = Dict.get? d k ∨
      (p = [.key k] ∧ Dict.get? d k = none ∧ Dict.get? d' k = some .null) ∨
      ∃ q x y, p = .key k :: q ∧ Dict.get? d k = some x ∧ Dict.get? d' k = some y ∧
        setNull q x = some y := by
  match p, h with
  | [.key j], h =>
    obtain ⟨hn, rfl⟩ := setNull_key_nil h
    refine ⟨_, rfl, fun k => ?_⟩
    by_cases hk : k = j
    · subst hk
      exact .inr (.inl ⟨rfl, hn, Dict.get?_set_self ..⟩)
    · exact .inl (Dict.get?_set_ne d _ hk)
  | .key j :: q :: p, h =>
    obtain ⟨x, y, hx, hy, rfl⟩ := setNull_key_cons h
    refine ⟨_, rfl, fun k => ?_⟩
    by_cases hk : k = j
    · subst hk
      exact .inr (.inr ⟨_, x, y, rfl, hx, Dict.get?_set_self .., hy⟩)
    · exact .inl (Dict.get?_set_ne d _ hk)
  | .index i :: p, h =>
    obtain ⟨xs, -, -, e, -⟩ := setNull_index h
    cases e
  | [], h => rw [setNull_nil] at h; cases h

/-! ## What the schema says of it -/

theorem Schema.has_key {q : Path} (h : s.has (.key k :: q) = true) (hk : s.field k = some t) :
    t.has q = true := by
  cases s with
  | map s =>
    cases hk
    exact h
  | object fields =>
    change fields.lookup k = some t at hk
    simpa only [Schema.has, hk] using h
  | _ => cases hk

theorem not_isNulled_scalar : ¬ IsNulled .scalar p v w := fun h => by simpa [Schema.has] using h.has

theorem IsNulled.ne_nil (h : IsNulled s p v w) : p ≠ [] := by
  rintro rfl
  have := h.set
  rw [setNull_nil] at this
  cases this

/-- Where the schema has keys the value is a dictionary. -/
theorem IsNulled.dicts (h : IsNulled s p v w) (hs : s.empty = .dict []) :
    ∃ d d', v = .dict d ∧ w = .dict d' := by
  match p, h with
  | .key j :: q, h =>
    obtain ⟨d, rfl⟩ := setNull_key h.set
    obtain ⟨d', rfl, -⟩ := setNull_get? h.set
    exact ⟨d, d', rfl, rfl⟩
  | .index i :: q, h =>
    have := h.has
    cases s <;> simp [Schema.has, Schema.empty] at this hs
  | [], h => exact absurd rfl h.ne_nil

theorem Schema.empty_of_field (hk : s.field k = some t) : s.empty = .dict [] := by
  cases s with
  | map | object => rfl
  | _ => cases hk

theorem IsNulled.fields (h : IsNulled s p v w) (hk : s.field k = some t) :
    ∃ d d', v = .dict d ∧ w = .dict d' ∧ (Dict.get? d' k = Dict.get? d k ∨
      (p = [.key k] ∧ Dict.get? d k = none ∧ Dict.get? d' k = some .null) ∨
      ∃ q x y, p = .key k :: q ∧ Dict.get? d k = some x ∧ Dict.get? d' k = some y ∧
        IsNulled t q x y) := by
  obtain ⟨d, -, rfl, -⟩ := h.dicts (Schema.empty_of_field hk)
  obtain ⟨d', rfl, hget⟩ := setNull_get? h.set
  refine ⟨d, d', rfl, rfl, (hget k).imp_right (Or.imp_right ?_)⟩
  rintro ⟨q, x, y, rfl, hx, hy, hset⟩
  exact ⟨q, x, y, rfl, hx, hy, Schema.has_key h.has hk, hset⟩

/-- Where the schema is a list the value is one, and the null is in one of its elements. -/
theorem IsNulled.elems (h : IsNulled (.list s) p v w) :
    ∃ xs ys, v = .list xs ∧ w = .list ys ∧ List.Forall₂ (UpToNull s) xs ys := by
  match p, h with
  | .index i :: q, h =>
    obtain ⟨xs, x, y, rfl, hx, hy, rfl⟩ := setNull_index h.set
    refine ⟨xs, _, rfl, rfl, ?_⟩
    refine List.forall₂_iff_get.mpr ⟨by simp, fun j hj hj' => ?_⟩
    simp only [List.get_eq_getElem, List.getElem_set]
    split
    · next hij =>
      subst hij
      rw [(List.getElem?_eq_some_iff.mp hx).2]
      exact .inr ⟨q, h.has, hy⟩
    · exact .refl s _
  | .key k :: q, h => exact absurd h.has (by simp [Schema.has])
  | [], h => exact absurd rfl h.ne_nil

theorem IsNulled.or_empty (h : IsNulled s p v w) : v.or s.empty = v ∧ w.or s.empty = w := by
  cases s with
  | scalar => exact absurd h not_isNulled_scalar
  | list s =>
    obtain ⟨xs, ys, rfl, rfl, -⟩ := h.elems
    exact ⟨Value.list_or_nil xs, Value.list_or_nil ys⟩
  | map | object =>
    obtain ⟨d, d', rfl, rfl⟩ := h.dicts rfl
    exact ⟨Value.dict_or_nil d, Value.dict_or_nil d'⟩

/-! ## Reading -/

/-- `v.get(k, dflt) or e`. -/
def Value.getOr (v : Value) (k : String) (dflt e : Value) : Except Err Value := do
  return (← v.get k dflt).or e

/-- A guarded read gives the same of both, or its value has the null inside. -/
theorem IsNulled.getOr {d e : Value} (h : IsNulled s p v w) (hk : s.field k = some t)
    (he : t.empty = e) (hd : d.or e = e) : ∃ x y, v.getOr k d e = .ok x ∧
      w.getOr k d e = .ok y ∧ (y = x ∨ ∃ q, p = .key k :: q ∧ IsNulled t q x y) := by
  subst he
  obtain ⟨m, m', rfl, rfl, hget | ⟨-, hn, hnull⟩ | ⟨q, x, y, hp, hx, hy, hin⟩⟩ := h.fields hk
  · refine ⟨_, _, rfl, rfl, .inl ?_⟩
    rw [Dict.getD, Dict.getD, hget]
  · refine ⟨_, _, rfl, rfl, .inl ?_⟩
    rw [Dict.getD, Dict.getD, hn, hnull, Option.getD_none, Option.getD_some, hd]
    rfl
  · refine ⟨_, _, rfl, rfl, .inr ⟨q, hp, ?_⟩⟩
    rw [Dict.getD, Dict.getD, hx, hy, Option.getD_some, Option.getD_some, hin.or_empty.1,
      hin.or_empty.2]
    exact hin

/-- **Guarded reads.** What cannot tell the parts apart cannot tell the wholes apart. -/
theorem UpToNull.bind_or {β : Type} {F G : Value → Except Err β} {d e : Value}
    (h : UpToNull s v w) (hk : s.field k = some t) (he : t.empty = e) (hd : d.or e = e)
    (hF : ∀ x y, UpToNull t x y → G y = F x) :
    (w.getOr k d e >>= G) = v.getOr k d e >>= F := by
  rcases h with rfl | ⟨p, h⟩
  · cases hr : w.getOr k d e with
    | error e => rfl
    | ok x => exact hF x x (.refl t x)
  obtain ⟨x, y, hx, hy, hxy⟩ := h.getOr hk he hd
  rw [hx, hy, ok_bind, ok_bind]
  rcases hxy with rfl | ⟨q, -, hin⟩
  · exact hF y y (.refl t y)
  · exact hF x y hin.upToNull

/-- A read without a guard gives the same of both, or the null is there, or inside. -/
theorem IsNulled.get {d : Value} (h : IsNulled s p v w) (hk : s.field k = some t) :
    w.get k d = v.get k d ∨ (p = [.key k] ∧ w.get k d = .ok .null) ∨
      ∃ q x y, p = .key k :: q ∧ v.get k d = .ok x ∧ w.get k d = .ok y ∧ IsNulled t q x y := by
  obtain ⟨m, m', rfl, rfl, hget | ⟨hp, -, hnull⟩ | ⟨q, x, y, hp, hx, hy, hin⟩⟩ := h.fields hk
  · simp only [Value.get_dict, Dict.getD, hget]
    exact .inl trivial
  · simp only [Value.get_dict, Dict.getD, hnull]
    exact .inr (.inl ⟨hp, rfl⟩)
  · simp only [Value.get_dict, Dict.getD, hx, hy]
    exact .inr (.inr ⟨q, x, y, hp, rfl, rfl, hin⟩)

/-- **Scalars.** -/
theorem UpToNull.get_scalar (h : UpToNull s v w) (hk : s.field k = some .scalar) (dflt : Value) :
    w.get k dflt = v.get k dflt := by
  rcases h with rfl | ⟨p, h⟩
  · rfl
  obtain ⟨d, d', rfl, rfl, hget | ⟨rfl, -⟩ | ⟨q, x, y, -, -, -, hin⟩⟩ := h.fields hk
  · simp only [Value.get_dict, Dict.getD, hget]
  · exact absurd (Schema.has_key h.has hk) (by simp [Schema.has])
  · exact absurd hin not_isNulled_scalar

theorem UpToNull.asList {β : Type} {F : List Value → Except Err β} (h : UpToNull (.list s) v w)
    (hF : ∀ xs ys, List.Forall₂ (UpToNull s) xs ys → F ys = F xs) :
    (w.asList >>= F) = v.asList >>= F := by
  rcases h with rfl | ⟨p, h⟩
  · rfl
  obtain ⟨xs, ys, rfl, rfl, hall⟩ := h.elems
  exact hF xs ys hall

/-- A map or a list of scalars has no part that can be set. -/
theorem UpToNull.eq_of_scalars (h : UpToNull s v w) (hs : s = .map .scalar ∨ s = .list .scalar) :
    w = v := by
  rcases h with rfl | ⟨p, h⟩
  · rfl
  have := h.has
  rcases hs with rfl | rfl
  · match p, h with
    | .key k :: q, h => simp [Schema.has] at this
    | .index i :: q, h => simp [Schema.has] at this
    | [], h => exact absurd rfl h.ne_nil
  · match p, h with
    | .key k :: q, h => simp [Schema.has] at this
    | .index i :: q, h => simp [Schema.has] at this
    | [], h => exact absurd rfl h.ne_nil

end Py
