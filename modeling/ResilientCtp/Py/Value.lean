import ResilientCtp.Py.Int
import Mathlib.Data.List.Forall2

/-!
# JSON-like values and dictionaries

The values that a JSON decoder gives, with the operations that dynamically typed code does to
them: `d.get(k)`, truth (`bool(v)`), `v or w`, `int(v)`. An operation on a value of a type that
does not have it raises (`Err`). A number is a float, of which only the integral ones are modelled.

A dictionary (`Dict`) is a list of pairs: a lookup takes the first pair of a key, and `set`
replaces it, so a later write of a key wins (`get?_set_self`, `get?_set_ne`).
-/

namespace Py

/-- The exceptions that the modelled code can raise. -/
inductive Err where
  | typeError
  | valueError
  | attributeError
  | keyError
  | notImplementedError (msg : String)
  deriving DecidableEq

/-- A computation that returns has each of its parts return. -/
theorem bind_ok {α β : Type} {x : Except Err α} {f : α → Except Err β} {b : β}
    (h : (x >>= f) = .ok b) : ∃ a, x = .ok a ∧ f a = .ok b := by
  cases x with
  | error e => cases h
  | ok a => exact ⟨a, rfl, h⟩

theorem ok_bind {α β : Type} (a : α) (f : α → Except Err β) : (Except.ok a >>= f) = f a := rfl

/-- A list comprehension returns element by element. -/
theorem mapM_ok_iff {α β : Type} {f : α → Except Err β} {xs : List α} {ys : List β} :
    xs.mapM f = .ok ys ↔ List.Forall₂ (fun x y => f x = .ok y) xs ys := by
  induction xs generalizing ys with
  | nil => cases ys <;> simp [pure, Except.pure]
  | cons x xs ih =>
    rw [List.mapM_cons]
    constructor
    · intro h
      obtain ⟨y, hy, h⟩ := bind_ok h
      obtain ⟨ys, hys, h⟩ := bind_ok h
      cases h
      exact .cons hy (ih.mp hys)
    · intro h
      cases h with
      | cons hx hxs =>
        rw [hx, ok_bind, ih.mpr hxs]
        rfl

theorem mapM_congr {α β : Type} {f g : α → Except Err β} {xs : List α}
    (h : ∀ x ∈ xs, f x = g x) : xs.mapM f = xs.mapM g := by
  induction xs with
  | nil => rfl
  | cons x xs ih =>
    rw [List.mapM_cons, List.mapM_cons, h x List.mem_cons_self,
      ih fun y hy => h y (List.mem_cons_of_mem x hy)]

theorem mapM_ok {α β : Type} {f : α → Except Err β} {xs : List α} {ys : List β}
    (h : xs.mapM f = .ok ys) :
    (∀ x ∈ xs, ∃ y ∈ ys, f x = .ok y) ∧ ∀ y ∈ ys, ∃ x ∈ xs, f x = .ok y := by
  induction mapM_ok_iff.mp h with
  | nil => exact ⟨nofun, nofun⟩
  | cons hxy hall ih =>
    obtain ⟨hx, hy⟩ := ih (mapM_ok_iff.mpr hall)
    refine ⟨List.forall_mem_cons.mpr ⟨⟨_, List.mem_cons_self, hxy⟩, fun x hm => ?_⟩,
      List.forall_mem_cons.mpr ⟨⟨_, List.mem_cons_self, hxy⟩, fun y hm => ?_⟩⟩
    · obtain ⟨y, hym, e⟩ := hx x hm
      exact ⟨y, List.mem_cons_of_mem _ hym, e⟩
    · obtain ⟨x, hxm, e⟩ := hy y hm
      exact ⟨x, List.mem_cons_of_mem _ hxm, e⟩

inductive Value where
  | null
  | bool (b : Bool)
  | num (n : Int)
  | str (s : String)
  | list (xs : List Value)
  | dict (kvs : List (String × Value))

abbrev Dict := List (String × Value)

/-! ## Dictionaries -/

namespace Dict

/-- `d.get(k)`, `none` where the key is absent. -/
def get? (d : Dict) (k : String) : Option Value := d.lookup k

/-- `d.get(k, dflt)`. -/
def getD (d : Dict) (k : String) (dflt : Value) : Value := (get? d k).getD dflt

/-- `d[k] = v`. -/
def set (d : Dict) (k : String) (v : Value) : Dict :=
  match d with
  | [] => [(k, v)]
  | (k', v') :: d => if k = k' then (k, v) :: d else (k', v') :: set d k v

/-- The dictionary display `{k: v, …}`: a repeated key keeps its last value. -/
def ofPairs (kvs : List (String × Value)) : Dict :=
  kvs.foldl (fun d kv => set d kv.1 kv.2) []

@[simp] theorem get?_nil (k : String) : get? [] k = none := rfl

theorem get?_cons (k k' : String) (v : Value) (d : Dict) :
    get? ((k', v) :: d) k = if k = k' then some v else get? d k := by
  unfold get?
  by_cases h : k = k'
  · rw [if_pos h, h, List.lookup_cons_self]
  · rw [if_neg h, List.lookup_cons, beq_eq_false_iff_ne.mpr h]

@[simp] theorem get?_set_self (d : Dict) (k : String) (v : Value) :
    get? (set d k v) k = some v := by
  induction d with
  | nil => simp [set, get?_cons]
  | cons kv d ih =>
    simp only [set]
    split
    · rw [get?_cons, if_pos rfl]
    · next h => rw [get?_cons, if_neg h, ih]

theorem get?_set_ne (d : Dict) {k k' : String} (v : Value) (h : k ≠ k') :
    get? (set d k' v) k = get? d k := by
  induction d with
  | nil => rw [set, get?_cons, if_neg h]
  | cons kv d ih =>
    obtain ⟨x, w⟩ := kv
    simp only [set]
    split
    · next hx => rw [get?_cons, get?_cons, if_neg h, if_neg (hx ▸ h)]
    · rw [get?_cons, get?_cons, ih]

theorem get?_filter (d : Dict) {p : String → Bool} {k : String} (h : p k = true) :
    get? (d.filter fun kv => p kv.1) k = get? d k := by
  induction d with
  | nil => rfl
  | cons kv d ih =>
    obtain ⟨x, w⟩ := kv
    rw [List.filter_cons, get?_cons]
    by_cases hk : k = x
    · subst hk
      rw [if_pos h, get?_cons, if_pos rfl, if_pos rfl]
    · rw [if_neg hk, ← ih]
      split
      · rw [get?_cons, if_neg hk]
      · rfl

theorem get?_filter_neg (d : Dict) {p : String → Bool} {k : String} (h : p k = false) :
    get? (d.filter fun kv => p kv.1) k = none := by
  induction d with
  | nil => rfl
  | cons kv d ih =>
    obtain ⟨x, w⟩ := kv
    rw [List.filter_cons]
    split
    · next hx =>
      have hk : k ≠ x := by
        rintro rfl
        rw [h] at hx
        cases hx
      rw [get?_cons, if_neg hk, ih]
    · exact ih

end Dict

/-! ## Values -/

namespace Value

/-- `bool(v)`. -/
def truthy : Value → Bool
  | null => false
  | bool b => b
  | num n => n != 0
  | str s => s != ""
  | list xs => !xs.isEmpty
  | dict kvs => !kvs.isEmpty

/-- `v or w`. -/
def or (v w : Value) : Value := if v.truthy then v else w

/-- `v == s` for a string `s`. -/
def isStr (v : Value) (s : String) : Bool :=
  match v with
  | str t => t == s
  | _ => false

/-- `v.get(k, dflt)`. -/
def get (v : Value) (k : String) (dflt : Value) : Except Err Value :=
  match v with
  | dict kvs => .ok (Dict.getD kvs k dflt)
  | _ => .error .attributeError

/-- `v` as a dictionary, where the code goes on to call a method of `dict` on it. -/
def asDict : Value → Except Err Dict
  | dict kvs => .ok kvs
  | _ => .error .attributeError

/-- What iterating over `v` gives: of a string its characters, of a dictionary its keys. -/
def asList : Value → Except Err (List Value)
  | list xs => .ok xs
  | str s => .ok (s.toList.map fun c => .str c.toString)
  | dict kvs => .ok (kvs.map fun kv => .str kv.1)
  | _ => .error .typeError

/-- The text of `v` where it is a string, else `""`. -/
def text : Value → String
  | str s => s
  | _ => ""

/-- `int(v)`. -/
def toInt : Value → Except Err Int
  | num n => .ok n
  | bool b => .ok (if b then 1 else 0)
  | str s => (parseInt s).elim (.error .valueError) .ok
  | _ => .error .typeError

@[simp] theorem get_dict (kvs : Dict) (k : String) (dflt : Value) :
    (dict kvs).get k dflt = .ok (Dict.getD kvs k dflt) := rfl

theorem dict_or_nil (kvs : Dict) : (dict kvs).or (dict []) = dict kvs := by cases kvs <;> rfl

theorem list_or_nil (xs : List Value) : (list xs).or (list []) = list xs := by cases xs <;> rfl

@[simp] theorem toInt_str_strInt (n : Int) : (str (strInt n)).toInt = .ok n := by
  simp [toInt, parseInt_strInt]

@[simp] theorem truthy_str_strInt (n : Int) : (str (strInt n)).truthy = true := by
  simp [truthy, strInt_ne_empty]

end Value

/-! ## Texts -/

/-- `str(b)`. -/
def strBool (b : Bool) : String := if b then "True" else "False"

def hexDigit (n : Nat) : Char := (Nat.digitChar n)

/-- One character of `repr(s)` inside the quote `q`. Characters past ASCII are taken as
printable. -/
def reprChar (q c : Char) : String :=
  if c = '\\' then "\\\\"
  else if c = q then "\\" ++ c.toString
  else if c = '\n' then "\\n"
  else if c = '\r' then "\\r"
  else if c = '\t' then "\\t"
  else if c.toNat < 32 || c.toNat = 127 then
    "\\x" ++ (hexDigit (c.toNat / 16)).toString ++ (hexDigit (c.toNat % 16)).toString
  else c.toString

/-- `repr(s)` of a string. -/
def reprStr (s : String) : String :=
  let q := if s.toList.contains '\'' && !s.toList.contains '"' then '"' else '\''
  q.toString ++ String.join (s.toList.map (reprChar q)) ++ q.toString

/-- `str(xs)` of a list of strings. -/
def strList (xs : List String) : String := "[" ++ ", ".intercalate (xs.map reprStr) ++ "]"

example : strList ["cp-a", "it's"] = "['cp-a', \"it's\"]" := by decide

end Py
