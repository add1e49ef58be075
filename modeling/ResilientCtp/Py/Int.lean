import Mathlib.Data.List.Basic

/-!
# `int` and `str` of integers

`int(s)` of a string, as CPython reads it: leading and trailing whitespace is dropped, then an
optional sign and decimal digits, with single underscores allowed between digits. A digit is any
Unicode decimal (`decimal?`), not only `0`..`9`. Past 4300 digits (the default limit) CPython
raises, in `int` and in `str`; the limit is not modelled, as no cloud stores a tag of that length.

* `parseInt_strInt`: `int(str(n)) = n`.
* `parseInt_empty`: the empty string is no integer.
-/

namespace Py

/-- The code points of the digit zero of each Unicode run of decimals. -/
def decimalZeros : List Nat :=
  [0x30, 0x660, 0x6f0, 0x7c0, 0x966, 0x9e6, 0xa66, 0xae6, 0xb66, 0xbe6, 0xc66, 0xce6, 0xd66,
   0xde6, 0xe50, 0xed0, 0xf20, 0x1040, 0x1090, 0x17e0, 0x1810, 0x1946, 0x19d0, 0x1a80, 0x1a90,
   0x1b50, 0x1bb0, 0x1c40, 0x1c50, 0xa620, 0xa8d0, 0xa900, 0xa9d0, 0xa9f0, 0xaa50, 0xabf0,
   0xff10, 0x104a0, 0x10d30, 0x11066, 0x110f0, 0x11136, 0x111d0, 0x112f0, 0x11450, 0x114d0,
   0x11650, 0x116c0, 0x11730, 0x118e0, 0x11950, 0x11c50, 0x11d50, 0x11da0, 0x16a60, 0x16ac0,
   0x16b50, 0x1d7ce, 0x1d7d8, 0x1d7e2, 0x1d7ec, 0x1d7f6, 0x1e140, 0x1e2f0, 0x1e950, 0x1fbf0]

/-- The value of a decimal digit. -/
def decimal? (c : Char) : Option Nat :=
  (decimalZeros.find? fun z => z ≤ c.toNat && c.toNat < z + 10).map fun z => c.toNat - z

/-- `str.isspace` of one character. -/
def isSpace (c : Char) : Bool :=
  let n := c.toNat
  (0x9 ≤ n && n ≤ 0xd) || (0x1c ≤ n && n ≤ 0x20) || n == 0x85 || n == 0xa0 || n == 0x1680 ||
    (0x2000 ≤ n && n ≤ 0x200a) || n == 0x2028 || n == 0x2029 || n == 0x202f || n == 0x205f ||
    n == 0x3000

/-- `str.strip()`. -/
def strip (cs : List Char) : List Char :=
  ((cs.dropWhile isSpace).reverse.dropWhile isSpace).reverse

/-- The digits after the first one; an underscore needs a digit after it. -/
def digitsFrom (acc : Nat) : List Char → Option Nat
  | [] => some acc
  | '_' :: c :: cs => (decimal? c).bind fun d => digitsFrom (10 * acc + d) cs
  | c :: cs => (decimal? c).bind fun d => digitsFrom (10 * acc + d) cs

/-- An unsigned decimal literal. -/
def digits : List Char → Option Nat
  | [] => none
  | c :: cs => (decimal? c).bind fun d => digitsFrom d cs

/-- `int(s)`; `none` where it raises `ValueError`. -/
def parseInt (s : String) : Option Int :=
  match strip s.toList with
  | '-' :: cs => (digits cs).map fun n => -(n : Int)
  | '+' :: cs => (digits cs).map fun n => (n : Int)
  | cs => (digits cs).map fun n => (n : Int)

/-- `str(n)`. -/
def strInt (n : Int) : String := toString n

theorem parseInt_empty : parseInt "" = none := by decide

/-! ## `int(str(n))` -/

theorem toNat_of_isDigit {c : Char} (h : c.isDigit = true) : 48 ≤ c.toNat ∧ c.toNat < 58 := by
  simp only [Char.isDigit, Bool.and_eq_true, decide_eq_true_eq, ge_iff_le, UInt32.le_iff_toNat_le]
    at h
  exact ⟨h.1, Nat.lt_succ_of_le h.2⟩

theorem decimal?_of_isDigit {c : Char} (h : c.isDigit = true) :
    decimal? c = some (c.toNat - 48) := by
  obtain ⟨h1, h2⟩ := toNat_of_isDigit h
  simp [decimal?, decimalZeros, h1, h2]

theorem isSpace_of_isDigit {c : Char} (h : c.isDigit = true) : isSpace c = false := by
  obtain ⟨h1, h2⟩ := toNat_of_isDigit h
  simp only [isSpace, Bool.or_eq_false_iff, Bool.and_eq_false_iff, decide_eq_false_iff_not,
    beq_eq_false_iff_ne]
  omega

theorem ne_of_isDigit {c d : Char} (h : c.isDigit = true) (hd : d.isDigit = false) : c ≠ d := by
  rintro rfl; rw [h] at hd; cases hd

theorem digitsFrom_of_isDigit {cs : List Char} (h : ∀ c ∈ cs, c.isDigit = true) (acc : Nat) :
    digitsFrom acc cs = some (Nat.ofDigitChars 10 cs acc) := by
  induction cs generalizing acc with
  | nil => simp [digitsFrom]
  | cons c cs ih =>
    have hc := h c (by simp)
    have hu : c ≠ '_' := ne_of_isDigit hc (by decide)
    rw [digitsFrom.eq_3 acc c cs (fun _ _ e => absurd e hu), decimal?_of_isDigit hc,
      Nat.ofDigitChars_cons]
    exact ih (fun x hx => h x (by simp [hx])) _

theorem digits_of_isDigit {cs : List Char} (h : ∀ c ∈ cs, c.isDigit = true) (hne : cs ≠ []) :
    digits cs = some (Nat.ofDigitChars 10 cs 0) := by
  cases cs with
  | nil => exact absurd rfl hne
  | cons c cs =>
    have hc := h c (by simp)
    rw [digits, decimal?_of_isDigit hc, Nat.ofDigitChars_cons]
    simpa using digitsFrom_of_isDigit (fun x hx => h x (by simp [hx])) (c.toNat - 48)

theorem digits_toDigits (n : Nat) : digits (Nat.toDigits 10 n) = some n := by
  have hd : ∀ c ∈ Nat.toDigits 10 n, c.isDigit = true := fun c hc =>
    Nat.isDigit_of_mem_toDigits (by decide) (by decide) hc
  rw [digits_of_isDigit hd Nat.toDigits_ne_nil, Nat.ofDigitChars_ten_toDigits]

/-- `strip` keeps a string without whitespace. -/
theorem strip_eq_self {cs : List Char} (h : ∀ c ∈ cs, isSpace c = false) : strip cs = cs := by
  have hd : ∀ {xs : List Char}, (∀ c ∈ xs, isSpace c = false) → xs.dropWhile isSpace = xs := by
    intro xs hx
    cases xs with
    | nil => rfl
    | cons c xs => rw [List.dropWhile_cons_of_neg]; simp [hx c (by simp)]
  rw [strip, hd h, hd (by simpa using h), List.reverse_reverse]

theorem parseInt_repr (n : Nat) : parseInt n.repr = some (n : Int) := by
  have hd : ∀ c ∈ Nat.toDigits 10 n, c.isDigit = true := fun c hc =>
    Nat.isDigit_of_mem_toDigits (by decide) (by decide) hc
  rw [parseInt, Nat.toList_repr, strip_eq_self fun c hc => isSpace_of_isDigit (hd c hc)]
  split
  · next cs e =>
    exact absurd (hd '-' (by rw [e]; simp)) (by decide)
  · next cs e =>
    exact absurd (hd '+' (by rw [e]; simp)) (by decide)
  · rw [digits_toDigits]; rfl

theorem parseInt_neg_repr (n : Nat) : parseInt ("-" ++ n.repr) = some (-(n : Int)) := by
  have hd : ∀ c ∈ Nat.toDigits 10 n, c.isDigit = true := fun c hc =>
    Nat.isDigit_of_mem_toDigits (by decide) (by decide) hc
  have hl : ("-" ++ n.repr).toList = '-' :: Nat.toDigits 10 n := by
    rw [String.toList_append, Nat.toList_repr]; rfl
  have hs : ∀ c ∈ '-' :: Nat.toDigits 10 n, isSpace c = false := by
    intro c hc
    rcases List.mem_cons.mp hc with rfl | hc
    · decide
    · exact isSpace_of_isDigit (hd c hc)
  rw [parseInt, hl, strip_eq_self hs]
  simp [digits_toDigits]

/-- **Round trip.** An integer reads back from its decimal text. -/
theorem parseInt_strInt (n : Int) : parseInt (strInt n) = some n := by
  cases n with
  | ofNat n => exact parseInt_repr n
  | negSucc n => exact parseInt_neg_repr (n + 1)

theorem strInt_ne_empty (n : Int) : strInt n ≠ "" := by
  intro e
  have := parseInt_strInt n
  rw [e, parseInt_empty] at this
  cases this

end Py
