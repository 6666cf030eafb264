import Mathlib.Data.Int.Notation
import Mathlib.Data.List.Basic

/-! `int` of a text and `str` of an integer, as Python has them for the ASCII digits. -/
namespace PythonInt

/-- What `str.isspace` accepts. -/
def isSpace (c : Char) : Bool :=
  let n := c.toNat
  (9 ≤ n && n ≤ 13) || (28 ≤ n && n ≤ 32) || n = 0x85 || n = 0xA0 || n = 0x1680 ||
    (0x2000 ≤ n && n ≤ 0x200A) || n = 0x2028 || n = 0x2029 || n = 0x202F || n = 0x205F || n = 0x3000

def strip (cs : List Char) : List Char :=
  ((cs.dropWhile isSpace).reverse.dropWhile isSpace).reverse

/-- The number so far, and whether the last character was a digit: an underscore stands
between two digits only. -/
def digits : ℕ → Bool → List Char → Option ℕ
  | acc, afterDigit, [] => if afterDigit then some acc else none
  | acc, afterDigit, c :: cs =>
    if c.isDigit then digits (10 * acc + (c.toNat - '0'.toNat)) true cs
    else if c = '_' ∧ afterDigit = true then digits acc false cs
    else none

/-- `int(text)`; `none` where it raises `ValueError`. -/
def parse (text : List Char) : Option ℤ :=
  match strip text with
  | '-' :: ds => (digits 0 false ds).map fun n => -(n : ℤ)
  | '+' :: ds => (digits 0 false ds).map fun n => (n : ℤ)
  | ds => (digits 0 false ds).map fun n => (n : ℤ)

/-- `str(n)` -/
def str (n : ℤ) : List Char := n.repr.toList

theorem not_isSpace_of_isDigit {c : Char} (h : c.isDigit = true) : isSpace c = false := by
  have hd : 48 ≤ c.toNat ∧ c.toNat ≤ 57 := by
    simpa [Char.isDigit, UInt32.le_iff_toNat_le] using h
  simp only [isSpace, Bool.or_eq_false_iff, Bool.and_eq_false_iff, decide_eq_false_iff_not]
  omega

theorem strip_of_not_isSpace {cs : List Char} (h : ∀ c ∈ cs, isSpace c = false) :
    strip cs = cs := by
  have hdrop : ∀ ds : List Char, (∀ c ∈ ds, isSpace c = false) → ds.dropWhile isSpace = ds := by
    intro ds hds
    cases ds with
    | nil => rfl
    | cons d ds => rw [List.dropWhile_cons_of_neg (by simp [hds d (by simp)])]
  rw [strip, hdrop cs h, hdrop cs.reverse (by simpa using h), List.reverse_reverse]

theorem digits_of_isDigit (cs : List Char) (acc : ℕ) (after : Bool)
    (h : ∀ c ∈ cs, c.isDigit = true) (hne : cs ≠ [] ∨ after = true) :
    digits acc after cs = some (Nat.ofDigitChars 10 cs acc) := by
  induction cs generalizing acc after with
  | nil =>
    obtain hne | rfl := hne
    · exact absurd rfl hne
    · rfl
  | cons c cs ih =>
    rw [digits, if_pos (h c (by simp)), Nat.ofDigitChars_cons]
    exact ih _ true (fun d hd => h d (by simp [hd])) (.inr rfl)

theorem isDigit_toDigits {n : ℕ} : ∀ c ∈ Nat.toDigits 10 n, c.isDigit = true := fun _ hc =>
  Nat.isDigit_of_mem_toDigits (by decide) (by decide) hc

theorem digits_toDigits (n : ℕ) : digits 0 false (Nat.toDigits 10 n) = some n := by
  rw [digits_of_isDigit _ 0 false isDigit_toDigits (.inl Nat.toDigits_ne_nil),
    Nat.ofDigitChars_ten_toDigits]

theorem parse_digits {c : Char} {cs : List Char} (h : ∀ d ∈ c :: cs, d.isDigit = true) :
    parse (c :: cs) = (digits 0 false (c :: cs)).map fun n => (n : ℤ) := by
  have hc : c.isDigit = true := h c (by simp)
  have hminus : c ≠ '-' := by
    rintro rfl
    exact absurd hc (by decide)
  have hplus : c ≠ '+' := by
    rintro rfl
    exact absurd hc (by decide)
  rw [parse, strip_of_not_isSpace fun d hd => not_isSpace_of_isDigit (h d hd)]
  split
  · next ds heq => exact absurd (List.cons.inj heq).1 hminus
  · next ds heq => exact absurd (List.cons.inj heq).1 hplus
  · rfl

theorem parse_str (n : ℤ) : parse (str n) = some n := by
  cases n with
  | ofNat n =>
    have hstr : str (.ofNat n) = Nat.toDigits 10 n := Nat.toList_repr
    obtain ⟨c, cs, hcs⟩ := List.exists_cons_of_ne_nil (Nat.toDigits_ne_nil (n := n) (b := 10))
    have hd : ∀ d ∈ c :: cs, d.isDigit = true := hcs ▸ isDigit_toDigits
    rw [hstr, hcs, parse_digits hd, ← hcs, digits_toDigits]
    rfl
  | negSucc n =>
    have hstr : str (.negSucc n) = '-' :: Nat.toDigits 10 (n + 1) := by
      simp [str, Int.repr]
    have hspace : ∀ c ∈ '-' :: Nat.toDigits 10 (n + 1), isSpace c = false := by
      rw [List.forall_mem_cons]
      exact ⟨by decide, fun c hc => not_isSpace_of_isDigit (isDigit_toDigits c hc)⟩
    rw [hstr, parse, strip_of_not_isSpace hspace]
    simp only [digits_toDigits]
    rfl

end PythonInt
