import Mathlib.Algebra.Group.Nat.Defs
import Mathlib.Data.Nat.Log
import Mathlib.Data.Int.Notation

/-! Integers as floats of double precision: 53 significant bits, ties to even. -/
namespace Double

/-- `n` to the nearest multiple of `2 ^ k`. -/
def roundAt (k n : ℕ) : ℕ :=
  let q := n / 2 ^ k
  let twice := 2 * (n % 2 ^ k)
  if 2 ^ k < twice ∨ (twice = 2 ^ k ∧ q % 2 = 1) then (q + 1) * 2 ^ k else q * 2 ^ k

/-- The float that is nearest to `n`, without regard to its largest exponent. -/
def roundNat (n : ℕ) : ℕ := roundAt (Nat.log 2 n + 1 - 53) n

/-- `float(n)`; `none` where it raises `OverflowError`. -/
def ofInt (n : ℤ) : Option ℤ :=
  let m := roundNat n.natAbs
  if 1024 ≤ Nat.log 2 m then none else some (if n < 0 then -(m : ℤ) else m)

theorem roundAt_of_dvd {k n : ℕ} (h : 2 ^ k ∣ n) : roundAt k n = n := by
  have hpos : 0 < 2 ^ k := Nat.two_pow_pos k
  rw [roundAt, Nat.mod_eq_zero_of_dvd h, if_neg (by omega)]
  exact Nat.div_mul_cancel h

/-- Up to 53 bits nothing is rounded. -/
theorem roundNat_of_le {n : ℕ} (h : n ≤ 2 ^ 53) : roundNat n = n := by
  obtain rfl | hlt := h.eq_or_lt
  · rw [roundNat, Nat.log_pow Nat.one_lt_two]
    exact roundAt_of_dvd ⟨2 ^ 52, by decide⟩
  · have hlog : Nat.log 2 n < 53 := by
      obtain rfl | hpos := Nat.eq_zero_or_pos n
      · simp
      · exact Nat.log_lt_of_lt_pow hpos.ne' hlt
    rw [roundNat, Nat.sub_eq_zero_of_le (by omega)]
    exact roundAt_of_dvd (Nat.one_dvd n)

theorem ofInt_of_le {n : ℤ} (h : n.natAbs ≤ 2 ^ 53) : ofInt n = some n := by
  have hlog : Nat.log 2 n.natAbs ≤ 53 :=
    (Nat.log_mono_right h).trans (Nat.log_pow Nat.one_lt_two 53).le
  rw [ofInt, roundNat_of_le h, if_neg (by omega), Option.some.injEq]
  split <;> omega

end Double
