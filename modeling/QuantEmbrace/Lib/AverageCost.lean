import Mathlib.Algebra.Order.Field.Basic
import Mathlib.Tactic.FieldSimp
import Mathlib.Tactic.Linarith
import Mathlib.Tactic.Ring

/-! Average-cost bookkeeping of one signed position over an ordered field.
A trade moves the position by `d` (positive bought, negative sold) at price `p`. -/
namespace AverageCost
variable {K : Type*} [Field K] [LinearOrder K]

structure Book (K : Type*) where
  quantity : K
  avg : K
  realized : K

def Book.flat : Book K := ⟨0, 0, 0⟩

/- Three regimes: away from zero (or from flat) the average is weighted, towards
   zero the closed part is realized, through zero the rest opens at `p`. -/
def Book.trade (b : Book K) (d p : K) : Book K :=
  if 0 ≤ b.quantity * d then
    ⟨b.quantity + d, (b.quantity * b.avg + d * p) / (b.quantity + d), b.realized⟩
  else if |d| < |b.quantity| then
    ⟨b.quantity + d, b.avg, b.realized + (b.avg - p) * d⟩
  else
    ⟨b.quantity + d, if b.quantity + d = 0 then 0 else p,
      b.realized + (p - b.avg) * b.quantity⟩

/-- Realized result less the cost of what is still held: the cash of the trades. -/
def Book.cash (b : Book K) : K := b.realized - b.quantity * b.avg

theorem Book.trade_same_side {b : Book K} {d : K} (p : K) (h : 0 ≤ b.quantity * d) :
    b.trade d p =
      ⟨b.quantity + d, (b.quantity * b.avg + d * p) / (b.quantity + d), b.realized⟩ := by
  rw [Book.trade, if_pos h]

theorem Book.trade_reduce {b : Book K} {d : K} (p : K) (h : b.quantity * d < 0)
    (hr : |d| < |b.quantity|) :
    b.trade d p = ⟨b.quantity + d, b.avg, b.realized + (b.avg - p) * d⟩ := by
  rw [Book.trade, if_neg (not_le.mpr h), if_pos hr]

theorem Book.trade_close {b : Book K} {d : K} (p : K) (h : b.quantity * d < 0)
    (hz : b.quantity + d = 0) :
    b.trade d p = ⟨0, 0, b.realized + (p - b.avg) * b.quantity⟩ := by
  have hd : d = -b.quantity := eq_neg_of_add_eq_zero_right hz
  rw [Book.trade, if_neg (not_le.mpr h), if_neg (by simp [hd]), if_pos hz, hz]

theorem Book.trade_cross {b : Book K} {d : K} (p : K) (h : b.quantity * d < 0)
    (hr : ¬ |d| < |b.quantity|) (hne : b.quantity + d ≠ 0) :
    b.trade d p = ⟨b.quantity + d, p, b.realized + (p - b.avg) * b.quantity⟩ := by
  rw [Book.trade, if_neg (not_le.mpr h), if_neg hr, if_neg hne]

/-- At the stored average nothing is realized and the average stays. -/
theorem Book.trade_at_avg (b : Book K) (d : K) (hne : b.quantity + d ≠ 0) :
    b.trade d b.avg = ⟨b.quantity + d, b.avg, b.realized⟩ := by
  unfold Book.trade
  split_ifs with hs hr
  · have ha : (b.quantity * b.avg + d * b.avg) / (b.quantity + d) = b.avg := by
      field_simp
    simp [ha]
  · simp
  · simp

theorem Book.trade_quantity (b : Book K) (d p : K) :
    (b.trade d p).quantity = b.quantity + d := by
  unfold Book.trade
  split_ifs <;> rfl

variable [IsStrictOrderedRing K]

theorem add_ne_zero_of_same_side {q d : K} (hd : d ≠ 0) (h : 0 ≤ q * d) : q + d ≠ 0 := by
  intro hz
  have hq : q = -d := by linarith
  have hs : 0 < d * d := mul_self_pos.mpr hd
  rw [hq] at h
  linarith [h, hs, neg_mul d d]

/-- Every trade moves the cash by its own value, in all three regimes. -/
theorem Book.trade_cash (b : Book K) (d p : K) (hd : d ≠ 0) :
    (b.trade d p).cash = b.cash - d * p := by
  unfold Book.trade
  split_ifs with hs hr hz
  · have hne : b.quantity + d ≠ 0 := add_ne_zero_of_same_side hd hs
    simp only [Book.cash]
    field_simp
    ring
  · simp only [Book.cash]
    ring
  · have hq : b.quantity = -d := by linarith
    simp only [Book.cash, hq]
    ring
  · simp only [Book.cash]
    ring

/-- At a price `m` a trade gains what it moves times its distance from that price. -/
theorem Book.trade_worth (b : Book K) (d p m : K) (hd : d ≠ 0) :
    (b.trade d p).realized + (b.trade d p).quantity * (m - (b.trade d p).avg) =
      b.realized + b.quantity * (m - b.avg) + d * (m - p) := by
  have hcash := b.trade_cash d p hd
  have hq := b.trade_quantity d p
  unfold Book.cash at hcash
  calc (b.trade d p).realized + (b.trade d p).quantity * (m - (b.trade d p).avg)
      = ((b.trade d p).realized - (b.trade d p).quantity * (b.trade d p).avg)
          + (b.trade d p).quantity * m := by ring
    _ = (b.realized - b.quantity * b.avg - d * p) + (b.quantity + d) * m := by rw [hcash, hq]
    _ = b.realized + b.quantity * (m - b.avg) + d * (m - p) := by ring

/-- An open position never costs nothing: its average is a mean of positive prices. -/
theorem Book.trade_avg_pos {b : Book K} {d p : K} (hb : b.quantity ≠ 0 → 0 < b.avg) (hp : 0 < p)
    (hd : d ≠ 0) (hne : (b.trade d p).quantity ≠ 0) : 0 < (b.trade d p).avg := by
  unfold Book.trade at hne ⊢
  split_ifs at hne ⊢ with hs hr hz
  · simp only
    obtain hq | hq | hq := lt_trichotomy b.quantity 0
    · have hneg : d < 0 := by
        by_contra h
        exact absurd (mul_neg_of_neg_of_pos hq (lt_of_le_of_ne (not_lt.mp h) hd.symm))
          (not_lt.mpr hs)
      have hnum : b.quantity * b.avg + d * p < 0 :=
        add_neg (mul_neg_of_neg_of_pos hq (hb hq.ne)) (mul_neg_of_neg_of_pos hneg hp)
      exact div_pos_of_neg_of_neg hnum (add_neg hq hneg)
    · rw [hq, zero_mul, zero_add, zero_add, mul_div_cancel_left₀ p hd]
      exact hp
    · have hpos : 0 < d := by
        by_contra h
        exact absurd (mul_neg_of_pos_of_neg hq (lt_of_le_of_ne (not_lt.mp h) hd))
          (not_lt.mpr hs)
      exact div_pos (add_pos (mul_pos hq (hb hq.ne')) (mul_pos hpos hp)) (add_pos hq hpos)
  · refine hb fun hz => ?_
    rw [hz, abs_zero] at hr
    exact absurd hr (not_lt.mpr (abs_nonneg d))
  · exact absurd hz hne
  · exact hp

end AverageCost
