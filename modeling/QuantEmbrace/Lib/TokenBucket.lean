import QuantEmbrace.Lib.SlidingWindow
import Mathlib.Algebra.Order.Ring.Defs
import Mathlib.Algebra.Order.Group.MinMax
import Mathlib.Data.Nat.Cast.Order.Basic
import Mathlib.Tactic.Linarith

/-! A token bucket: tokens come in at a rate, never more than the burst, and are taken out. -/

structure TokenBucket (K : Type*) where
  rate : K
  burst : K
  tokens : K
  lastRefill : K
  deriving DecidableEq, Repr

namespace TokenBucket
variable {K : Type*} [CommRing K]

def full (rate burst now : K) : TokenBucket K := ⟨rate, burst, burst, now⟩

section Consume
variable (b : TokenBucket K) (units : K)

def consume : TokenBucket K := { b with tokens := b.tokens - units }

@[simp] theorem consume_rate : (b.consume units).rate = b.rate := rfl
@[simp] theorem consume_burst : (b.consume units).burst = b.burst := rfl
@[simp] theorem consume_tokens : (b.consume units).tokens = b.tokens - units := rfl
@[simp] theorem consume_lastRefill : (b.consume units).lastRefill = b.lastRefill := rfl

end Consume

variable [LinearOrder K]

def refill (b : TokenBucket K) (now : K) : TokenBucket K :=
  { b with
    tokens := min b.burst (b.tokens + (now - b.lastRefill) * b.rate)
    lastRefill := now }

section Refill
variable (b : TokenBucket K) (now : K)

@[simp] theorem refill_rate : (b.refill now).rate = b.rate := rfl
@[simp] theorem refill_burst : (b.refill now).burst = b.burst := rfl
@[simp] theorem refill_lastRefill : (b.refill now).lastRefill = now := rfl

end Refill

/-- The tokens are between nothing and the burst. -/
structure Valid (b : TokenBucket K) : Prop where
  rate_nonneg : 0 ≤ b.rate
  tokens_nonneg : 0 ≤ b.tokens
  tokens_le : b.tokens ≤ b.burst

variable {b : TokenBucket K} {now units : K}

theorem full_valid {rate burst : K} (hrate : 0 ≤ rate) (hburst : 0 ≤ burst) :
    (full rate burst now).Valid :=
  ⟨hrate, hburst, le_rfl⟩

variable [IsStrictOrderedRing K]

/-- A refill adds tokens, and does not go over the burst. -/
theorem Valid.tokens_le_refill (h : b.Valid) (hnow : b.lastRefill ≤ now) :
    b.tokens ≤ (b.refill now).tokens := by
  have hadd : 0 ≤ (now - b.lastRefill) * b.rate :=
    mul_nonneg (sub_nonneg.mpr hnow) h.rate_nonneg
  exact le_min h.tokens_le (le_add_of_nonneg_right hadd)

theorem Valid.refill (h : b.Valid) (hnow : b.lastRefill ≤ now) : (b.refill now).Valid :=
  ⟨h.rate_nonneg, h.tokens_nonneg.trans (h.tokens_le_refill hnow), min_le_left _ _⟩

theorem Valid.consume (h : b.Valid) (hunits : 0 ≤ units) (hle : units ≤ b.tokens) :
    (b.consume units).Valid :=
  ⟨h.rate_nonneg, sub_nonneg.mpr hle, (sub_le_self _ hunits).trans h.tokens_le⟩

/-- The takes since `s`. -/
def takesSince (log : List K) (s : K) : ℕ := log.countP (s ≤ ·)

/-- Takes of one unit, each logged with the refill before it. Since any moment, what was taken
and what is left is no more than a burst and what has come in. -/
structure Accounts (width : K) (log : List K) (b : TokenBucket K) : Prop where
  past : ∀ t ∈ log, t ≤ b.lastRefill
  budget : ∀ s ≤ b.lastRefill,
    b.tokens + takesSince log s ≤ b.burst + b.rate * (b.lastRefill - s)
  window : ∀ s, SlidingWindow.within width log s < b.burst + b.rate * width

theorem accounts_nil {width : K} (h : b.Valid) (hwidth : 0 < width) (hrate : 0 < b.rate) :
    Accounts width [] b where
  past _ ht := absurd ht List.not_mem_nil
  budget s hs := by
    have hin : 0 ≤ b.rate * (b.lastRefill - s) := mul_nonneg h.rate_nonneg (sub_nonneg.mpr hs)
    simpa [takesSince] using h.tokens_le.trans (le_add_of_nonneg_right hin)
  window s := by
    have hin : 0 < b.rate * width := mul_pos hrate hwidth
    have hburst : 0 ≤ b.burst := h.tokens_nonneg.trans h.tokens_le
    simpa [SlidingWindow.within] using add_pos_of_nonneg_of_pos hburst hin

variable {width : K} {log : List K}

theorem Accounts.refill (h : Accounts width log b) (hv : b.Valid) (hnow : b.lastRefill ≤ now) :
    Accounts width log (b.refill now) where
  past t ht := (h.past t ht).trans hnow
  budget s hs := by
    obtain hle | hlt := le_or_gt s b.lastRefill
    · have hbudget := h.budget s hle
      have htokens : (b.refill now).tokens ≤ b.tokens + (now - b.lastRefill) * b.rate :=
        min_le_right _ _
      simp only [refill_burst, refill_rate, refill_lastRefill]
      linarith
    -- nothing has been taken since the last refill
    · have hnone : takesSince log s = 0 := by
        refine List.countP_eq_zero.mpr fun t ht => ?_
        simpa using (h.past t ht).trans_lt hlt
      have hin : 0 ≤ b.rate * (now - s) := mul_nonneg hv.rate_nonneg (sub_nonneg.mpr hs)
      have htokens : (b.refill now).tokens ≤ b.burst := min_le_left _ _
      rw [hnone, Nat.cast_zero, add_zero]
      exact htokens.trans (le_add_of_nonneg_right hin)
  window := h.window

theorem Accounts.consume (h : Accounts width log b) (hrate : 0 < b.rate)
    (hle : 1 ≤ b.tokens) : Accounts width (b.lastRefill :: log) (b.consume 1) := by
  have hbudget (s : K) (hs : s ≤ b.lastRefill) :
      b.tokens - 1 + takesSince (b.lastRefill :: log) s ≤
        b.burst + b.rate * (b.lastRefill - s) := by
    have hsince : takesSince (b.lastRefill :: log) s = takesSince log s + 1 :=
      List.countP_cons_of_pos (by simpa using hs)
    have hold := h.budget s hs
    rw [hsince, Nat.cast_add, Nat.cast_one]
    linarith
  refine ⟨fun t ht => ?_, hbudget, fun s => ?_⟩
  · obtain rfl | ht := List.mem_cons.mp ht
    · exact le_rfl
    · exact h.past t ht
  · by_cases hin : s ≤ b.lastRefill ∧ b.lastRefill < s + width
    · have hsub : SlidingWindow.within width (b.lastRefill :: log) s ≤
          takesSince (b.lastRefill :: log) s := by
        refine List.countP_mono_left fun t _ ht => ?_
        simp only [decide_eq_true_eq] at ht ⊢
        exact ht.1
      have hcast : (SlidingWindow.within width (b.lastRefill :: log) s : K) ≤
          takesSince (b.lastRefill :: log) s := Nat.cast_le.mpr hsub
      have hnew := hbudget s hin.1
      have hspan : b.rate * (b.lastRefill - s) < b.rate * width :=
        mul_lt_mul_of_pos_left (by linarith [hin.2]) hrate
      simp only [consume_burst, consume_rate]
      linarith
    · have hsame : SlidingWindow.within width (b.lastRefill :: log) s =
          SlidingWindow.within width log s :=
        List.countP_cons_of_neg (by simpa using hin)
      rw [hsame]
      exact h.window s

end TokenBucket
