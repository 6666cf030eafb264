import Mathlib.Algebra.Order.Archimedean.Basic
import Mathlib.Algebra.Order.Floor.Ring
import Mathlib.Tactic.Linarith

/-! A time line cut into periods of equal length: the number of the period that an instant lies
in, how far in, and sequences of instants that visit the periods one after another. -/
namespace Periods
variable {K : Type*} [Field K] [LinearOrder K] [IsStrictOrderedRing K] [FloorRing K]

/-- The period of an instant. -/
def period (p t : K) : ℤ := ⌊t / p⌋

/-- The time since its period began. -/
def phase (p t : K) : K := t - p * period p t

variable {p : K} (hp : 0 < p)
include hp

theorem phase_nonneg (t : K) : 0 ≤ phase p t := by
  have h := Int.floor_le (t / p)
  rw [le_div_iff₀ hp] at h
  rw [phase, period]
  linarith

theorem phase_lt (t : K) : phase p t < p := by
  have h := Int.lt_floor_add_one (t / p)
  rw [div_lt_iff₀ hp] at h
  rw [phase, period]
  linarith

theorem period_eq {t : K} {n : ℤ} (h : p * n ≤ t) (h' : t < p * n + p) : period p t = n := by
  rw [period, Int.floor_eq_iff, le_div_iff₀ hp, div_lt_iff₀ hp]
  constructor
  · linarith
  · linarith

theorem phase_eq {t : K} {n : ℤ} (h : p * n ≤ t) (h' : t < p * n + p) : phase p t = t - p * n := by
  rw [phase, period_eq hp h h']

theorem period_mono {s t : K} (h : s ≤ t) : period p s ≤ period p t :=
  Int.floor_le_floor (div_le_div_of_nonneg_right h hp.le)

/-- Instants at least `gap` apart leave every period behind. -/
theorem exists_period_ge {a : ℕ → K} {gap : K} (hgap : 0 < gap) (h : ∀ n, a n + gap ≤ a (n + 1))
    (d : ℤ) : ∃ n, d ≤ period p (a n) := by
  have hgrow : ∀ n : ℕ, a 0 + n * gap ≤ a n := by
    intro n
    induction n with
    | zero => simp
    | succ n ih =>
      push_cast
      linarith [h n]
  obtain ⟨n, hn⟩ := exists_nat_gt ((p * d - a 0) / gap)
  rw [div_lt_iff₀ hgap] at hn
  refine ⟨n, ?_⟩
  rw [period, Int.le_floor, le_div_iff₀ hp]
  linarith [hgrow n]

/-- The first visit to a period after the start, or to any later one. -/
theorem exists_first_visit {a : ℕ → K} {gap : K} (hgap : 0 < gap)
    (h : ∀ n, a n + gap ≤ a (n + 1)) {d : ℤ} (hd : period p (a 0) < d) :
    ∃ n, period p (a n) < d ∧ d ≤ period p (a (n + 1)) := by
  by_contra hnone
  push Not at hnone
  have hbelow : ∀ n, period p (a n) < d := by
    intro n
    induction n with
    | zero => exact hd
    | succ n ih => exact hnone n ih
  obtain ⟨n, hn⟩ := exists_period_ge hp hgap h d
  exact absurd (hbelow n) (not_lt.mpr hn)

end Periods
