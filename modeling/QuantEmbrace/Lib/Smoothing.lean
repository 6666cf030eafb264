import Mathlib.Tactic.Ring

/-! Exponential smoothing: what is left of the seed after a number of values. -/
namespace Smoothing
variable {K : Type*} [CommRing K]

/-- Each value has the weight `k`, what came before it the rest. -/
def smooth (k : K) (values : List K) (seed : K) : K :=
  values.foldl (fun current v => v * k + current * (1 - k)) seed

theorem smooth_cons (k v : K) (values : List K) (seed : K) :
    smooth k (v :: values) seed = smooth k values (v * k + seed * (1 - k)) := rfl

/-- A difference of the seeds fades by the same factor at every value. -/
theorem smooth_sub (k : K) (values : List K) (a b : K) :
    smooth k values a - smooth k values b = (1 - k) ^ values.length * (a - b) := by
  induction values generalizing a b with
  | nil => simp [smooth]
  | cons v values ih =>
    rw [smooth_cons, smooth_cons, ih, List.length_cons, pow_succ]
    ring

end Smoothing
