import Mathlib.Algebra.Order.Group.Defs
import Mathlib.Algebra.Order.Group.Unbundled.Basic
import Mathlib.Data.List.DropRight

/-! A cap on the events of every window of some width, kept with a queue of the times from
whose front the old ones are dropped. -/
namespace SlidingWindow
variable {K : Type*} [AddCommGroup K] [LinearOrder K]

/-- At `now`, the front of the queue is dropped as far as it is out of the window. -/
def prune (width now : K) (q : List K) : List K := q.dropWhile fun t => width ≤ now - t

/-- How many of the times are less than a width old. -/
def fresh (width now : K) (log : List K) : ℕ := log.countP fun t => now - t < width

/-- How many of the times are in the half-open window that starts at `s`. -/
def within (width : K) (log : List K) (s : K) : ℕ := log.countP fun t => s ≤ t ∧ t < s + width

/-- The queue has dropped nothing that is still of use from `now` on. -/
def Retains (width now : K) (q log : List K) : Prop :=
  ∀ r, now ≤ r → fresh width r log ≤ fresh width r q

def Capped (width : K) (cap : ℕ) (log : List K) : Prop := ∀ s, within width log s ≤ cap

variable {width now t : K} {cap : ℕ} {q log : List K}

theorem prune_prune : prune width now (prune width now q) = prune width now q :=
  List.dropWhile_idempotent _ _

theorem retains_nil : Retains width now [] [] := fun _ _ => le_rfl

theorem capped_nil : Capped width cap [] := fun _ => Nat.zero_le _

theorem Retains.mono (h : Retains width now q log) {later : K} (hle : now ≤ later) :
    Retains width later q log :=
  fun r hr => h r (hle.trans hr)

variable [IsOrderedAddMonoid K]

/-- What a prune drops is not fresh any more, then or later. -/
theorem fresh_prune {r : K} (hr : now ≤ r) :
    fresh width r (prune width now q) = fresh width r q := by
  induction q with
  | nil => rfl
  | cons t q ih =>
    by_cases hold : width ≤ now - t
    · have hstale : ¬ r - t < width := (hold.trans (sub_le_sub_right hr t)).not_gt
      have hdrop : prune width now (t :: q) = prune width now q :=
        List.dropWhile_cons_of_pos (by simpa using hold)
      rw [hdrop, ih, fresh, fresh, List.countP_cons_of_neg (by simpa using hstale)]
    · rw [prune, List.dropWhile_cons_of_neg (by simpa using hold)]

theorem Retains.prune (h : Retains width now q log) {later : K} (hle : now ≤ later) :
    Retains width later (prune width later q) log := by
  intro r hr
  rw [fresh_prune hr]
  exact h r (hle.trans hr)

omit [IsOrderedAddMonoid K] in
theorem Retains.push (h : Retains width now q log) (t : K) :
    Retains width now (q ++ [t]) (t :: log) := by
  intro r hr
  have hold := h r hr
  simp only [fresh, List.countP_append, List.countP_cons, List.countP_nil] at hold ⊢
  omega

/-- An event that finds room in the queue leaves every window within the cap. -/
theorem Capped.cons (hc : Capped width cap log) (h : Retains width now q log)
    (hroom : q.length < cap) (ht : now ≤ t) : Capped width cap (t :: log) := by
  intro s
  by_cases hin : s ≤ t ∧ t < s + width
  · have hold : within width log s ≤ fresh width now log := by
      refine List.countP_mono_left fun x _ hx => ?_
      simp only [decide_eq_true_eq] at hx ⊢
      calc now - x ≤ t - s := sub_le_sub ht hx.1
        _ < width := sub_lt_iff_lt_add'.mpr hin.2
    have hroom' : within width log s < cap :=
      (hold.trans ((h now le_rfl).trans List.countP_le_length)).trans_lt hroom
    rw [within, List.countP_cons_of_pos (by simpa using hin)]
    exact hroom'
  · rw [within, List.countP_cons_of_neg (by simpa using hin)]
    exact hc s

end SlidingWindow
