import Mathlib.Algebra.Order.Field.Rat
import Mathlib.Tactic.Linarith

/-! What a reader knows that may be behind: a value that its source had at some time of a window
before now. -/
variable {α : Type*} {source : ℚ → α} {w x t t' r : ℚ} {v : α}

def SeenWithin (source : ℚ → α) (w t : ℚ) (v : α) : Prop :=
  ∃ r, t - w ≤ r ∧ r ≤ t ∧ source r = v

namespace SeenWithin

theorem of_read (hle : r ≤ t) (hage : t - w ≤ r) : SeenWithin source w t (source r) :=
  ⟨r, hage, hle, rfl⟩

/-- It ages. -/
theorem later (h : SeenWithin source w t v) (hle : t ≤ t') (hage : t' - t ≤ x) :
    SeenWithin source (x + w) t' v := by
  obtain ⟨r, hr, hrt, hv⟩ := h
  exact ⟨r, by linarith, hrt.trans hle, hv⟩

theorem mono (h : SeenWithin source w t v) (hle : w ≤ x) : SeenWithin source x t v := by
  obtain ⟨r, hr, hrt, hv⟩ := h
  exact ⟨r, by linarith, hrt, hv⟩

/-- A source that stays as it is for the whole window is seen as it is. -/
theorem eq_of_constant (h : SeenWithin source w t v) {u : α}
    (hconst : ∀ r, t - w ≤ r → r ≤ t → source r = u) : v = u := by
  obtain ⟨r, hr, hrt, rfl⟩ := h
  exact hconst r hr hrt

end SeenWithin
