import Mathlib.Data.List.Perm.Basic
import Mathlib.Data.List.Flatten

/-! Batches that are under way at the same time, oldest first. Any of them may be the next to
change or to end. -/
namespace UnderWay
variable {α : Type*} {batches : List (List α)} {batch batch' : List α} {i : ℕ} {a : α}

/-- One of the batches and the others. -/
theorem perm_cons_eraseIdx {β : Type*} {bs : List β} {b : β} (h : bs[i]? = some b) :
    bs.Perm (b :: bs.eraseIdx i) := by
  obtain ⟨hi, rfl⟩ := List.getElem?_eq_some_iff.mp h
  exact (List.getElem_cons_eraseIdx_perm hi).symm

theorem flatten_perm (h : batches[i]? = some batch) :
    batches.flatten.Perm (batch ++ (batches.eraseIdx i).flatten) := by
  rw [← List.flatten_cons]
  exact (perm_cons_eraseIdx h).flatten

theorem flatten_set_perm (h : batches[i]? = some batch) :
    (batches.set i batch').flatten.Perm (batch' ++ (batches.eraseIdx i).flatten) := by
  obtain ⟨hi, -⟩ := List.getElem?_eq_some_iff.mp h
  rw [← List.flatten_cons]
  exact (List.set_perm_cons_eraseIdx hi batch').flatten

/-- One element leaves its batch. -/
theorem flatten_perm_erase {j : ℕ} (h : batches[i]? = some batch) (ha : batch[j]? = some a) :
    batches.flatten.Perm (a :: (batches.set i (batch.eraseIdx j)).flatten) := by
  have hbatch : batch.Perm (a :: batch.eraseIdx j) := perm_cons_eraseIdx ha
  refine (flatten_perm h).trans ((hbatch.append_right _).trans ?_)
  exact (flatten_set_perm h).symm.cons _

end UnderWay
