import Mathlib.Algebra.BigOperators.Group.Finset.Piecewise
import Mathlib.Logic.Function.Basic
import Mathlib.Tactic.Abel

/-! An amount that is split between what has been booked and what tasks, however many,
still carry: one task picks up, one task puts down, and nothing is left at rest. -/
namespace InFlight
variable {ι A : Type*} [AddCommGroup A] {f : ι → Option A} {s a : A} {i : ι}

/-- The tasks together carry `s`. -/
def Carried (f : ι → Option A) (s : A) : Prop :=
  ∃ t : Finset ι, (∀ i, i ∈ t ↔ f i ≠ none) ∧ s = ∑ i ∈ t, (f i).getD 0

theorem carried_of_none (h : ∀ i, f i = none) : Carried f 0 :=
  ⟨∅, fun i => by simp [h i], rfl⟩

theorem Carried.eq_zero (hc : Carried f s) (h : ∀ i, f i = none) : s = 0 := by
  obtain ⟨t, ht, rfl⟩ := hc
  exact Finset.sum_eq_zero fun i hi => absurd (h i) ((ht i).mp hi)

/-- `a` is the sum of `g`, which is zero almost everywhere. -/
def Total {κ : Type*} (g : κ → A) (a : A) : Prop :=
  ∃ t : Finset κ, (∀ k, k ∉ t → g k = 0) ∧ a = ∑ k ∈ t, g k

theorem sum_insert_update {κ : Type*} [DecidableEq κ] {g : κ → A} {t : Finset κ} {k : κ}
    (hk : k ∉ t → g k = 0) (b : A) :
    ∑ j ∈ insert k t, Function.update g k b j = ∑ j ∈ t, g j + (b - g k) := by
  have hsum : ∑ j ∈ insert k t, g j = ∑ j ∈ t, g j :=
    Finset.sum_insert_of_eq_zero_if_notMem hk
  rw [Finset.sum_update_of_mem (Finset.mem_insert_self k t), ← hsum,
    ← Finset.sum_sdiff (Finset.singleton_subset_iff.mpr (Finset.mem_insert_self k t)),
    Finset.sum_singleton]
  abel

theorem Total.update {κ : Type*} [DecidableEq κ] {g : κ → A} (h : Total g a) (k : κ) (b : A) :
    Total (Function.update g k b) (a + (b - g k)) := by
  obtain ⟨t, ht, rfl⟩ := h
  refine ⟨insert k t, fun j hj => ?_, (sum_insert_update (ht k) b).symm⟩
  obtain ⟨hne, hj⟩ := not_or.mp (mt Finset.mem_insert.mpr hj)
  rw [Function.update_of_ne hne, ht j hj]

variable [DecidableEq ι]

theorem sum_update_of_notMem {t : Finset ι} (hi : i ∉ t) (o : Option A) :
    ∑ j ∈ t, (Function.update f i o j).getD 0 = ∑ j ∈ t, (f j).getD 0 := by
  refine Finset.sum_congr rfl fun j hj => ?_
  rw [Function.update_of_ne (by rintro rfl; exact hi hj)]

theorem Carried.pick (hc : Carried f s) (hi : f i = none) :
    Carried (Function.update f i (some a)) (s + a) := by
  obtain ⟨t, ht, rfl⟩ := hc
  have hit : i ∉ t := fun h => (ht i).mp h hi
  refine ⟨insert i t, fun j => ?_, ?_⟩
  · by_cases hj : j = i
    · simp [hj]
    · simp [hj, ht j]
  · rw [Finset.sum_insert hit, sum_update_of_notMem hit, Function.update_self, add_comm]
    rfl

theorem Carried.drop (hc : Carried f s) (hi : f i = some a) :
    Carried (Function.update f i none) (s - a) := by
  obtain ⟨t, ht, rfl⟩ := hc
  have hit : i ∈ t := (ht i).mpr (by simp [hi])
  refine ⟨t.erase i, fun j => ?_, ?_⟩
  · by_cases hj : j = i
    · simp [hj]
    · simp [hj, ht j]
  · rw [sum_update_of_notMem (Finset.notMem_erase i t), ← Finset.sum_erase_add t _ hit, hi,
      Option.getD_some, add_sub_cancel_right]

/-- A task that carries nothing before and after changes nothing. -/
theorem Carried.rest (hc : Carried f s) (hi : f i = none) :
    Carried (Function.update f i none) s := by
  rwa [← hi, Function.update_eq_self]

end InFlight
