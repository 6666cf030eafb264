import Mathlib.Logic.Function.Basic

/-! A role that at most one of many tasks plays at a time, and what the move of one
task does to it. -/
namespace Role
variable {ι Φ : Type*} {D : ι → Prop} {R : Φ → Prop} {f g : ι → Φ}

/-- A task in a phase that the moving task does not get to is another one, where it was. -/
theorem of_update [DecidableEq ι] {i j : ι} {p : Φ} {Q : Φ → Prop}
    (h : Q (Function.update f i p j)) (hp : ¬ Q p) : j ≠ i ∧ Q (f j) := by
  by_cases hji : j = i
  · rw [hji, Function.update_self] at h
    exact absurd h hp
  · rw [Function.update_of_ne hji] at h
    exact ⟨hji, h⟩

theorem of_update_eq [DecidableEq ι] {i j : ι} {p q : Φ} (h : Function.update f i p j = q)
    (hp : p ≠ q) : j ≠ i ∧ f j = q :=
  of_update (Q := fun s => s = q) h hp

/-- Of the tasks in `D`, at most one is in a phase where `R` holds. -/
def AtMostOne (D : ι → Prop) (R : Φ → Prop) (f : ι → Φ) : Prop :=
  ∀ i j, D i → D j → R (f i) → R (f j) → i = j

theorem AtMostOne.alone (h : AtMostOne D R f) {i j : ι} (hi : D i) (hj : D j) (hji : j ≠ i)
    (hr : R (f j)) : ¬ R (f i) :=
  fun hri => hji (h j i hj hi hr hri)

theorem AtMostOne.of_imp (h : AtMostOne D R f) (hg : ∀ i, D i → R (g i) → R (f i)) :
    AtMostOne D R g := by
  intro i j hi hj hri hrj
  exact h i j hi hj (hg i hi hri) (hg j hj hrj)

/-- A task may take the role on when it has it already or nobody else does. -/
theorem AtMostOne.update [DecidableEq ι] (h : AtMostOne D R f) {i : ι} {p : Φ}
    (hp : R p → R (f i) ∨ ∀ j, D j → j ≠ i → ¬ R (f j)) :
    AtMostOne D R (Function.update f i p) := by
  -- another task in the role leaves none for `i`
  have hother (j : ι) (hi : D i) (hj : D j) (hji : j ≠ i) (hr : R (f j)) : ¬ R p := by
    intro hrp
    obtain hold | hnone := hp hrp
    · exact h.alone hi hj hji hr hold
    · exact hnone j hj hji hr
  intro a b ha hb hra hrb
  by_cases hai : a = i
  · by_cases hbi : b = i
    · rw [hai, hbi]
    · subst hai
      rw [Function.update_self] at hra
      rw [Function.update_of_ne hbi] at hrb
      exact absurd hra (hother b ha hb hbi hrb)
  · rw [Function.update_of_ne hai] at hra
    by_cases hbi : b = i
    · subst hbi
      rw [Function.update_self] at hrb
      exact absurd hrb (hother a hb ha hai hra)
    · rw [Function.update_of_ne hbi] at hrb
      exact h a b ha hb hra hrb

end Role
