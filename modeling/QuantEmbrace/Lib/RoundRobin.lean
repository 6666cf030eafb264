import Mathlib.Data.List.Basic

/-! Turns of a scheduler. What it hands out next is read off a cycle: every turn gives the head
and moves it to the end. -/
namespace RoundRobin
variable {σ α : Type*} {next : σ → Option α × σ}

/-- What a number of turns hand out. -/
def turns (next : σ → Option α × σ) : ℕ → σ → List α
  | 0, _ => []
  | n + 1, s => (next s).1.toList ++ turns next n (next s).2

/-- The states that `Ahead` relates to a cycle go through it. -/
def GoesThrough (next : σ → Option α × σ) (Ahead : σ → List α → Prop) : Prop :=
  ∀ s a c, Ahead s (a :: c) → (next s).1 = some a ∧ Ahead (next s).2 (c ++ [a])

variable {Ahead : σ → List α → Prop}

/-- The turns give an initial part of the cycle, and then stand at the rest. -/
theorem turns_initial (h : GoesThrough next Ahead) (c : List α) {rest : List α} {s : σ}
    (hs : Ahead s (c ++ rest)) : turns next c.length s = c := by
  induction c generalizing rest s with
  | nil => rfl
  | cons a c ih =>
    obtain ⟨hgive, hahead⟩ := h s a (c ++ rest) hs
    rw [List.append_assoc] at hahead
    rw [List.length_cons, turns, hgive, ih hahead, Option.toList_some, List.singleton_append]

/-- One round. -/
theorem turns_cycle (h : GoesThrough next Ahead) {c : List α} {s : σ} (hs : Ahead s c) :
    turns next c.length s = c := by
  rw [← List.append_nil c] at hs
  exact turns_initial h c hs

/-- Nothing but the cycle is ever handed out. -/
theorem turns_subset (h : GoesThrough next Ahead) (n : ℕ) {c : List α} (hc : c ≠ []) {s : σ}
    (hs : Ahead s c) : turns next n s ⊆ c := by
  induction n generalizing c s with
  | zero => exact List.nil_subset _
  | succ n ih =>
    cases c with
    | nil => exact absurd rfl hc
    | cons a c =>
      obtain ⟨hgive, hahead⟩ := h s a c hs
      have hrest : turns next n (next s).2 ⊆ c ++ [a] := ih (by simp) hahead
      rw [turns, hgive]
      intro x hx
      obtain hx | hx := List.mem_append.mp hx
      · simp only [Option.toList_some, List.mem_singleton] at hx
        exact hx ▸ List.mem_cons_self
      · exact (List.perm_append_singleton a c).subset (hrest hx)

end RoundRobin
