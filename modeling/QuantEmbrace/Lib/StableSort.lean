import Mathlib.Data.List.Sort

/-! What a stable sort does with elements that it cannot tell apart: it leaves them in the order
they are in, so it sorts by any finer relation that agrees with that order. -/
namespace StableSort
variable {α : Type*} {r s : α → α → Prop} [DecidableRel r] [DecidableRel s] {l : List α}

theorem orderedInsert_congr {a : α} (h : ∀ b ∈ l, r a b ↔ s a b) :
    l.orderedInsert r a = l.orderedInsert s a := by
  induction l with
  | nil => rfl
  | cons b l ih =>
    obtain ⟨hb, hl⟩ := List.forall_mem_cons.mp h
    rw [List.orderedInsert_cons, List.orderedInsert_cons, ih hl]
    simp only [hb]

/-- Two relations that agree on each element and those behind it sort alike. -/
theorem insertionSort_congr (h : l.Pairwise fun a b => r a b ↔ s a b) :
    l.insertionSort r = l.insertionSort s := by
  induction l with
  | nil => rfl
  | cons a l ih =>
    obtain ⟨ha, hl⟩ := List.pairwise_cons.mp h
    rw [List.insertionSort_cons, List.insertionSort_cons, ih hl]
    exact orderedInsert_congr fun b hb => ha b ((List.mem_insertionSort s).mp hb)

theorem pairwise_insertionSort [Std.Total s] [IsTrans α s]
    (h : l.Pairwise fun a b => r a b ↔ s a b) : (l.insertionSort r).Pairwise s := by
  rw [insertionSort_congr h]
  exact List.pairwise_insertionSort s l

end StableSort
