import Mathlib.Data.List.Basic

/-! Counters of consecutive observations: what a count says of a history that is kept
newest first. -/
namespace Consecutive
variable {α : Type*} {p : α → Prop} {n : ℕ} {h : List α} {a : α}

/-- The last `n` observations were made, and all of them satisfy `p`. -/
def LastAll (p : α → Prop) (n : ℕ) (h : List α) : Prop := n ≤ h.length ∧ ∀ a ∈ h.take n, p a

instance [DecidablePred p] : Decidable (LastAll p n h) :=
  inferInstanceAs (Decidable (_ ∧ ∀ a ∈ h.take n, p a))

@[simp] theorem lastAll_zero : LastAll p 0 h := ⟨Nat.zero_le _, by simp⟩

theorem LastAll.cons (hs : LastAll p n h) (ha : p a) : LastAll p (n + 1) (a :: h) := by
  refine ⟨Nat.succ_le_succ hs.1, ?_⟩
  rw [List.take_succ_cons, List.forall_mem_cons]
  exact ⟨ha, hs.2⟩

theorem LastAll.mono {m : ℕ} (hs : LastAll p n h) (hm : m ≤ n) : LastAll p m h :=
  ⟨Nat.le_trans hm hs.1, fun a ha => hs.2 a ((List.take_sublist_take_left hm).subset ha)⟩

/-- An observation that is not kept leaves the kept ones as they were. -/
theorem LastAll.skip {keep : α → Bool} (hs : LastAll p n (h.filter keep)) (ha : keep a = false) :
    LastAll p n ((a :: h).filter keep) := by
  rwa [List.filter_cons_of_neg (by simp [ha])]

theorem LastAll.keep {keep : α → Bool} (hs : LastAll p n (h.filter keep)) (ha : keep a = true)
    (hp : p a) : LastAll p (n + 1) ((a :: h).filter keep) := by
  rw [List.filter_cons_of_pos ha]
  exact hs.cons hp

/-- How many of the last observations in a row satisfy `p`. -/
def streak (p : α → Prop) [DecidablePred p] (h : List α) : ℕ := (h.takeWhile p).length

section Streak
variable [DecidablePred p]

theorem streak_cons_of_pos (ha : p a) : streak p (a :: h) = streak p h + 1 := by
  simp [streak, ha]

theorem streak_cons_of_neg (ha : ¬p a) : streak p (a :: h) = 0 := by
  simp [streak, ha]

theorem lastAll_iff_le_streak : LastAll p n h ↔ n ≤ streak p h := by
  induction h generalizing n with
  | nil =>
    refine ⟨fun hs => hs.1, fun hle => ?_⟩
    rw [Nat.le_zero.mp hle]
    exact lastAll_zero
  | cons a h ih =>
    cases n with
    | zero => simp
    | succ n =>
      by_cases ha : p a
      · rw [streak_cons_of_pos ha, Nat.add_le_add_iff_right, ← ih]
        refine ⟨fun hs => ⟨Nat.le_of_succ_le_succ hs.1, ?_⟩, fun hs => hs.cons ha⟩
        exact (List.forall_mem_cons.mp hs.2).2
      · rw [streak_cons_of_neg ha]
        refine iff_of_false (fun hs => ha ?_) (Nat.not_succ_le_zero n)
        exact hs.2 a (by simp)

end Streak

end Consecutive
