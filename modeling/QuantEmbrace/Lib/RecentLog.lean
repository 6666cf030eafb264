import Mathlib.Data.List.Basic
import Mathlib.Order.Lattice

/-! A log of times in ascending order, of which a queue keeps those from a cut on. -/
namespace RecentLog
variable {K : Type*} [LinearOrder K] {cut clock t : K} {queue log : List K}

/-- Dropping the front of an ascending queue drops all that are old. -/
theorem dropWhile_lt (h : queue.Pairwise (· ≤ ·)) (cut : K) :
    queue.dropWhile (· < cut) = queue.filter (cut ≤ ·) := by
  induction queue with
  | nil => rfl
  | cons t queue ih =>
    by_cases hold : t < cut
    · rw [List.dropWhile_cons_of_pos (by simpa using hold), ih h.of_cons,
        List.filter_cons_of_neg (by simpa using hold)]
    · have hall : ∀ u ∈ t :: queue, cut ≤ u := by
        intro u hu
        obtain rfl | hu := List.mem_cons.mp hu
        · exact not_lt.mp hold
        · exact (not_lt.mp hold).trans (List.rel_of_pairwise_cons h hu)
      rw [List.dropWhile_cons_of_neg (by simpa using hold)]
      exact (List.filter_eq_self.mpr fun u hu => by simpa using hall u hu).symm

/-- The log ascends up to the clock, and the queue is its part from the cut on. -/
structure Keeps (cut clock : K) (queue log : List K) : Prop where
  ascending : log.Pairwise (· ≤ ·)
  past : ∀ t ∈ log, t ≤ clock
  kept : queue = log.filter (cut ≤ ·)

theorem keeps_nil : Keeps cut clock [] [] where
  ascending := List.Pairwise.nil
  past := fun _ h => absurd h List.not_mem_nil
  kept := rfl

theorem Keeps.mono (h : Keeps cut clock queue log) (hle : clock ≤ t) : Keeps cut t queue log :=
  { h with past := fun u hu => (h.past u hu).trans hle }

/-- A later cut drops what is left of the earlier one down to its own part. -/
theorem Keeps.evict (h : Keeps cut clock queue log) {cut' : K} (hle : cut ≤ cut') :
    Keeps cut' clock (queue.dropWhile (· < cut')) log := by
  refine { h with kept := ?_ }
  have hqueue : queue.Pairwise (· ≤ ·) := h.kept ▸ h.ascending.sublist List.filter_sublist
  rw [dropWhile_lt hqueue, h.kept, List.filter_filter]
  refine List.filter_congr fun u _ => ?_
  rw [Bool.and_eq_left_iff_imp.mpr]
  exact fun hu => decide_eq_true (hle.trans (of_decide_eq_true hu))

theorem Keeps.push (h : Keeps cut clock queue log) (ht : clock ≤ t) (hcut : cut ≤ t) :
    Keeps cut t (queue ++ [t]) (log ++ [t]) where
  ascending := List.pairwise_append.mpr ⟨h.ascending, List.pairwise_singleton _ _, fun u hu v hv =>
    List.mem_singleton.mp hv ▸ (h.past u hu).trans ht⟩
  past := List.forall_mem_append.mpr ⟨(h.mono ht).past, by simp⟩
  kept := by
    rw [List.filter_append, ← h.kept, List.filter_cons_of_pos (by simpa using hcut),
      List.filter_nil]

end RecentLog
