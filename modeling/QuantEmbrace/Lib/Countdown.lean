import QuantEmbrace.Lib.Stamped
import Mathlib.Data.List.Count
import Mathlib.Data.List.Induction
import Mathlib.Logic.Function.Basic

/-! Counters, one for each key, that are set to a number now and then and count down to zero. -/
namespace Countdown
variable {κ : Type*} [DecidableEq κ]

abbrev Counters (κ : Type*) : Type _ := κ → ℕ

def arm (n : ℕ) (keys : List κ) (c : Counters κ) : Counters κ := fun k => if k ∈ keys then n else c k

def consume (k : κ) (c : Counters κ) : Counters κ := Function.update c k (c k - 1)

inductive Event (κ : Type*) where
  | arm (keys : List κ)
  | consume (k : κ)
  deriving DecidableEq, Repr

def step (n : ℕ) (c : Counters κ) : Event κ → Counters κ
  | .arm keys => arm n keys c
  | .consume k => consume k c

def run (n : ℕ) (events : List (Event κ)) : Counters κ := events.foldl (step n) fun _ => 0

/-- The key has been armed and has counted fewer than a number since. -/
def Within (n : ℕ) (events : List (Event κ)) (k : κ) : Prop :=
  ∃ pre keys post, events = pre ++ .arm keys :: post ∧ k ∈ keys ∧ post.count (.consume k) < n

variable {n m : ℕ} {events : List (Event κ)} {e : Event κ} {k : κ}

theorem run_snoc : run n (events ++ [e]) = step n (run n events) e := by
  rw [run, List.foldl_append]
  rfl

theorem not_within_nil : ¬ Within n [] k := by
  rintro ⟨pre, keys, post, h, -⟩
  exact List.append_ne_nil_of_right_ne_nil pre (List.cons_ne_nil _ post) h.symm

theorem within_snoc : Within n (events ++ [e]) k ↔
    (∃ keys, e = .arm keys ∧ k ∈ keys ∧ 0 < n) ∨
      ∃ pre keys post, events = pre ++ .arm keys :: post ∧ k ∈ keys ∧
        (post ++ [e]).count (.consume k) < n := by
  constructor
  · rintro ⟨pre, keys, post, h, hk, hcount⟩
    obtain ⟨rfl, -, he⟩ | ⟨post, rfl, rfl⟩ := Stamped.split_snoc.mp h
    · exact .inl ⟨keys, he.symm, hk, hcount⟩
    · exact .inr ⟨pre, keys, post, rfl, hk, hcount⟩
  · rintro (⟨keys, rfl, hk, hn⟩ | ⟨pre, keys, post, rfl, hk, hcount⟩)
    · exact ⟨events, keys, [], rfl, hk, hn⟩
    · exact ⟨pre, keys, post ++ [e], by simp, hk, hcount⟩

/-- A counter is above a number exactly if it has been armed and has counted less than the rest
since. -/
theorem lt_run_iff : m < run n events k ↔ Within (n - m) events k := by
  induction events using List.reverseRecOn generalizing m with
  | nil => exact iff_of_false (Nat.not_lt_zero m) not_within_nil
  | append_singleton events e ih =>
    rw [run_snoc, within_snoc]
    cases e with
    | arm keys =>
      rw [step, arm]
      by_cases hk : k ∈ keys
      · rw [if_pos hk]
        constructor
        · exact fun h => .inl ⟨keys, rfl, hk, Nat.sub_pos_of_lt h⟩
        · rintro (⟨_, -, -, hn⟩ | ⟨_, _, _, -, -, hcount⟩)
          · exact Nat.lt_of_sub_pos hn
          · exact Nat.lt_of_sub_pos (Nat.zero_lt_of_lt hcount)
      · rw [if_neg hk, ih]
        constructor
        · rintro ⟨pre, keys', post, heq, hk', hcount⟩
          exact .inr ⟨pre, keys', post, heq, hk', by simpa using hcount⟩
        · rintro (⟨_, harm, hk', -⟩ | ⟨pre, keys', post, heq, hk', hcount⟩)
          · cases harm
            exact absurd hk' hk
          · exact ⟨pre, keys', post, heq, hk', by simpa using hcount⟩
    | consume k' =>
      rw [step, consume]
      by_cases hk : k = k'
      · subst hk
        rw [Function.update_self, Nat.lt_sub_iff_add_lt, ih]
        constructor
        · rintro ⟨pre, keys, post, heq, hk, hcount⟩
          refine .inr ⟨pre, keys, post, heq, hk, ?_⟩
          rw [List.count_append, List.count_singleton_self]
          omega
        · rintro (⟨_, harm, -⟩ | ⟨pre, keys, post, heq, hk, hcount⟩)
          · cases harm
          · rw [List.count_append, List.count_singleton_self] at hcount
            exact ⟨pre, keys, post, heq, hk, by omega⟩
      · have hcount (post : List (Event κ)) :
            (post ++ [Event.consume k']).count (Event.consume k) = post.count (Event.consume k) := by
          rw [List.count_append, List.count_singleton, if_neg (by simpa using Ne.symm hk),
            Nat.add_zero]
        rw [Function.update_of_ne hk, ih]
        simp only [hcount, reduceCtorEq, false_and, exists_const, false_or]
        rfl

theorem pos_run_iff : 0 < run n events k ↔ Within n events k := lt_run_iff

end Countdown
