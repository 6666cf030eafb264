import Mathlib.Data.List.Basic

/-! Checks made one after another, up to the first that does not pass. A check may refresh
the state that the later ones look at. -/
namespace Checks
variable {σ ρ : Type*}

abbrev Check (σ ρ : Type*) := σ → ρ × σ

/-- The results of the checks made, and the state they leave. -/
def run (ok : ρ → Bool) : List (Check σ ρ) → σ → List ρ × σ
  | [], s => ([], s)
  | f :: fs, s =>
    if ok (f s).1 then ((f s).1 :: (run ok fs (f s).2).1, (run ok fs (f s).2).2)
    else ([(f s).1], (f s).2)

/-- Every check passes, each in the state that the ones before it leave. -/
def Passes (ok : ρ → Bool) : List (Check σ ρ) → σ → Prop
  | [], _ => True
  | f :: fs, s => ok (f s).1 = true ∧ Passes ok fs (f s).2

variable {ok : ρ → Bool}

theorem run_all_ok_iff (fs : List (Check σ ρ)) (s : σ) :
    (∀ r ∈ (run ok fs s).1, ok r = true) ↔ Passes ok fs s := by
  induction fs generalizing s with
  | nil => simp [run, Passes]
  | cons f fs ih =>
    rw [Passes, run, ← ih]
    by_cases hf : ok (f s).1 = true
    · rw [if_pos hf, List.forall_mem_cons]
    · simp [hf]

end Checks
