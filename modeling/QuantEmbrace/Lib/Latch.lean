import QuantEmbrace.Lib.GuardedRun

/-! A flag of a state machine: some steps set it, some clear it, and the others leave it as it
is. -/
namespace Latch
open GuardedRun
variable {σ ε : Type*}

/-- What the steps do to the flag. A step may not both set and clear it. -/
structure Flag (step : σ → ε → σ) (flag : σ → Prop) (Sets Clears : σ → ε → Prop) : Prop where
  set : ∀ s e, Sets s e → flag (step s e)
  clear : ∀ s e, Clears s e → ¬ flag (step s e)
  keep : ∀ s e, ¬ Sets s e → ¬ Clears s e → (flag (step s e) ↔ flag s)

/-- The flag was on at the beginning or set by some step, and no step cleared it later. -/
def SetLast (step : σ → ε → σ) (flag : σ → Prop) (Sets Clears : σ → ε → Prop) (s : σ)
    (es : List ε) : Prop :=
  (flag s ∧ StepsMeet step (fun s e => ¬ Clears s e) s es) ∨
    ∃ pre e post, es = pre ++ e :: post ∧ Sets (pre.foldl step s) e ∧
      StepsMeet step (fun s e => ¬ Clears s e) (step (pre.foldl step s) e) post

variable {step : σ → ε → σ} {flag : σ → Prop} {Sets Clears : σ → ε → Prop} {s : σ} {es : List ε}

theorem setLast_cons (h : Flag step flag Sets Clears) (e : ε) :
    SetLast step flag Sets Clears s (e :: es) ↔ SetLast step flag Sets Clears (step s e) es := by
  constructor
  · intro hlast
    obtain ⟨hs, hkept, hes⟩ | ⟨pre, a, post, heq, hset, hpost⟩ := hlast
    · by_cases hset : Sets s e
      · exact .inl ⟨h.set s e hset, hes⟩
      · exact .inl ⟨(h.keep s e hset hkept).mpr hs, hes⟩
    · cases pre with
      | nil =>
        obtain ⟨rfl, rfl⟩ := List.cons_eq_cons.mp heq
        exact .inl ⟨h.set s e hset, hpost⟩
      | cons b pre =>
        obtain ⟨rfl, rfl⟩ := List.cons_eq_cons.mp heq
        exact .inr ⟨pre, a, post, rfl, hset, hpost⟩
  · intro hlast
    obtain ⟨hs, hes⟩ | ⟨pre, a, post, rfl, hset, hpost⟩ := hlast
    · by_cases hset : Sets s e
      · exact .inr ⟨[], e, es, rfl, hset, hes⟩
      · have hkept : ¬ Clears s e := fun hclear => h.clear s e hclear hs
        exact .inl ⟨(h.keep s e hset hkept).mp hs, hkept, hes⟩
    · exact .inr ⟨e :: pre, a, post, rfl, hset, hpost⟩

/-- The flag after a run is what the last step that concerned it made it. -/
theorem Flag.on_iff (h : Flag step flag Sets Clears) (s : σ) (es : List ε) :
    flag (es.foldl step s) ↔ SetLast step flag Sets Clears s es := by
  induction es generalizing s with
  | nil => simp [SetLast, StepsMeet]
  | cons e es ih => rw [List.foldl_cons, ih, setLast_cons h]

end Latch
