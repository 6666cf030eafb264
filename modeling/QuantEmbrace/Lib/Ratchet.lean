import QuantEmbrace.Lib.GuardedRun
import Mathlib.Order.MinMax

/-! A bound that trails a sequence of values in a linear order: it stands still until the
first value that switches it on, and is then raised towards each value and never lowered.
It is hit by a value at or below it and, until it is switched on, by one that reaches a
target. The order dual gives the bound that trails from above. -/
namespace Ratchet
open GuardedRun
variable {α : Type*} [LinearOrder α]

/-- What switches the bound on, how far it trails a value, and the target. -/
structure Rule (α : Type*) where
  on : α → Prop
  decidable_on : DecidablePred on
  trail : α → α
  target : Option α

attribute [instance] Rule.decidable_on

structure Stop (α : Type*) where
  active : Bool
  bound : α

namespace Rule
variable (R : Rule α)

def advance (s : Stop α) (x : α) : Stop α :=
  if s.active = true ∨ R.on x then ⟨true, max s.bound (R.trail x)⟩ else s

def Hit (s : Stop α) (x : α) : Prop :=
  x ≤ s.bound ∨ (s.active = false ∧ ∃ y ∈ R.target, y ≤ x)

/-- The bound in closed form: the trail of the largest value since it was switched on. -/
def boundAfter (b : α) (xs : List α) : α :=
  match xs.dropWhile fun x => ¬ R.on x with
  | [] => b
  | x :: rest => max b (R.trail (rest.foldl max x))

theorem advance_active (b x : α) : R.advance ⟨true, b⟩ x = ⟨true, max b (R.trail x)⟩ :=
  if_pos (Or.inl rfl)

theorem advance_on (b : α) {x : α} (h : R.on x) :
    R.advance ⟨false, b⟩ x = ⟨true, max b (R.trail x)⟩ :=
  if_pos (Or.inr h)

theorem advance_off (b : α) {x : α} (h : ¬ R.on x) : R.advance ⟨false, b⟩ x = ⟨false, b⟩ :=
  if_neg (by simp [h])

theorem le_advance (s : Stop α) (x : α) : s.bound ≤ (R.advance s x).bound := by
  unfold advance
  split
  · exact le_max_left _ _
  · exact le_rfl

/-- Once it is on, only the largest value counts. -/
theorem foldl_active (hmono : Monotone R.trail) (b x : α) (xs : List α) :
    xs.foldl R.advance ⟨true, max b (R.trail x)⟩ =
      ⟨true, max b (R.trail (xs.foldl max x))⟩ := by
  induction xs generalizing x with
  | nil => rfl
  | cons y ys ih =>
    have hmax : max (max b (R.trail x)) (R.trail y) = max b (R.trail (max x y)) := by
      rw [hmono.map_max, max_assoc]
    rw [List.foldl_cons, advance_active, hmax, ih, List.foldl_cons]

theorem foldl_advance (hmono : Monotone R.trail) (b : α) (xs : List α) :
    xs.foldl R.advance ⟨false, b⟩ = ⟨xs.any fun x => R.on x, R.boundAfter b xs⟩ := by
  induction xs with
  | nil => rfl
  | cons x xs ih =>
    by_cases hx : R.on x
    · rw [List.foldl_cons, R.advance_on b hx, R.foldl_active hmono]
      simp [boundAfter, hx]
    · rw [List.foldl_cons, R.advance_off b hx, ih]
      simp [boundAfter, hx]

/-- A value that does not hit the bound stays above it. -/
theorem advance_lt {s : Stop α} {x : α} (htrail : R.trail x < x) (h : ¬ R.Hit s x) :
    (R.advance s x).bound < x := by
  have hs : s.bound < x := not_le.mp fun hx => h (Or.inl hx)
  unfold advance
  split
  · exact max_lt hs htrail
  · exact hs

theorem not_hit_again {s : Stop α} {x : α} (htrail : R.trail x < x) (h : ¬ R.Hit s x) :
    ¬ R.Hit (R.advance s x) x := by
  rintro (hx | ⟨hoff, htarget⟩)
  · exact absurd hx (not_le.mpr (R.advance_lt htrail h))
  · have hs : s.active = false := by
      by_contra hon
      rw [advance, if_pos (Or.inl (by simpa using hon))] at hoff
      exact nomatch hoff
    exact h (Or.inr ⟨hs, htarget⟩)

/-- The value `x` hits the bound that the values before it have left. -/
def HitAfter (b : α) (xs : List α) (x : α) : Prop :=
  x ≤ R.boundAfter b xs ∨ ((∀ y ∈ xs, ¬ R.on y) ∧ ∃ y ∈ R.target, y ≤ x)

theorem hitAfter_iff (hmono : Monotone R.trail) (b : α) (xs : List α) (x : α) :
    R.HitAfter b xs x ↔ R.Hit (xs.foldl R.advance ⟨false, b⟩) x := by
  rw [R.foldl_advance hmono, HitAfter, Hit]
  simp

theorem boundAfter_mono (hmono : Monotone R.trail) (b : α) {pre xs : List α} (h : pre <+: xs) :
    R.boundAfter b pre ≤ R.boundAfter b xs := by
  obtain ⟨post, rfl⟩ := h
  have hpre : (pre.foldl R.advance ⟨false, b⟩).bound = R.boundAfter b pre :=
    congrArg Stop.bound (R.foldl_advance hmono b pre)
  have hall : ((pre ++ post).foldl R.advance ⟨false, b⟩).bound = R.boundAfter b (pre ++ post) :=
    congrArg Stop.bound (R.foldl_advance hmono b (pre ++ post))
  rw [List.foldl_append] at hall
  rw [← hpre, ← hall]
  exact le_foldl (fun s x (_ : True) => R.le_advance s x) post (fun _ _ => trivial) _

section Last
variable {R} {b x : α} {xs : List α}

/-- A value that does not hit stays above the bound it leaves. -/
theorem boundAfter_lt (hmono : Monotone R.trail) (htrail : R.trail x < x)
    (h : ¬ R.HitAfter b xs x) : R.boundAfter b (xs ++ [x]) < x := by
  have hlt := R.advance_lt htrail fun hhit => h ((R.hitAfter_iff hmono b xs x).mpr hhit)
  have hlast : ((xs ++ [x]).foldl R.advance ⟨false, b⟩).bound < x := by
    rw [List.foldl_append]
    exact hlt
  rwa [R.foldl_advance hmono] at hlast

/-- Nor does it hit that bound. -/
theorem not_hitAfter_again (hmono : Monotone R.trail) (htrail : R.trail x < x)
    (h : ¬ R.HitAfter b xs x) : ¬ R.HitAfter b (xs ++ [x]) x := by
  rw [R.hitAfter_iff hmono, List.foldl_append]
  exact R.not_hit_again htrail fun hhit => h ((R.hitAfter_iff hmono b xs x).mpr hhit)

end Last

/-- A system that goes through the states of the rule and fires on its hits: when a run has
fired nothing, and where it is then. -/
theorem simulated {σ ε : Type*} {step : σ → ε → σ} {fires : σ → ε → Prop} {f : ε → α}
    {P : σ → Stop α → Prop} (agree : ∀ s t e, P s t → (fires s e ↔ R.Hit t (f e)))
    (keep : ∀ s t e, P s t → ¬ fires s e → P (step s e) (R.advance t (f e)))
    (hmono : Monotone R.trail) {s : σ} {b : α} (h : P s ⟨false, b⟩) (es : List ε) :
    (StepsMeet step (fun s e => ¬ fires s e) s es ↔
        ∀ pre e, pre ++ [e] <+: es → ¬ R.HitAfter b (pre.map f) (f e)) ∧
      (StepsMeet step (fun s e => ¬ fires s e) s es →
        P (es.foldl step s) ⟨(es.map f).any fun x => R.on x, R.boundAfter b (es.map f)⟩ ∧
          ∀ e, fires (es.foldl step s) e ↔ R.HitAfter b (es.map f) (f e)) := by
  have hsim : (StepsMeet step (fun s e => ¬ fires s e) s es ↔
        StepsMeet R.advance (fun t x => ¬ R.Hit t x) ⟨false, b⟩ (es.map f)) ∧
      (StepsMeet step (fun s e => ¬ fires s e) s es →
        P (es.foldl step s) ((es.map f).foldl R.advance ⟨false, b⟩)) :=
    @StepsMeet.simulate σ ε (Stop α) α step (fun s e => ¬ fires s e) R.advance
      (fun t x => ¬ R.Hit t x) P f (fun s t e hP => not_congr (agree s t e hP)) keep s _ h es
  constructor
  · rw [hsim.1, stepsMeet_map, stepsMeet_iff_prefix]
    refine forall₃_congr fun pre e _ => not_congr ?_
    rw [R.hitAfter_iff hmono, List.foldl_map]
  · intro hquiet
    have hend := hsim.2 hquiet
    refine ⟨R.foldl_advance hmono b (es.map f) ▸ hend, fun e => ?_⟩
    rw [agree _ _ e hend, R.hitAfter_iff hmono]

/-- The last value of such a run is past the bound it leaves, and would not fire there. -/
theorem simulated_last {σ ε : Type*} {step : σ → ε → σ} {fires : σ → ε → Prop} {f : ε → α}
    {P : σ → Stop α → Prop} (agree : ∀ s t e, P s t → (fires s e ↔ R.Hit t (f e)))
    (keep : ∀ s t e, P s t → ¬ fires s e → P (step s e) (R.advance t (f e)))
    (hmono : Monotone R.trail) {s : σ} {b : α} (h : P s ⟨false, b⟩) {pre : List ε} {e : ε}
    (htrail : R.trail (f e) < f e)
    (hquiet : StepsMeet step (fun s e => ¬ fires s e) s (pre ++ [e])) :
    R.boundAfter b ((pre ++ [e]).map f) < f e ∧ ¬ fires ((pre ++ [e]).foldl step s) e := by
  obtain ⟨hmisses, hend⟩ := R.simulated agree keep hmono h (pre ++ [e])
  have hmiss := hmisses.mp hquiet pre e List.prefix_rfl
  rw [(hend hquiet).2, List.map_append, List.map_singleton]
  exact ⟨boundAfter_lt hmono htrail hmiss, not_hitAfter_again hmono htrail hmiss⟩

end Rule
end Ratchet
