import Mathlib.Data.List.Infix
import Mathlib.Logic.Relation
import Mathlib.Order.Defs.PartialOrder

/-! Runs whose steps are admitted one by one. A guard looks at the state before
the step only; an invariant is carried along admitted steps and no others. -/
namespace GuardedRun
variable {σ ε : Type*}

/-- Every event of the list passes `ok` in the state in which it is taken. -/
def StepsMeet (step : σ → ε → σ) (ok : σ → ε → Prop) : σ → List ε → Prop
  | _, [] => True
  | s, e :: es => ok s e ∧ StepsMeet step ok (step s e) es

instance decidableStepsMeet (step : σ → ε → σ) (ok : σ → ε → Prop) [∀ s e, Decidable (ok s e)] :
    (s : σ) → (es : List ε) → Decidable (StepsMeet step ok s es)
  | _, [] => .isTrue trivial
  | s, e :: es => @instDecidableAnd _ _ _ (decidableStepsMeet step ok (step s e) es)

/-- `P` holds of the state reached after every initial part of the list. -/
def AlongRun (step : σ → ε → σ) (P : σ → Prop) (s : σ) (es : List ε) : Prop :=
  ∀ pre, pre <+: es → P (pre.foldl step s)

theorem alongRun_nil (step : σ → ε → σ) (P : σ → Prop) (s : σ) :
    AlongRun step P s [] ↔ P s := by
  simp [AlongRun]

theorem alongRun_cons (step : σ → ε → σ) (P : σ → Prop) (s : σ) (e : ε) (es : List ε) :
    AlongRun step P s (e :: es) ↔ P s ∧ AlongRun step P (step s e) es := by
  constructor
  · intro h
    refine ⟨h [] (List.nil_prefix), ?_⟩
    intro pre hp
    simpa using h (e :: pre) ((List.prefix_cons_inj e).mpr hp)
  · intro ⟨h0, ht⟩ pre hp
    cases pre with
    | nil => exact h0
    | cons a pre =>
      obtain ⟨rfl, hp'⟩ := List.cons_prefix_cons.mp hp
      simpa using ht pre hp'

instance decidableAlongRun (step : σ → ε → σ) (P : σ → Prop) [DecidablePred P] :
    (s : σ) → (es : List ε) → Decidable (AlongRun step P s es)
  | s, [] => decidable_of_iff (P s) (alongRun_nil step P s).symm
  | s, e :: es =>
    have := decidableAlongRun step P (step s e) es
    decidable_of_iff (P s ∧ AlongRun step P (step s e) es) (alongRun_cons step P s e es).symm

theorem AlongRun.head {step : σ → ε → σ} {P : σ → Prop} {s : σ} {es : List ε}
    (h : AlongRun step P s es) : P s :=
  h [] List.nil_prefix

theorem AlongRun.last {step : σ → ε → σ} {P : σ → Prop} {s : σ} {es : List ε}
    (h : AlongRun step P s es) : P (es.foldl step s) :=
  h es (List.prefix_refl es)

theorem StepsMeet.imp {step : σ → ε → σ} {ok ok' : σ → ε → Prop}
    (himp : ∀ s e, ok s e → ok' s e) {s : σ} {es : List ε} (h : StepsMeet step ok s es) :
    StepsMeet step ok' s es := by
  induction es generalizing s with
  | nil => trivial
  | cons e es ih => exact ⟨himp s e h.1, ih h.2⟩

theorem StepsMeet.of_forall {step : σ → ε → σ} {D : ε → Prop} {s : σ} {es : List ε}
    (h : ∀ e ∈ es, D e) : StepsMeet step (fun _ e => D e) s es := by
  induction es generalizing s with
  | nil => trivial
  | cons e es ih => exact ⟨h e (by simp), ih fun a ha => h a (List.mem_cons_of_mem e ha)⟩

/-- A guard that does not look at the state. -/
theorem stepsMeet_iff_forall {step : σ → ε → σ} {D : ε → Prop} {s : σ} {es : List ε} :
    StepsMeet step (fun _ e => D e) s es ↔ ∀ e ∈ es, D e := by
  refine ⟨fun h => ?_, StepsMeet.of_forall⟩
  induction es generalizing s with
  | nil => simp
  | cons e es ih => exact List.forall_mem_cons.mpr ⟨h.1, ih h.2⟩

/-- A guard met by all steps, read off the states reached before each of them. -/
theorem stepsMeet_iff_prefix {step : σ → ε → σ} {ok : σ → ε → Prop} {s : σ} {es : List ε} :
    StepsMeet step ok s es ↔ ∀ pre e, pre ++ [e] <+: es → ok (pre.foldl step s) e := by
  induction es generalizing s with
  | nil => simp [StepsMeet]
  | cons a es ih =>
    rw [StepsMeet, ih]
    constructor
    · intro ⟨ha, hes⟩ pre e hpre
      cases pre with
      | nil =>
        obtain ⟨rfl, _⟩ := List.cons_prefix_cons.mp hpre
        exact ha
      | cons b pre =>
        obtain ⟨rfl, hrest⟩ := List.cons_prefix_cons.mp hpre
        exact hes pre e hrest
    · intro h
      refine ⟨h [] a ⟨es, rfl⟩, fun pre e hpre => ?_⟩
      exact h (a :: pre) e (List.cons_prefix_cons.mpr ⟨rfl, hpre⟩)

theorem StepsMeet.of_append {step : σ → ε → σ} {ok : σ → ε → Prop} {s : σ} {pre mid es : List ε}
    (h : StepsMeet step ok s es) (hpre : pre ++ mid <+: es) :
    StepsMeet step ok (pre.foldl step s) mid := by
  refine stepsMeet_iff_prefix.mpr fun part e hpart => ?_
  have hwhole : pre ++ part ++ [e] <+: es := by
    rw [List.append_assoc]
    exact ((List.prefix_append_right_inj pre).mpr hpart).trans hpre
  rw [← List.foldl_append]
  exact stepsMeet_iff_prefix.mp h (pre ++ part) e hwhole

/-- What one admitted step keeps holds in every state of an admitted run. -/
theorem StepsMeet.invariant {step : σ → ε → σ} {ok : σ → ε → Prop} {I : σ → Prop}
    (keep : ∀ s e, I s → ok s e → I (step s e)) {s : σ} {es : List ε}
    (h : StepsMeet step ok s es) (hI : I s) : AlongRun step I s es := by
  induction es generalizing s with
  | nil => exact (alongRun_nil step I s).mpr hI
  | cons e es ih =>
    obtain ⟨ho, ht⟩ := h
    exact (alongRun_cons step I s e es).mpr ⟨hI, ih ht (keep s e hI ho)⟩

/-- Two runs side by side, the second over translated events: guards that agree on related
states admit the same runs, and the states stay related. -/
theorem StepsMeet.simulate {τ ζ : Type*} {step : σ → ε → σ} {ok : σ → ε → Prop}
    {step' : τ → ζ → τ} {ok' : τ → ζ → Prop} {R : σ → τ → Prop} {f : ε → ζ}
    (agree : ∀ s t e, R s t → (ok s e ↔ ok' t (f e)))
    (keep : ∀ s t e, R s t → ok s e → R (step s e) (step' t (f e))) {s : σ} {t : τ}
    (hR : R s t) (es : List ε) :
    (StepsMeet step ok s es ↔ StepsMeet step' ok' t (es.map f)) ∧
      (StepsMeet step ok s es → R (es.foldl step s) ((es.map f).foldl step' t)) := by
  induction es generalizing s t with
  | nil => exact ⟨Iff.rfl, fun _ => hR⟩
  | cons e es ih =>
    rw [List.map_cons, List.foldl_cons, List.foldl_cons, StepsMeet, StepsMeet, ← agree s t e hR]
    constructor
    · exact and_congr_right fun he => (ih (keep s t e hR he)).1
    · intro ⟨he, hes⟩
      exact (ih (keep s t e hR he)).2 hes

theorem stepsMeet_map {ζ : Type*} {step : σ → ζ → σ} {ok : σ → ζ → Prop} {f : ε → ζ} {s : σ}
    {es : List ε} : StepsMeet step ok s (es.map f) ↔
      StepsMeet (fun s e => step s (f e)) (fun s e => ok s (f e)) s es := by
  induction es generalizing s with
  | nil => exact Iff.rfl
  | cons e es ih => exact and_congr_right fun _ => ih

/-- What every step keeps holds in every state of a run. -/
theorem AlongRun.of_keep {step : σ → ε → σ} {I : σ → Prop} (keep : ∀ s e, I s → I (step s e))
    {s : σ} (hI : I s) (es : List ε) : AlongRun step I s es := by
  induction es generalizing s with
  | nil => exact (alongRun_nil step I s).mpr hI
  | cons e es ih => exact (alongRun_cons step I s e es).mpr ⟨hI, ih (keep s e hI)⟩

/-- A guard that is exact for one step, on the states of an invariant `I`, is
exact for whole runs. `D` marks the events the run is made of. -/
theorem alongRun_iff {step : σ → ε → σ} {P I : σ → Prop} {ok : σ → ε → Prop} {D : ε → Prop}
    (keep : ∀ s e, D e → I s → I (step s e))
    (exact : ∀ s e, D e → I s → P s → (P (step s e) ↔ ok s e))
    (es : List ε) (hD : ∀ e ∈ es, D e) (s : σ) (hI : I s) (hP : P s) :
    AlongRun step P s es ↔ StepsMeet step ok s es := by
  induction es generalizing s with
  | nil => simp [alongRun_nil, StepsMeet, hP]
  | cons e es ih =>
    have he : D e := hD e (by simp)
    have hes : ∀ a ∈ es, D a := fun a ha => hD a (List.mem_cons_of_mem e ha)
    rw [alongRun_cons, StepsMeet]
    constructor
    · intro ⟨_, ht⟩
      have hp : P (step s e) := ht.head
      exact ⟨(exact s e he hI hP).mp hp, (ih hes _ (keep s e he hI) hp).mp ht⟩
    · intro ⟨ho, ht⟩
      have hp : P (step s e) := (exact s e he hI hP).mpr ho
      exact ⟨hP, (ih hes _ (keep s e he hI) hp).mpr ht⟩

/-- A property that no step restores, and that on the states of an invariant only admitted steps
keep, holds at the end exactly where every step was admitted. -/
theorem foldl_iff {step : σ → ε → σ} {P I : σ → Prop} {ok : σ → ε → Prop}
    (keep : ∀ s e, I s → I (step s e)) (exact : ∀ s e, I s → (P (step s e) ↔ ok s e ∧ P s))
    {s : σ} (hI : I s) (es : List ε) : P (es.foldl step s) ↔ StepsMeet step ok s es ∧ P s := by
  induction es generalizing s with
  | nil => exact (and_iff_right trivial).symm
  | cons e es ih =>
    rw [List.foldl_cons, ih (keep s e hI), exact s e hI, StepsMeet]
    tauto

section Monotone
variable {α : Type*} [PartialOrder α] {step : σ → ε → σ} {ok : σ → ε → Prop} {D : ε → Prop}
  {m : σ → α}

theorem le_foldl (mono : ∀ s e, D e → m s ≤ m (step s e)) (es : List ε) (hD : ∀ e ∈ es, D e)
    (s : σ) : m s ≤ m (es.foldl step s) := by
  induction es generalizing s with
  | nil => exact le_refl _
  | cons e es ih =>
    exact le_trans (mono s e (hD e List.mem_cons_self))
      (ih (fun a ha => hD a (List.mem_cons_of_mem e ha)) (step s e))

/-- A measure that no step lowers ends where it began exactly when no step raises it. -/
theorem foldl_eq_iff (mono : ∀ s e, D e → m s ≤ m (step s e))
    (exact : ∀ s e, D e → (m (step s e) = m s ↔ ok s e)) (es : List ε) (hD : ∀ e ∈ es, D e)
    (s : σ) : m (es.foldl step s) = m s ↔ StepsMeet step ok s es := by
  induction es generalizing s with
  | nil => simp [StepsMeet]
  | cons e es ih =>
    have he : D e := hD e List.mem_cons_self
    have hes : ∀ a ∈ es, D a := fun a ha => hD a (List.mem_cons_of_mem e ha)
    rw [List.foldl_cons, StepsMeet, ← exact s e he, ← ih hes (step s e)]
    constructor
    · intro h
      have hstep : m (step s e) = m s :=
        le_antisymm (h ▸ le_foldl mono es hes (step s e)) (mono s e he)
      exact ⟨hstep, h.trans hstep.symm⟩
    · intro ⟨hstep, h⟩
      exact h.trans hstep

end Monotone

/-- One admitted step of a nondeterministic system. -/
def Admitted (Step : σ → ε → σ → Prop) (ok : σ → ε → Prop) (s t : σ) : Prop :=
  ∃ e, ok s e ∧ Step s e t

/-- Runs all of whose steps are admitted. -/
abbrev Reaches (Step : σ → ε → σ → Prop) (ok : σ → ε → Prop) : σ → σ → Prop :=
  Relation.ReflTransGen (Admitted Step ok)

theorem Reaches.invariant {Step : σ → ε → σ → Prop} {ok : σ → ε → Prop} {I : σ → Prop}
    (keep : ∀ s e t, I s → ok s e → Step s e t → I t) {s t : σ}
    (h : Reaches Step ok s t) (hs : I s) : I t := by
  induction h with
  | refl => exact hs
  | tail _ hstep ih =>
    obtain ⟨e, ho, hstep⟩ := hstep
    exact keep _ e _ ih ho hstep

theorem Reaches.next {Step : σ → ε → σ → Prop} {ok : σ → ε → Prop} {s t u : σ} {e : ε}
    (h : Reaches Step ok s t) (ho : ok t e) (hs : Step t e u) : Reaches Step ok s u :=
  h.tail ⟨e, ho, hs⟩

end GuardedRun
