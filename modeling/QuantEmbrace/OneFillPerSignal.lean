import QuantEmbrace.SignalDelivery

/-! Fills the deliveries of one signal apply and publish: `_handle_approved_signal_event`
does both for whatever order record comes back, so once only when one delivery at most
comes by a record to act on. -/
namespace QuantEmbrace
open GuardedRun Role
open OrderStatus (isValidStatusTransition)
variable {ι P S : Type*}

namespace OrderStatus

/-- The placement has been acknowledged or refused. -/
def Settled (s : OrderStatus) : Prop := s ≠ pending ∧ s ≠ ackUnknown

instance (s : OrderStatus) : Decidable s.Settled := inferInstanceAs (Decidable (_ ∧ _))

theorem HasFill.settled {s : OrderStatus} (h : s.HasFill) : s.Settled := by
  obtain rfl | rfl := h <;> decide

theorem Settled.of_valid {a b : OrderStatus} (ha : a.Settled)
    (h : isValidStatusTransition a b = true) : b.Settled := by
  cases a <;> cases b <;> revert ha h <;> decide

end OrderStatus

/-- A record the placement of which is behind. -/
def RowSettled (row : Option OrderRow) : Prop := ∃ r, row = some r ∧ r.status.Settled

theorem not_rowSettled_none : ¬ RowSettled none := by
  intro ⟨r, hr, _⟩
  cases hr

/-- `record_order` has stored a fill and the response is on its way to the handler. -/
def Placement.HoldsFill : Placement → Prop
  | .recording r c => c = .returned true ∧ r.status.HasFill
  | .recorded r => r.status.HasFill
  | _ => False

theorem PlacementStep.holdsFill {Finds : Option OrderResponse → Prop} {Answers : Answer → Prop}
    {row row' : OrderRow} {p p' : Placement} {e : PlacementEvent}
    (h : PlacementStep Finds Answers (· = row.status) row p e row' p') (hc : p.Checked)
    (hp' : p'.HoldsFill) : p.HoldsFill ∨ row'.status.Settled := by
  have hvalid := h.valid hc
  cases p' with
  | recording r c =>
    obtain ⟨rfl, hf⟩ := hp'
    right
    obtain hset | hsees := h.record_granted
    · exact hset ▸ hf.settled
    · exact (hsees ▸ hf.settled : row.status.Settled).of_valid hvalid
  | recorded r =>
    cases h with
    | recorded => exact Or.inl ⟨rfl, hp'⟩
  | _ => cases hp'

namespace Phase

/-- The task holds a record or a placement that may end in a fill handed to the
position and to `orders.events`. -/
def Carries : Phase → Prop
  | .looked _ (some r) => ¬ r.status.Settled ∨ r.status.HasFill
  | .submitted _ won => won = true
  | .relooked _ (some r) => r.status.HasFill
  | .placement _ p => p ≠ .raised
  | .protecting _ _ | .publishing _ => True
  | .handed r => r.status.HasFill
  | _ => False

/-- A fill is in hand. -/
def HoldsFill : Phase → Prop
  | .looked _ (some r) | .relooked _ (some r) => r.status.HasFill
  | .placement _ p => p.HoldsFill
  | .protecting _ r | .handed r => r.status.HasFill
  | .publishing _ => True
  | _ => False

/-- The position has been dealt with. -/
def Publishes : Phase → Prop
  | .publishing _ => True
  | _ => False

/-- What every step leaves behind: a checked status call, and publication by
deliveries only. -/
def WellFormed (reconciles : Bool) : Phase → Prop
  | .placement _ p => p.Checked
  | .publishing _ => reconciles = false
  | _ => True

theorem Publishes.carries {p : Phase} (h : p.Publishes) : p.Carries := by
  cases p with
  | publishing r => trivial
  | _ => cases h

theorem Publishes.holdsFill {p : Phase} (h : p.Publishes) : p.HoldsFill := by
  cases p with
  | publishing r => trivial
  | _ => cases h

end Phase

/-- Reading this status makes the task carry on with the record. -/
def Picks : TaskEvent → OrderStatus → Prop
  | .look, st => ¬ st.Settled ∨ st.HasFill
  | .relook, st => st.HasFill
  | _, _ => False

section TaskStep
variable [DecidableEq P] {i : ι} {pr : P} {reconciles kill : Bool} {s s' : SignalState ι P}
  {p p' : Phase} {e : TaskEvent}

theorem TaskStep.wellFormed (h : TaskStep i pr reconciles kill s p e s' p') :
    p'.WellFormed reconciles := by
  cases h with
  | placement _ hstep => exact hstep.checked
  | apply hr | applyFails hr | nothingFilled hr => exact hr
  | _ => trivial

theorem TaskStep.rowSettled (h : TaskStep i pr reconciles kill s p e s' p')
    (hp : p.WellFormed reconciles) (hr : RowSettled s.row) : RowSettled s'.row := by
  cases h with
  | raised | protectFails => rwa [(s.release_sameRecords _).row]
  | protect => rwa [(s.pop_release_sameRecords _ _).row]
  | submit hn | submitUnanswered hn => exact absurd (hn ▸ hr) not_rowSettled_none
  | placement hrow hstep =>
    obtain ⟨r, hr, hst⟩ := hr
    cases hr.symm.trans hrow
    exact ⟨_, rfl, hst.of_valid (hstep.valid hp)⟩
  | _ => exact hr

/-- A delivery comes to carry something by reading it or by reserving the signal. -/
theorem TaskStep.carries (h : TaskStep i pr false kill s p e s' p') (hp' : p'.Carries) :
    p.Carries ∨ (∃ r, s.row = some r ∧ Picks e r.status) ∨ (s.row = none ∧ s'.row ≠ none) := by
  cases h with
  | look | relook =>
    cases hr : s.row with
    | none =>
      rw [hr] at hp'
      cases hp'
    | some r =>
      rw [hr] at hp'
      exact Or.inr (Or.inl ⟨r, rfl, hp'⟩)
  | pending hst _ => exact Or.inl (Or.inl fun h => h.1 hst)
  | ackUnknown hst => exact Or.inl (Or.inl fun h => h.2 hst)
  | duplicate => exact Or.inl (Or.inr hp')
  | submit hn => exact Or.inr (Or.inr ⟨hn, Option.some_ne_none _⟩)
  | submitTaken => exact absurd hp' Bool.false_ne_true
  | reserved => exact Or.inl rfl
  | concurrentDuplicate => exact Or.inl hp'
  | placement _ hstep =>
    refine Or.inl fun he => ?_
    subst he
    cases hstep
  | placed => exact Or.inl nofun
  | protect => exact Or.inl trivial
  | apply _ hf | applyFails _ hf | nothingFilled _ hf => exact Or.inl hf
  | beginRecovery hr => cases hr
  | _ => cases hp'

theorem TaskStep.holdsFill (h : TaskStep i pr reconciles kill s p e s' p')
    (hp : p.WellFormed reconciles) (hp' : p'.HoldsFill) : p.HoldsFill ∨ RowSettled s'.row := by
  cases h with
  | look | relook =>
    cases hr : s.row with
    | none =>
      rw [hr] at hp'
      cases hp'
    | some r =>
      rw [hr] at hp'
      exact Or.inr ⟨r, rfl, hp'.settled⟩
  | duplicate | concurrentDuplicate => exact Or.inl hp'
  | placement hrow hstep =>
    obtain hold | hst := hstep.holdsFill hp hp'
    · exact Or.inl hold
    · exact Or.inr ⟨_, rfl, hst⟩
  | placed | protect => exact Or.inl hp'
  | apply _ hf | applyFails _ hf | nothingFilled _ hf => exact Or.inl hf
  | _ => cases hp'

theorem TaskStep.applied_cases (h : TaskStep i pr reconciles kill s p e s' p') :
    s'.applied = s.applied ∨ (s'.applied = i :: s.applied ∧ reconciles = false ∧
      p.Carries ∧ p.HoldsFill ∧ ¬ p.Publishes ∧ p'.Publishes) := by
  cases h with
  | raised | protectFails => exact Or.inl (s.release_sameRecords _).applied
  | protect => exact Or.inl (s.pop_release_sameRecords _ _).applied
  | apply hr hf => exact Or.inr ⟨rfl, hr, hf, hf, id, trivial⟩
  | _ => exact Or.inl rfl

theorem TaskStep.published_cases (h : TaskStep i pr reconciles kill s p e s' p') :
    s'.published = s.published ∨ (s'.published = i :: s.published ∧ p.Publishes ∧
      ¬ p'.Carries) := by
  cases h with
  | raised | protectFails => exact Or.inl (s.release_sameRecords _).published
  | protect => exact Or.inl (s.pop_release_sameRecords _ _).published
  | publish => exact Or.inr ⟨rfl, trivial, id⟩
  | _ => exact Or.inl rfl

theorem TaskStep.publishes_ends (h : TaskStep i pr reconciles kill s p e s' p')
    (hp : p.Publishes) : ¬ p'.Carries := by
  cases h with
  | publish | publishFails => exact id
  | _ => cases hp

end TaskStep

theorem Background.rowSettled {s s' : SignalState ι P} (hb : Background s s')
    (h : RowSettled s.row) : RowSettled s'.row := by
  obtain ⟨r, hr, hst⟩ := h
  obtain ⟨_, hn⟩ | ⟨r₁, r', hr₁, hr', hv⟩ := hb.row
  · rw [hr] at hn
    cases hn
  · cases hr.symm.trans hr₁
    exact ⟨r', hr', hst.of_valid hv⟩

namespace World
variable {A : Assignment ι P S} {w w' : World ι P S} {σ : S}

/-- Task `i` handles a `SIGNAL_APPROVED` event of the signal. -/
def Delivers (A : Assignment ι P S) (σ : S) (i : ι) : Prop :=
  A.signal i = σ ∧ A.reconciles i = false

/-- A delivery picks a record up only while no other delivery of the signal carries
one, and a record with a fill only while none was applied or published before. -/
def FreshRecords (A : Assignment ι P S) (w : World ι P S) (ev : Event ι P S) : Prop :=
  ∀ i e r, ev = .task i e → A.reconciles i = false → (w.signals (A.signal i)).row = some r →
    Picks e r.status →
    (∀ j, Delivers A (A.signal i) j → j ≠ i → ¬ (w.phase j).Carries) ∧
      (r.status.HasFill → (w.signals (A.signal i)).applied = [] ∧
        (w.signals (A.signal i)).published = [])

/-- One delivery at most carries a record, and the position and the topic are as
they were until it has dealt with them. -/
structure OneCarrier (A : Assignment ι P S) (σ : S) (w : World ι P S) : Prop where
  unique : AtMostOne (Delivers A σ) Phase.Carries w.phase
  unreserved : (w.signals σ).row = none → ∀ i, Delivers A σ i → ¬ (w.phase i).Carries
  wellFormed : ∀ i, A.signal i = σ → (w.phase i).WellFormed (A.reconciles i)
  holdsFill : ∀ i, A.signal i = σ → (w.phase i).HoldsFill → RowSettled (w.signals σ).row
  applied : (w.signals σ).applied ≠ [] → RowSettled (w.signals σ).row
  published : (w.signals σ).published ≠ [] → RowSettled (w.signals σ).row
  unapplied : ∀ i, Delivers A σ i → (w.phase i).Carries → ¬ (w.phase i).Publishes →
    (w.signals σ).applied = []
  unpublished : ∀ i, Delivers A σ i → (w.phase i).Carries → (w.signals σ).published = []
  once : (w.signals σ).applied.length ≤ 1 ∧ (w.signals σ).published.length ≤ 1

theorem start_oneCarrier : OneCarrier A σ (start : World ι P S) where
  unique _ _ _ _ h := absurd h id
  unreserved _ _ _ := id
  wellFormed _ _ := trivial
  holdsFill _ _ h := absurd h id
  applied h := absurd rfl h
  published h := absurd rfl h
  unapplied _ _ _ _ := rfl
  unpublished _ _ _ := rfl
  once := ⟨Nat.zero_le 1, Nat.zero_le 1⟩

theorem OneCarrier.background (hw : OneCarrier A σ w)
    (hb : Background (w.signals σ) (w'.signals σ))
    (hp : ∀ i, A.signal i = σ → w'.phase i = w.phase i ∨ w'.phase i = .finished) :
    OneCarrier A σ w' := by
  have hsame (i : ι) (hi : A.signal i = σ) (h : (w'.phase i).Carries) :
      w'.phase i = w.phase i := by
    obtain he | he := hp i hi
    · exact he
    · rw [he] at h
      cases h
  have hcarries (i : ι) (hi : Delivers A σ i) (h : (w'.phase i).Carries) :
      (w.phase i).Carries := hsame i hi.1 h ▸ h
  refine ⟨hw.unique.of_imp hcarries, ?_, ?_, ?_, ?_, ?_, ?_, ?_, ?_⟩
  · intro hn i hi h
    obtain ⟨_, hn'⟩ | ⟨r, r', _, hr', _⟩ := hb.row
    · exact hw.unreserved hn' i hi (hcarries i hi h)
    · rw [hr'] at hn
      cases hn
  · intro i hi
    obtain he | he := hp i hi <;> rw [he]
    · exact hw.wellFormed i hi
    · trivial
  · intro i hi h
    obtain he | he := hp i hi <;> rw [he] at h
    · exact hb.rowSettled (hw.holdsFill i hi h)
    · cases h
  · rw [hb.applied]
    exact fun h => hb.rowSettled (hw.applied h)
  · rw [hb.published]
    exact fun h => hb.rowSettled (hw.published h)
  · intro i hi h hnp
    rw [hb.applied]
    exact hw.unapplied i hi (hcarries i hi h) (hsame i hi.1 h ▸ hnp)
  · intro i hi h
    rw [hb.published]
    exact hw.unpublished i hi (hcarries i hi h)
  · rw [hb.applied, hb.published]
    exact hw.once

theorem OneCarrier.delivers (hw : OneCarrier A σ w) {i : ι} (hi : A.signal i = σ)
    (h : (w.phase i).Publishes) : Delivers A σ i := by
  refine ⟨hi, ?_⟩
  have hform := hw.wellFormed i hi
  cases hp : w.phase i with
  | publishing r =>
    rw [hp] at hform
    exact hform
  | _ =>
    rw [hp] at h
    cases h

theorem OneCarrier.empty (hw : OneCarrier A σ w) (h : ¬ RowSettled (w.signals σ).row) :
    (w.signals σ).applied = [] ∧ (w.signals σ).published = [] :=
  ⟨by_contra fun ha => h (hw.applied ha), by_contra fun ha => h (hw.published ha)⟩

section Task
variable [DecidableEq P] {i : ι} {e : TaskEvent} {p : Phase} {kill : Bool}
  {s' : SignalState ι P}

/-- While another delivery carries a record, `i` touches neither list. -/
theorem OneCarrier.untouched (hw : OneCarrier A σ w) (hi : A.signal i = σ)
    (ht : TaskStep i (A.process i) (A.reconciles i) kill (w.signals σ) (w.phase i) e s' p)
    {j : ι} (hj : Delivers A σ j) (hji : j ≠ i) (hc : (w.phase j).Carries) :
    s'.applied = (w.signals σ).applied ∧ s'.published = (w.signals σ).published := by
  constructor
  · obtain h | ⟨_, hr, hcarr, _⟩ := ht.applied_cases
    · exact h
    · exact absurd hcarr (hw.unique.alone ⟨hi, hr⟩ hj hji hc)
  · obtain h | ⟨_, hpub, _⟩ := ht.published_cases
    · exact h
    · exact absurd hpub.carries (hw.unique.alone (hw.delivers hi hpub) hj hji hc)

/-- A delivery that starts to carry a record is the only one, and nothing has been
applied or published before. -/
theorem OneCarrier.picks (hw : OneCarrier A σ w) (hd : Delivers A σ i)
    (hok : FreshRecords A w (.task i e))
    (ht : TaskStep i (A.process i) (A.reconciles i) kill (w.signals σ) (w.phase i) e s' p)
    (hp : p.Carries) : (w.phase i).Carries ∨
      ((∀ j, Delivers A σ j → j ≠ i → ¬ (w.phase j).Carries) ∧
        (w.signals σ).applied = [] ∧ (w.signals σ).published = []) := by
  obtain ⟨rfl, hr⟩ := hd
  rw [hr] at ht
  obtain h | ⟨r, hrow, hpick⟩ | ⟨hrow, _⟩ := ht.carries hp
  · exact Or.inl h
  · obtain ⟨hfree, hfill⟩ := hok i e r rfl hr hrow hpick
    refine Or.inr ⟨hfree, ?_⟩
    by_cases hf : r.status.HasFill
    · exact hfill hf
    · apply hw.empty
      intro ⟨r', hrow', hst⟩
      cases hrow.symm.trans hrow'
      cases e with
      | look => exact hpick.elim (fun h => h hst) hf
      | relook => exact hf hpick
      | _ => exact hpick
  · refine Or.inr ⟨fun j hj _ => hw.unreserved hrow j hj, hw.empty ?_⟩
    rw [hrow]
    exact not_rowSettled_none

section Phases
variable [DecidableEq ι]
  (ht : TaskStep i (A.process i) (A.reconciles i) kill (w.signals σ) (w.phase i) e s' p)
include ht

theorem OneCarrier.unique_task (hw : OneCarrier A σ w) (hok : FreshRecords A w (.task i e)) :
    AtMostOne (Delivers A σ) Phase.Carries (Function.update w.phase i p) := by
  by_cases hd : Delivers A σ i
  · refine hw.unique.update fun hp => ?_
    exact (hw.picks hd hok ht hp).imp_right And.left
  · refine hw.unique.of_imp fun j hj h => ?_
    have hji : j ≠ i := fun he => hd (he ▸ hj)
    rwa [Function.update_of_ne hji] at h

theorem OneCarrier.unreserved_task (hw : OneCarrier A σ w) (hn : s'.row = none) (j : ι)
    (hj : Delivers A σ j) : ¬ (Function.update w.phase i p j).Carries := by
  have hn' : (w.signals σ).row = none := by
    by_contra hr
    exact ht.row_some hr hn
  refine (Function.forall_update_iff w.phase fun j q => Delivers A σ j → ¬ q.Carries).mpr
    ⟨fun hd h => ?_, fun j _ => hw.unreserved hn' j⟩ j hj
  rw [hd.2] at ht
  obtain h | ⟨r, hr, _⟩ | ⟨_, hr⟩ := ht.carries h
  · exact hw.unreserved hn' i hd h
  · rw [hn'] at hr
    cases hr
  · exact hr hn

theorem OneCarrier.holdsFill_task (hw : OneCarrier A σ w) (hi : A.signal i = σ) (j : ι)
    (hj : A.signal j = σ) (h : (Function.update w.phase i p j).HoldsFill) :
    RowSettled s'.row := by
  have hform := hw.wellFormed i hi
  refine (Function.forall_update_iff w.phase fun j q =>
    A.signal j = σ → q.HoldsFill → RowSettled s'.row).mpr
    ⟨fun _ h => ?_, fun j _ hj h => ht.rowSettled hform (hw.holdsFill j hj h)⟩ j hj h
  obtain hold | hnew := ht.holdsFill hform h
  · exact ht.rowSettled hform (hw.holdsFill i hi hold)
  · exact hnew

theorem OneCarrier.unapplied_task (hw : OneCarrier A σ w) (hi : A.signal i = σ)
    (hok : FreshRecords A w (.task i e)) (j : ι) (hj : Delivers A σ j)
    (h : (Function.update w.phase i p j).Carries)
    (hnp : ¬ (Function.update w.phase i p j).Publishes) : s'.applied = [] := by
  refine (Function.forall_update_iff w.phase fun j q => Delivers A σ j → q.Carries →
    ¬ q.Publishes → s'.applied = []).mpr
    ⟨fun hd h hnp => ?_, fun j hji hj h hnp => ?_⟩ j hj h hnp
  · obtain ha | ⟨_, _, _, _, _, hpub⟩ := ht.applied_cases
    · rw [ha]
      obtain hold | ⟨_, hempty, _⟩ := hw.picks hd hok ht h
      · exact hw.unapplied i hd hold fun hpub => ht.publishes_ends hpub h
      · exact hempty
    · exact absurd hpub hnp
  · rw [(hw.untouched hi ht hj hji h).1]
    exact hw.unapplied j hj h hnp

theorem OneCarrier.unpublished_task (hw : OneCarrier A σ w) (hi : A.signal i = σ)
    (hok : FreshRecords A w (.task i e)) (j : ι) (hj : Delivers A σ j)
    (h : (Function.update w.phase i p j).Carries) : s'.published = [] := by
  refine (Function.forall_update_iff w.phase fun j q => Delivers A σ j → q.Carries →
    s'.published = []).mpr ⟨fun hd h => ?_, fun j hji hj h => ?_⟩ j hj h
  · obtain ha | ⟨_, _, hends⟩ := ht.published_cases
    · rw [ha]
      obtain hold | ⟨_, _, hempty⟩ := hw.picks hd hok ht h
      · exact hw.unpublished i hd hold
      · exact hempty
    · exact absurd h hends
  · rw [(hw.untouched hi ht hj hji h).2]
    exact hw.unpublished j hj h

omit [DecidableEq ι] in
/-- A step applies or publishes only what has not been. -/
theorem OneCarrier.once_task (hw : OneCarrier A σ w) (hi : A.signal i = σ) :
    s'.applied.length ≤ 1 ∧ s'.published.length ≤ 1 := by
  constructor
  · obtain h | ⟨h, hr, hcarr, _, hnp, _⟩ := ht.applied_cases
    · rw [h]
      exact hw.once.1
    · rw [h, hw.unapplied i ⟨hi, hr⟩ hcarr hnp]
      exact le_rfl
  · obtain h | ⟨h, hpub, _⟩ := ht.published_cases
    · rw [h]
      exact hw.once.2
    · rw [h, hw.unpublished i (hw.delivers hi hpub) hpub.carries]
      exact le_rfl

end Phases

end Task

variable [DecidableEq ι] [DecidableEq P]

theorem OneCarrier.task (hw : OneCarrier A σ w) {i : ι} {e : TaskEvent} {p : Phase}
    (hi : A.signal i = σ) (hok : FreshRecords A w (.task i e))
    (hphase : w'.phase = Function.update w.phase i p)
    (ht : TaskStep i (A.process i) (A.reconciles i) (w.killSwitch (A.process i)) (w.signals σ)
      (w.phase i) e (w'.signals σ) p) : OneCarrier A σ w' := by
  have hrec : RowSettled (w.signals σ).row → RowSettled (w'.signals σ).row :=
    ht.rowSettled (hw.wellFormed i hi)
  constructor
  · rw [hphase]
    exact hw.unique_task ht hok
  · rw [hphase]
    exact hw.unreserved_task ht
  · rw [hphase]
    exact (Function.forall_update_iff w.phase fun j q =>
      A.signal j = σ → q.WellFormed (A.reconciles j)).mpr
      ⟨fun _ => ht.wellFormed, fun j _ => hw.wellFormed j⟩
  · rw [hphase]
    exact hw.holdsFill_task ht hi
  · intro hne
    obtain h | ⟨_, _, _, hf, _⟩ := ht.applied_cases
    · rw [h] at hne
      exact hrec (hw.applied hne)
    · exact hrec (hw.holdsFill i hi hf)
  · intro hne
    obtain h | ⟨_, hpub, _⟩ := ht.published_cases
    · rw [h] at hne
      exact hrec (hw.published hne)
    · exact hrec (hw.holdsFill i hi hpub.holdsFill)
  · rw [hphase]
    exact hw.unapplied_task ht hi hok
  · rw [hphase]
    exact hw.unpublished_task ht hi hok
  · exact hw.once_task ht hi

variable [DecidableEq S]

/-- When every record a delivery picks up is fresh, all deliveries of a signal
together apply and publish its fill at most once. -/
theorem fill_applied_once (hr : Reaches (Step A) (FreshRecords A) (start : World ι P S) w)
    (σ : S) : (w.signals σ).applied.length ≤ 1 ∧ (w.signals σ).published.length ≤ 1 := by
  have hw : OneCarrier A σ w := by
    refine Reaches.invariant (I := OneCarrier A σ) ?_ hr start_oneCarrier
    intro u ev t hu hok hstep
    obtain ⟨i, e, p, hi, rfl, hphase, ht⟩ | ⟨hb, hp⟩ := hstep.view σ
    · exact hu.task hi hok hphase ht
    · exact hu.background hb hp
  exact hw.once

/-- A market order the broker fills while it is placed. -/
def wholeFill : OrderResponse :=
  { brokerOrderId := "B1", status := .filled, filledQuantity := 10, avgFillPrice := 100 }

/-- The signal when the broker has accepted the order of delivery `i` alone. -/
def acceptedBy (pr : P) (i : ι) : SignalState ι P :=
  { reservedBy pr i with calls := [i], orders := [i] }

/-- The signal after this delivery has run to its end. -/
def filledBy (pr : P) (i : ι) : SignalState ι P :=
  { ((acceptedBy pr i).pop pr).release (some 0) with
    row := some ((recordOrder wholeFill).set .reserved)
    applied := [i]
    published := [i] }

omit [DecidableEq ι] [DecidableEq S] in
theorem Solo.whole_fill {i : ι} {allowed : SignalState ι P → TaskEvent → Prop}
    (hr : A.reconciles i = false) (hall : ∀ s e, e ≠ .look → e ≠ .relook → allowed s e) :
    Solo A i false allowed
      (acceptedBy (A.process i) i, .placement (some 0) .placing)
      (filledBy (A.process i) i, .finished) := by
  have hans : (acceptedBy (A.process i) i).Answers i (.accepted wholeFill) :=
    List.mem_cons_self
  have h1 : Solo A i false allowed
      (acceptedBy (A.process i) i, .placement (some 0) .placing) _ :=
    Solo.next .refl (hall _ _ (by nofun) (by nofun)) (.placement rfl (.answer hans))
  have h2 := h1.next (hall _ _ (by nofun) (by nofun)) (.placement rfl .accepted)
  have h3 := h2.next (hall _ _ (by nofun) (by nofun))
    (.placement rfl (.record (.read .pending rfl)))
  have h4 := h3.next (hall _ _ (by nofun) (by nofun)) (.placement rfl (.record (.write rfl)))
  have h5 := h4.next (hall _ _ (by nofun) (by nofun)) (.placement rfl .recorded)
  have h6 := h5.next (hall _ _ (by nofun) (by nofun)) .placed
  have h7 := h6.next (hall _ _ (by nofun) (by nofun)) .protect
  have h8 := h7.next (hall _ _ (by nofun) (by nofun)) (.apply hr (Or.inl rfl) (by decide +kernel))
  exact h8.next (hall _ _ (by nofun) (by nofun)) .publish

theorem first_fill_reaches (A : Assignment ι P S) (i : ι) (hr : A.reconciles i = false)
    (ok : World ι P S → Event ι P S → Prop)
    (hok : ∀ (w : World ι P S) e, (e = .look → (w.signals (A.signal i)).row = none) →
      e ≠ .relook → ok w (.task i e))
    (haccept : ∀ w, ok w (.accept (A.signal i))) :
    ∃ w, Reaches (Step A) ok start w ∧ w.signals (A.signal i) = filledBy (A.process i) i ∧
      (∀ j, j ≠ i → w.phase j = .idle) ∧ ∀ pr, w.killSwitch pr = false := by
  obtain ⟨w, hw, hs, hp, ho, hk⟩ := first_placement_reaches A i ok hok
  obtain ⟨v, hplace, hvs, hvp, hvo, hvk⟩ := task_step (.placement rfl .place) hs hp (hk _)
  have hv := hw.next (hok w (.placement .place) nofun nofun) hplace
  have hcalls : (v.signals (A.signal i)).calls = [i] := congrArg SignalState.calls hvs
  have horders : (v.signals (A.signal i)).orders = [] := congrArg SignalState.orders hvs
  have haccepted := hv.next (haccept v)
    (.accept (i := i) (by simp [hcalls]) (by simp [horders]))
  have hstate : (v.setSignal (A.signal i) { v.signals (A.signal i) with
      orders := i :: (v.signals (A.signal i)).orders }).signals (A.signal i) =
      acceptedBy (A.process i) i := by
    rw [setSignal_self, hvs]
    rfl
  let allowed : SignalState ι P → TaskEvent → Prop := fun _ e => e ≠ .look ∧ e ≠ .relook
  have hsolo : Solo A i false allowed _ _ := Solo.whole_fill hr fun _ _ hl hr => ⟨hl, hr⟩
  obtain ⟨u, hu, hus, _, huo, huk⟩ := hsolo.reaches
    (fun w e he => hok w e (fun h => absurd h he.1) he.2) haccepted hstate hvp
    ((congrFun hvk _).trans (hk _))
  refine ⟨u, hu, hus, fun j hj => ?_, fun pr => ?_⟩
  · rw [huo j hj, setSignal_phase, hvo j hj, ho j hj]
  · rw [huk, setSignal_killSwitch, hvk, hk]

/-- One signal, delivered twice to one process. -/
def deliveredTwice : Assignment Bool Unit Unit := ⟨fun _ => (), fun _ => (), fun _ => false⟩

theorem fill_applied_once_first :
    ∃ w : World Bool Unit Unit, (w.signals ()).applied = [false] ∧
      (w.signals ()).published = [false] ∧
      (w.signals ()).applied.length ≤ 1 ∧ (w.signals ()).published.length ≤ 1 := by
  have hok (w : World Bool Unit Unit) (e : TaskEvent)
      (hlook : e = .look → (w.signals ()).row = none) (hrelook : e ≠ .relook) :
      FreshRecords deliveredTwice w (.task false e) := by
    intro i e' r he _ hr hpick
    injection he with hi he
    subst hi
    subst he
    cases e with
    | look =>
      rw [show (w.signals (deliveredTwice.signal false)).row = none from hlook rfl] at hr
      cases hr
    | relook => exact absurd rfl hrelook
    | _ => cases hpick
  obtain ⟨w, hw, hs, _, _⟩ := first_fill_reaches deliveredTwice false rfl _ hok
    (fun _ _ _ _ h => nomatch h)
  exact ⟨w, congrArg SignalState.applied hs, congrArg SignalState.published hs,
    fill_applied_once hw ()⟩

/-- The second delivery is handed the FILLED record as it is, and the handler applies
and publishes it again. -/
theorem fill_applied_twice :
    ¬ ∀ w : World Bool Unit Unit, Reaches (Step deliveredTwice) (fun _ _ => True) start w →
      (w.signals ()).applied.length ≤ 1 ∧ (w.signals ()).published.length ≤ 1 := by
  intro hall
  obtain ⟨w, hw, hs, ho, hk⟩ := first_fill_reaches deliveredTwice false rfl
    (fun _ _ => True) (fun _ _ _ _ => trivial) (fun _ => trivial)
  let allowed : SignalState Bool Unit → TaskEvent → Prop := fun _ _ => True
  have h1 : Solo deliveredTwice true false allowed (filledBy () false, .idle) _ :=
    Solo.next .refl trivial (.begin rfl)
  have h2 := h1.next trivial (.acquire rfl)
  have h3 := h2.next trivial .look
  have h4 := h3.next trivial (.duplicate (r := (recordOrder wholeFill).set .reserved)
    (by decide) (by decide))
  have h5 := h4.next trivial (.apply rfl (Or.inl rfl) (by decide +kernel))
  have h6 := h5.next trivial .publish
  obtain ⟨u, hu, hus, _⟩ := h6.reaches (fun _ _ _ => trivial) hw hs (ho true nofun) (hk ())
  have htwice := (hall u hu).1
  rw [show (u.signals ()).applied = [true, false] from congrArg SignalState.applied hus] at htwice
  exact absurd htwice (by decide)

end World
end QuantEmbrace
