import QuantEmbrace.SignalDelivery

/-! Broker orders per signal: which tasks may still call `place_order`, and when that
is one task with one call. -/
namespace QuantEmbrace
open GuardedRun Role
variable {ι P S : Type*}

/-- The task will call `place_order` if the broker lookup finds nothing. -/
def Phase.Armed : Phase → Prop
  | .looked _ (some r) => r.status = .pending
  | .submitted _ won => won = true
  | .placement _ p => p.BeforeCall
  | _ => False

/-- The lookup has found nothing. -/
def Phase.Missed : Phase → Prop
  | .placement _ p => p.Missed
  | _ => False

theorem Phase.Missed.armed {p : Phase} (h : p.Missed) : p.Armed := by
  cases p with
  | placement l p => exact Placement.Missed.beforeCall h
  | _ => cases h

section TaskStep
variable [DecidableEq P] {i : ι} {pr : P} {reconciles kill : Bool} {s s' : SignalState ι P}
  {p p' : Phase} {e : TaskEvent}

/-- A call is added by the task that comes from the limiter, and disarms it. -/
theorem TaskStep.calls_cases (h : TaskStep i pr reconciles kill s p e s' p') :
    s'.calls = s.calls ∨ (s'.calls = i :: s.calls ∧ p.Missed ∧ ¬ p'.Armed) := by
  cases h with
  | raised | protectFails => exact Or.inl (s.release_sameRecords _).calls
  | protect => exact Or.inl (s.pop_release_sameRecords _ _).calls
  | @placement l p p' e r r' hr hstep =>
    by_cases he : e = .place
    · subst he
      obtain ⟨rfl, rfl, _⟩ := hstep.place_of
      exact Or.inr ⟨rfl, trivial, id⟩
    · exact Or.inl (if_neg he)
  | _ => exact Or.inl rfl

/-- A task is armed by reading PENDING or by the reservation, and stays so. -/
theorem TaskStep.armed (h : TaskStep i pr reconciles kill s p e s' p') (hp' : p'.Armed) :
    p.Armed ∨ (e = .look ∧ ∃ r, s.row = some r ∧ r.status = .pending) ∨
      (s.row = none ∧ s'.row ≠ none ∧ s'.calls = s.calls) := by
  cases h with
  | look =>
    cases hr : s.row with
    | none =>
      rw [hr] at hp'
      cases hp'
    | some r =>
      rw [hr] at hp'
      exact Or.inr (Or.inl ⟨rfl, r, rfl, hp'⟩)
  | pending hst _ => exact Or.inl hst
  | submit hn => exact Or.inr (Or.inr ⟨hn, Option.some_ne_none _, rfl⟩)
  | submitTaken => exact absurd hp' Bool.false_ne_true
  | reserved => exact Or.inl rfl
  | placement _ hstep => exact Or.inl (hstep.beforeCall hp').1
  | _ => cases hp'

theorem TaskStep.missed (h : TaskStep i pr reconciles kill s p e s' p') (hp' : p'.Missed) :
    p.Missed ∨ (p.Armed ∧ s.orders = []) := by
  cases h with
  | placement _ hstep =>
    obtain hold | ⟨rfl, hnone⟩ := hstep.missed hp'
    · exact Or.inl hold
    · exact Or.inr ⟨trivial, hnone.orders_of_none⟩
  | _ => cases hp'

end TaskStep

namespace World
variable {A : Assignment ι P S} {w w' : World ι P S} {σ : S}

/-- A delivery reads PENDING only while no other task of the signal may still call
`place_order`, and after every call begun so far was accepted by the broker. -/
def StrandedReads (A : Assignment ι P S) (w : World ι P S) (ev : Event ι P S) : Prop :=
  ∀ i r, ev = .task i .look → (w.signals (A.signal i)).row = some r → r.status = .pending →
    (∀ j, j ≠ i → A.signal j = A.signal i → ¬ (w.phase j).Armed) ∧
      ((w.signals (A.signal i)).calls = [] ∨ (w.signals (A.signal i)).orders ≠ [])

/-- At most one task can still call, and it can only while nobody has. -/
structure OneCaller (A : Assignment ι P S) (σ : S) (w : World ι P S) : Prop where
  unique : AtMostOne (A.signal · = σ) Phase.Armed w.phase
  unreserved : (w.signals σ).row = none →
    (w.signals σ).calls = [] ∧ ∀ i, A.signal i = σ → ¬ (w.phase i).Armed
  recoverable : ∀ i, A.signal i = σ → (w.phase i).Armed →
    (w.signals σ).calls = [] ∨ (w.signals σ).orders ≠ []
  missed : ∀ i, A.signal i = σ → (w.phase i).Missed → (w.signals σ).calls = []
  once : (w.signals σ).calls.length ≤ 1

theorem start_oneCaller : OneCaller A σ (start : World ι P S) where
  unique _ _ _ _ h := absurd h id
  unreserved _ := ⟨rfl, fun _ _ => id⟩
  recoverable _ _ h := absurd h id
  missed _ _ h := absurd h id
  once := Nat.zero_le 1

theorem OneCaller.background (hw : OneCaller A σ w) (hb : Background (w.signals σ) (w'.signals σ))
    (hp : ∀ i, A.signal i = σ → w'.phase i = w.phase i ∨ w'.phase i = .finished) :
    OneCaller A σ w' := by
  have harmed (i : ι) (hi : A.signal i = σ) (h : (w'.phase i).Armed) : (w.phase i).Armed := by
    obtain he | he := hp i hi <;> rw [he] at h
    · exact h
    · cases h
  refine ⟨?_, ?_, ?_, ?_, ?_⟩
  · exact hw.unique.of_imp harmed
  · intro hn
    have hn' : (w.signals σ).row = none := by
      obtain ⟨_, h⟩ | ⟨r, r', _, hr', _⟩ := hb.row
      · exact h
      · rw [hr'] at hn
        cases hn
    obtain ⟨hc, hna⟩ := hw.unreserved hn'
    exact ⟨hb.calls.trans hc, fun i hi h => hna i hi (harmed i hi h)⟩
  · intro i hi h
    obtain hc | ho := hw.recoverable i hi (harmed i hi h)
    · exact Or.inl (hb.calls.trans hc)
    · exact Or.inr (hb.orders ho)
  · intro i hi h
    rw [hb.calls]
    obtain he | he := hp i hi <;> rw [he] at h
    · exact hw.missed i hi h
    · cases h
  · rw [hb.calls]
    exact hw.once

section Task
variable [DecidableEq P] {i : ι} {e : TaskEvent} {p : Phase} {kill : Bool}
  {s' : SignalState ι P}

/-- A task that becomes armed is the only one, and no call is lost on the way to the
broker. -/
theorem OneCaller.arms (hw : OneCaller A σ w) (hi : A.signal i = σ)
    (hok : StrandedReads A w (.task i e))
    (ht : TaskStep i (A.process i) (A.reconciles i) kill (w.signals σ) (w.phase i) e s' p)
    (hp : p.Armed) : (w.phase i).Armed ∨
      ((∀ j, A.signal j = σ → j ≠ i → ¬ (w.phase j).Armed) ∧
        ((w.signals σ).calls = [] ∨ (w.signals σ).orders ≠ [])) := by
  subst hi
  obtain h | ⟨rfl, r, hr, hst⟩ | ⟨hr, _, _⟩ := ht.armed hp
  · exact Or.inl h
  · obtain ⟨hfree, hrecoverable⟩ := hok i r rfl hr hst
    exact Or.inr ⟨fun j hj hji => hfree j hji hj, hrecoverable⟩
  · obtain ⟨hcalls, hfree⟩ := hw.unreserved hr
    exact Or.inr ⟨fun j hj _ => hfree j hj, Or.inl hcalls⟩

/-- While some task is armed after the step, the step is not a call. -/
theorem OneCaller.calls_eq (hw : OneCaller A σ w) (hi : A.signal i = σ)
    (ht : TaskStep i (A.process i) (A.reconciles i) kill (w.signals σ) (w.phase i) e s' p)
    (h : p.Armed ∨ ∃ j, A.signal j = σ ∧ j ≠ i ∧ (w.phase j).Armed) :
    s'.calls = (w.signals σ).calls := by
  obtain hc | ⟨_, hm, hn⟩ := ht.calls_cases
  · exact hc
  · obtain h | ⟨j, hj, hji, ha⟩ := h
    · exact absurd h hn
    · exact absurd hm.armed (hw.unique.alone hi hj hji ha)

end Task

variable [DecidableEq ι] [DecidableEq P]

theorem OneCaller.task (hw : OneCaller A σ w) {i : ι} {e : TaskEvent} {p : Phase}
    (hi : A.signal i = σ) (hok : StrandedReads A w (.task i e))
    (hphase : w'.phase = Function.update w.phase i p)
    (ht : TaskStep i (A.process i) (A.reconciles i) (w.killSwitch (A.process i)) (w.signals σ)
      (w.phase i) e (w'.signals σ) p) : OneCaller A σ w' := by
  refine ⟨?_, ?_, ?_, ?_, ?_⟩
  · rw [hphase]
    exact hw.unique.update fun hp => (hw.arms hi hok ht hp).imp_right And.left
  · intro hn
    have hn' : (w.signals σ).row = none := by
      by_contra hr
      exact ht.row_some hr hn
    obtain ⟨hc, hna⟩ := hw.unreserved hn'
    constructor
    · obtain h | ⟨_, hm, _⟩ := ht.calls_cases
      · exact h.trans hc
      · exact absurd hm.armed (hna i hi)
    · rw [hphase]
      refine (Function.forall_update_iff w.phase fun j q => A.signal j = σ → ¬ q.Armed).mpr
        ⟨fun _ hp => ?_, fun j _ => hna j⟩
      obtain h | ⟨_, r, hr, _⟩ | ⟨_, hr, _⟩ := ht.armed hp
      · exact hna i hi h
      · rw [hn'] at hr
        cases hr
      · exact hr hn
  · rw [hphase, ht.orders_eq]
    refine (Function.forall_update_iff w.phase fun j q => A.signal j = σ → q.Armed →
      (w'.signals σ).calls = [] ∨ (w.signals σ).orders ≠ []).mpr
      ⟨fun _ h => ?_, fun j hji hj h => ?_⟩
    · rw [hw.calls_eq hi ht (Or.inl h)]
      obtain ha | ⟨_, hrecoverable⟩ := hw.arms hi hok ht h
      · exact hw.recoverable i hi ha
      · exact hrecoverable
    · rw [hw.calls_eq hi ht (Or.inr ⟨j, hj, hji, h⟩)]
      exact hw.recoverable j hj h
  · rw [hphase]
    refine (Function.forall_update_iff w.phase fun j q => A.signal j = σ → q.Missed →
      (w'.signals σ).calls = []).mpr ⟨fun _ h => ?_, fun j hji hj h => ?_⟩
    · rw [hw.calls_eq hi ht (Or.inl h.armed)]
      obtain hm | ⟨ha, hnone⟩ := ht.missed h
      · exact hw.missed i hi hm
      · exact (hw.recoverable i hi ha).resolve_right (fun ho => ho hnone)
    · rw [hw.calls_eq hi ht (Or.inr ⟨j, hj, hji, h.armed⟩)]
      exact hw.missed j hj h
  · obtain h | ⟨h, hm, _⟩ := ht.calls_cases
    · rw [h]
      exact hw.once
    · rw [h, hw.missed i hi hm]
      exact le_rfl

variable [DecidableEq S]

/-- When every PENDING order a delivery reads is stranded, the broker is asked to
place at most one order for a signal over the whole run. -/
theorem at_most_one_order (hr : Reaches (Step A) (StrandedReads A) (start : World ι P S) w)
    (σ : S) : (w.signals σ).calls.length ≤ 1 := by
  have hw : OneCaller A σ w := by
    refine Reaches.invariant (I := OneCaller A σ) ?_ hr start_oneCaller
    intro u ev t hu hok hstep
    obtain ⟨i, e, p, hi, rfl, hphase, ht⟩ | ⟨hb, hp⟩ := hstep.view σ
    · exact hu.task hi hok hphase ht
    · exact hu.background hb hp
  exact hw.once

/-- One signal, delivered to each of two worker processes. -/
def twoWorkers : Assignment Bool Bool Unit := ⟨id, fun _ => (), fun _ => false⟩

theorem at_most_one_order_first :
    ∃ w : World Bool Bool Unit, (w.signals ()).calls = [false] ∧
      (w.signals ()).calls.length ≤ 1 := by
  have hok (w : World Bool Bool Unit) (e : TaskEvent)
      (he : e = .look → (w.signals ()).row = none) (_ : e ≠ .relook) :
      StrandedReads twoWorkers w (.task false e) := by
    intro i r hi hr _
    injection hi with _ hlook
    rw [show (w.signals (twoWorkers.signal i)).row = none from he hlook] at hr
    cases hr
  obtain ⟨w, hw, hs, hp, _, hk⟩ := first_placement_reaches twoWorkers false _ hok
  obtain ⟨w', hplace, hs', _⟩ := task_step (.placement rfl .place) hs hp (hk false)
  have hw' := hw.next (hok w (.placement .place) nofun nofun) hplace
  exact ⟨w', congrArg SignalState.calls hs', at_most_one_order hw' ()⟩

/-- The second worker reads PENDING while the first waits for the rate limiter, takes
the order for stranded, finds nothing at the broker, and both place one. -/
theorem two_orders_placed :
    ¬ ∀ w : World Bool Bool Unit, Reaches (Step twoWorkers) (fun _ _ => True) start w →
      (w.signals ()).calls.length ≤ 1 := by
  intro hall
  obtain ⟨w, hw, hs, hp, ho, hk⟩ := first_placement_reaches twoWorkers false
    (fun _ _ => True) (fun _ _ _ _ => trivial)
  let allowed : SignalState Bool Bool → TaskEvent → Prop := fun _ _ => True
  have h1 : Solo twoWorkers true false allowed (reservedBy false false, .idle) _ :=
    Solo.next .refl trivial (.begin rfl)
  have h2 := h1.next trivial (.acquire rfl)
  have h3 := h2.next trivial .look
  have h4 := h3.next trivial (.pending (r := .reserved) rfl rfl)
  have h5 := h4.next trivial (.placement rfl (.find (o := none) (SignalState.finds_none rfl)))
  have h6 := h5.next trivial (.placement rfl .miss)
  have h7 := h6.next trivial (.placement rfl .place)
  obtain ⟨u, hu, hus, _, hup, huk⟩ := h7.reaches (fun _ _ _ => trivial) hw hs (ho true nofun)
    (hk true)
  obtain ⟨v, hplace, hvs, _⟩ := task_step (A := twoWorkers) (i := false) (.placement rfl .place) hus
    ((hup false nofun).trans hp) ((congrFun huk _).trans (hk false))
  have htwo := hall v (hu.next trivial hplace)
  rw [show (v.signals ()).calls = [false, true] from congrArg SignalState.calls hvs] at htwo
  exact absurd htwo (by decide)

end World
end QuantEmbrace
