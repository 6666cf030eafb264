import QuantEmbrace.Placement
import QuantEmbrace.Lib.Role

/-! Deliveries of approved signals: `_handle_approved_signal_event` and
`execute_approved_signal` in any number of worker processes, with crashes, restarts
and the startup reconciliation, one step for each suspension. -/
namespace QuantEmbrace
open GuardedRun
open OrderStatus (isValidStatusTransition)
variable {ι P S : Type*}

/-- What the tasks of one signal share: its order row (reserved together with the
signal), the `place_order` calls begun and the orders the broker accepted, each under
the task that called, the in-memory locks of each process, and what the deliveries did
to the position and to `orders.events`. -/
structure SignalState (ι P : Type*) where
  row : Option OrderRow
  calls : List ι
  orders : List ι
  signalLocks : P → Option ℕ
  nextLock : ℕ
  holder : ℕ → Option ι
  applied : List ι
  published : List ι

def SignalState.start : SignalState ι P := ⟨none, [], [], fun _ => none, 0, fun _ => none, [], []⟩

/-- Where a task stands. The number is the lock it waits for or holds; reconciliation
of an ACK_UNKNOWN order holds none. -/
inductive Phase where
  | idle
  | waiting (l : ℕ)
  | looking (l : ℕ)
  | looked (l : ℕ) (existing : Option OrderRow)
  | submitting (l : ℕ)
  | submitted (l : ℕ) (won : Bool)
  | relooking (l : ℕ)
  | relooked (l : ℕ) (existing : Option OrderRow)
  | placement (l : Option ℕ) (p : Placement)
  | protecting (l : Option ℕ) (r : OrderResponse)
  | handed (r : OrderResponse)
  | publishing (r : OrderResponse)
  | finished

inductive TaskEvent where
  | begin
  | acquire
  | look
  | resume
  | submit
  | relook
  | placement (e : PlacementEvent)
  | protect
  | apply
  | publish
  | fail
  deriving DecidableEq, Repr

/-- A stored order handed back as the response. -/
def responseOf (row : OrderRow) : OrderResponse :=
  ⟨row.brokerOrderId.getD "", row.status, row.filledQuantity, row.avgFillPrice, row.brokerMessage⟩

/-- `response.status in (FILLED, PARTIALLY_FILLED)` -/
def OrderStatus.HasFill (s : OrderStatus) : Prop := s = .filled ∨ s = .partiallyFilled

instance (s : OrderStatus) : Decidable s.HasFill := inferInstanceAs (Decidable (_ ∨ _))

namespace SignalState

section Locks
variable [DecidableEq P]

/-- `_signal_locks.setdefault(signal_id, asyncio.Lock())` -/
def lockOf (s : SignalState ι P) (pr : P) : ℕ := (s.signalLocks pr).getD s.nextLock

def setDefault (s : SignalState ι P) (pr : P) : SignalState ι P :=
  { s with
    signalLocks := Function.update s.signalLocks pr (some (s.lockOf pr))
    nextLock := s.nextLock + 1 }

/-- Leaving `async with signal_lock`. -/
def release (s : SignalState ι P) : Option ℕ → SignalState ι P
  | some l => { s with holder := Function.update s.holder l none }
  | none => s

def acquire (s : SignalState ι P) (i : ι) (l : ℕ) : SignalState ι P :=
  { s with holder := Function.update s.holder l (some i) }

/-- `_signal_locks.pop(signal_id, None)`, whoever waits for the lock. -/
def pop (s : SignalState ι P) (pr : P) : SignalState ι P :=
  { s with signalLocks := Function.update s.signalLocks pr none }

end Locks

/-- The order row and the signal reservation, put in one transaction. -/
def reserve (s : SignalState ι P) : SignalState ι P := { s with row := some .reserved }

/-- Locks come and go, the rest stays. -/
structure SameRecords (s s' : SignalState ι P) : Prop where
  row : s'.row = s.row
  calls : s'.calls = s.calls
  orders : s'.orders = s.orders
  applied : s'.applied = s.applied
  published : s'.published = s.published

theorem release_sameRecords (s : SignalState ι P) (l : Option ℕ) : SameRecords s (s.release l) := by
  cases l <;> exact ⟨rfl, rfl, rfl, rfl, rfl⟩

theorem pop_release_sameRecords [DecidableEq P] (s : SignalState ι P) (pr : P) (l : Option ℕ) :
    SameRecords s ((s.pop pr).release l) := by
  cases l <;> exact ⟨rfl, rfl, rfl, rfl, rfl⟩

/-- The broker's tag lookup: an order exactly when one was accepted. -/
def Finds (s : SignalState ι P) (o : Option OrderResponse) : Prop := o.isSome ↔ s.orders ≠ []

theorem finds_none {s : SignalState ι P} (h : s.orders = []) : s.Finds none := by
  simp [Finds, h]

theorem Finds.orders_of_none {s : SignalState ι P} (h : s.Finds none) : s.orders = [] := by
  simpa [Finds] using h

/-- How the call of task `i` may end: only an accepted order is acknowledged and
only one that is not accepted is refused. -/
def Answers (s : SignalState ι P) (i : ι) : Answer → Prop
  | .accepted _ => i ∈ s.orders
  | .refused => i ∉ s.orders
  | .unknown _ => True

end SignalState

section TaskStep
variable [DecidableEq P]

/- One step of task `i` of process `pr`; `kill` is the process's kill-switch flag as
   the step finds it. Reads of the order row are consistent. -/
inductive TaskStep (i : ι) (pr : P) (reconciles kill : Bool) (s : SignalState ι P) :
    Phase → TaskEvent → SignalState ι P → Phase → Prop
  | begin : kill = false →
      TaskStep i pr reconciles kill s .idle .begin (s.setDefault pr) (.waiting (s.lockOf pr))
  | beginHalted : kill = true → TaskStep i pr reconciles kill s .idle .begin s .finished
  | beginRecovery {r : OrderRow} : reconciles = true → s.row = some r → r.status = .ackUnknown →
      TaskStep i pr reconciles kill s .idle .begin s (.placement none .scanning)
  | acquire {l : ℕ} : s.holder l = none →
      TaskStep i pr reconciles kill s (.waiting l) .acquire (s.acquire i l) (.looking l)
  | look {l : ℕ} : TaskStep i pr reconciles kill s (.looking l) .look s (.looked l s.row)
  -- a lookup that errors answers "no order"
  | lookFails {l : ℕ} : TaskStep i pr reconciles kill s (.looking l) .fail s (.looked l none)
  | unknownSignal {l : ℕ} :
      TaskStep i pr reconciles kill s (.looked l none) .resume s (.submitting l)
  -- case A: taken for stranded, placed again under the stored order id
  | pending {l : ℕ} {r : OrderRow} : r.status = .pending → kill = false →
      TaskStep i pr reconciles kill s (.looked l (some r)) .resume s (.placement (some l) .finding)
  | pendingHalted {l : ℕ} {r : OrderRow} : r.status = .pending → kill = true →
      TaskStep i pr reconciles kill s (.looked l (some r)) .resume (s.release (some l)) .finished
  | ackUnknown {l : ℕ} {r : OrderRow} : r.status = .ackUnknown →
      TaskStep i pr reconciles kill s (.looked l (some r)) .resume s
        (.placement (some l) .scanning)
  -- case B: any other status goes back to the caller as it is
  | duplicate {l : ℕ} {r : OrderRow} : r.status ≠ .pending → r.status ≠ .ackUnknown →
      TaskStep i pr reconciles kill s (.looked l (some r)) .resume
        ((s.pop pr).release (some l)) (.handed (responseOf r))
  | submit {l : ℕ} : s.row = none →
      TaskStep i pr reconciles kill s (.submitting l) .submit s.reserve (.submitted l true)
  | submitTaken {l : ℕ} : s.row ≠ none →
      TaskStep i pr reconciles kill s (.submitting l) .submit s (.submitted l false)
  | submitFails {l : ℕ} :
      TaskStep i pr reconciles kill s (.submitting l) .fail (s.release (some l)) .finished
  | submitUnanswered {l : ℕ} : s.row = none →
      TaskStep i pr reconciles kill s (.submitting l) .fail
        (s.reserve.release (some l)) .finished
  | reserved {l : ℕ} : kill = false →
      TaskStep i pr reconciles kill s (.submitted l true) .resume s (.placement (some l) .finding)
  | reservedHalted {l : ℕ} : kill = true →
      TaskStep i pr reconciles kill s (.submitted l true) .resume (s.release (some l)) .finished
  | lostRace {l : ℕ} :
      TaskStep i pr reconciles kill s (.submitted l false) .resume s (.relooking l)
  | relook {l : ℕ} : TaskStep i pr reconciles kill s (.relooking l) .relook s (.relooked l s.row)
  | relookFails {l : ℕ} :
      TaskStep i pr reconciles kill s (.relooking l) .fail s (.relooked l none)
  | concurrentDuplicate {l : ℕ} {r : OrderRow} :
      TaskStep i pr reconciles kill s (.relooked l (some r)) .resume
        ((s.pop pr).release (some l)) (.handed (responseOf r))
  | noRecord {l : ℕ} :
      TaskStep i pr reconciles kill s (.relooked l none) .resume (s.release (some l)) .finished
  | placement {l : Option ℕ} {p p' : Placement} {e : PlacementEvent} {r r' : OrderRow} :
      s.row = some r → PlacementStep s.Finds (s.Answers i) (· = r.status) r p e r' p' →
      TaskStep i pr reconciles kill s (.placement l p) (.placement e)
        { s with row := some r', calls := if e = .place then i :: s.calls else s.calls }
        (.placement l p')
  | placed {l : ℕ} {r : OrderResponse} :
      TaskStep i pr reconciles kill s (.placement (some l) (.recorded r)) .resume s
        (.protecting (some l) r)
  | recovered {r : OrderResponse} :
      TaskStep i pr reconciles kill s (.placement none (.recorded r)) .resume s .finished
  | raised {l : Option ℕ} :
      TaskStep i pr reconciles kill s (.placement l .raised) .resume (s.release l) .finished
  | protect {l : Option ℕ} {r : OrderResponse} :
      TaskStep i pr reconciles kill s (.protecting l r) .protect ((s.pop pr).release l) (.handed r)
  | protectFails {l : Option ℕ} {r : OrderResponse} :
      TaskStep i pr reconciles kill s (.protecting l r) .fail (s.release l) .finished
  | dropped {r : OrderResponse} : reconciles = true ∨ ¬ r.status.HasFill →
      TaskStep i pr reconciles kill s (.handed r) .resume s .finished
  | apply {r : OrderResponse} : reconciles = false → r.status.HasFill → 0 < r.filledQuantity →
      TaskStep i pr reconciles kill s (.handed r) .apply { s with applied := i :: s.applied }
        (.publishing r)
  -- the position update answers false, which the handler does not look at
  | applyFails {r : OrderResponse} : reconciles = false → r.status.HasFill →
      0 < r.filledQuantity → TaskStep i pr reconciles kill s (.handed r) .fail s (.publishing r)
  | nothingFilled {r : OrderResponse} : reconciles = false → r.status.HasFill →
      ¬ 0 < r.filledQuantity → TaskStep i pr reconciles kill s (.handed r) .resume s (.publishing r)
  | publish {r : OrderResponse} :
      TaskStep i pr reconciles kill s (.publishing r) .publish
        { s with published := i :: s.published } .finished
  | publishFails {r : OrderResponse} :
      TaskStep i pr reconciles kill s (.publishing r) .fail s .finished

variable {i : ι} {pr : P} {reconciles kill : Bool} {s s' : SignalState ι P}
  {p p' : Phase} {e : TaskEvent}

theorem TaskStep.orders_eq (h : TaskStep i pr reconciles kill s p e s' p') :
    s'.orders = s.orders := by
  cases h with
  | raised | protectFails => exact (s.release_sameRecords _).orders
  | protect => exact (s.pop_release_sameRecords _ _).orders
  | _ => rfl

theorem TaskStep.row_some (h : TaskStep i pr reconciles kill s p e s' p') (hr : s.row ≠ none) :
    s'.row ≠ none := by
  cases h with
  | raised | protectFails => rwa [(s.release_sameRecords _).row]
  | protect => rwa [(s.pop_release_sameRecords _ _).row]
  | submit hn | submitUnanswered hn => exact absurd hn hr
  | placement => exact Option.some_ne_none _
  | _ => exact hr

end TaskStep

/-- All signals, the kill-switch flag of each process, and all tasks. -/
structure World (ι P S : Type*) where
  signals : S → SignalState ι P
  killSwitch : P → Bool
  phase : ι → Phase

inductive Event (ι P S : Type*) where
  | task (i : ι) (e : TaskEvent)
  | accept (σ : S)
  | otherWriter (σ : S)
  | activate (pr : P)
  | clear (pr : P)
  | crash (pr : P)

/-- A crash ends every task that has begun. -/
def Phase.crashed : Phase → Phase
  | .idle => .idle
  | _ => .finished

/-- Which process runs a task, which signal it delivers, and whether it comes from the
startup reconciliation instead of the topic. -/
structure Assignment (ι P S : Type*) where
  process : ι → P
  signal : ι → S
  reconciles : ι → Bool

/-- What happens around a signal while none of its tasks moves. -/
structure Background (s s' : SignalState ι P) : Prop where
  calls : s'.calls = s.calls
  orders : s.orders ≠ [] → s'.orders ≠ []
  row : (s'.row = none ∧ s.row = none) ∨ ∃ r r', s.row = some r ∧ s'.row = some r' ∧
    isValidStatusTransition r.status r'.status = true
  applied : s'.applied = s.applied
  published : s'.published = s.published

theorem Background.refl (s : SignalState ι P) : Background s s := by
  refine ⟨rfl, id, ?_, rfl, rfl⟩
  cases h : s.row with
  | none => exact Or.inl ⟨rfl, rfl⟩
  | some r => exact Or.inr ⟨r, r, rfl, rfl, by simp [isValidStatusTransition]⟩

namespace World

def start : World ι P S := ⟨fun _ => .start, fun _ => false, fun _ => .idle⟩

section SetSignal
variable [DecidableEq S] (w : World ι P S) (σ : S) (s : SignalState ι P)

def setSignal : World ι P S := { w with signals := Function.update w.signals σ s }

@[simp] theorem setSignal_phase : (w.setSignal σ s).phase = w.phase := rfl

@[simp] theorem setSignal_killSwitch : (w.setSignal σ s).killSwitch = w.killSwitch := rfl

@[simp] theorem setSignal_self : (w.setSignal σ s).signals σ = s := Function.update_self _ _ _

variable {w σ s}

theorem setSignal_of_ne {τ : S} (h : τ ≠ σ) : (w.setSignal σ s).signals τ = w.signals τ :=
  Function.update_of_ne h _ _

end SetSignal

section SetPhase
variable [DecidableEq ι] (w : World ι P S) (i : ι) (p : Phase)

def setPhase : World ι P S := { w with phase := Function.update w.phase i p }

@[simp] theorem setPhase_signals : (w.setPhase i p).signals = w.signals := rfl

@[simp] theorem setPhase_killSwitch : (w.setPhase i p).killSwitch = w.killSwitch := rfl

@[simp] theorem setPhase_self : (w.setPhase i p).phase i = p := Function.update_self _ _ _

variable {w i p}

theorem setPhase_of_ne {j : ι} (h : j ≠ i) : (w.setPhase i p).phase j = w.phase j :=
  Function.update_of_ne h _ _

end SetPhase

def setKillSwitch [DecidableEq P] (w : World ι P S) (pr : P) (active : Bool) : World ι P S :=
  { w with killSwitch := Function.update w.killSwitch pr active }

variable [DecidableEq ι] [DecidableEq P] [DecidableEq S]

/- The broker may accept a call at any time after it, or never. The poller and the
   other writers move the row along the transition table. -/
inductive Step (A : Assignment ι P S) : World ι P S → Event ι P S → World ι P S → Prop
  | task {w : World ι P S} {i : ι} {e : TaskEvent} {s : SignalState ι P} {p : Phase} :
      TaskStep i (A.process i) (A.reconciles i) (w.killSwitch (A.process i))
        (w.signals (A.signal i)) (w.phase i) e s p →
      Step A w (.task i e) ((w.setSignal (A.signal i) s).setPhase i p)
  | accept {w : World ι P S} {σ : S} {i : ι} : i ∈ (w.signals σ).calls →
      i ∉ (w.signals σ).orders →
      Step A w (.accept σ)
        (w.setSignal σ { w.signals σ with orders := i :: (w.signals σ).orders })
  | otherWriter {w : World ι P S} {σ : S} {r r' : OrderRow} : (w.signals σ).row = some r →
      isValidStatusTransition r.status r'.status = true →
      Step A w (.otherWriter σ) (w.setSignal σ { w.signals σ with row := some r' })
  | activate {w : World ι P S} {pr : P} : Step A w (.activate pr) (w.setKillSwitch pr true)
  | clear {w : World ι P S} {pr : P} : Step A w (.clear pr) (w.setKillSwitch pr false)
  | crash {w : World ι P S} {pr : P} :
      Step A w (.crash pr)
        { signals := fun σ => (w.signals σ).pop pr
          killSwitch := Function.update w.killSwitch pr false
          phase := fun i => if A.process i = pr then (w.phase i).crashed else w.phase i }

variable {A : Assignment ι P S} {w w' : World ι P S} {ev : Event ι P S}

/-- All a step of the world does to one signal and its tasks: one of them moves, or
its surroundings do and some of them end in a crash. -/
theorem Step.view (h : Step A w ev w') (σ : S) :
    (∃ i e p, A.signal i = σ ∧ ev = .task i e ∧ w'.phase = Function.update w.phase i p ∧
      TaskStep i (A.process i) (A.reconciles i) (w.killSwitch (A.process i)) (w.signals σ)
        (w.phase i) e (w'.signals σ) p) ∨
    (Background (w.signals σ) (w'.signals σ) ∧
      ∀ i, A.signal i = σ → w'.phase i = w.phase i ∨ w'.phase i = .finished) := by
  cases h with
  | @task i e s p ht =>
    by_cases hσ : A.signal i = σ
    · subst hσ
      refine Or.inl ⟨i, e, p, rfl, rfl, rfl, ?_⟩
      simpa using ht
    · right
      have hs : ((w.setSignal (A.signal i) s).setPhase i p).signals σ = w.signals σ :=
        setSignal_of_ne (Ne.symm hσ)
      refine ⟨hs ▸ Background.refl _, fun j hj => Or.inl ?_⟩
      have hji : j ≠ i := fun he => hσ (he ▸ hj)
      exact setPhase_of_ne hji
  | @accept σ' i hi hn =>
    refine Or.inr ⟨?_, fun _ _ => Or.inl rfl⟩
    by_cases hσ : σ = σ'
    · subst hσ
      have hb := Background.refl (w.signals σ)
      rw [setSignal_self]
      exact ⟨rfl, fun _ => List.cons_ne_nil _ _, hb.row, rfl, rfl⟩
    · rw [setSignal_of_ne hσ]
      exact Background.refl _
  | @otherWriter σ' r r' hr hv =>
    refine Or.inr ⟨?_, fun _ _ => Or.inl rfl⟩
    by_cases hσ : σ = σ'
    · subst hσ
      rw [setSignal_self]
      exact ⟨rfl, id, Or.inr ⟨r, r', hr, rfl, hv⟩, rfl, rfl⟩
    · rw [setSignal_of_ne hσ]
      exact Background.refl _
  | activate | clear => exact Or.inr ⟨Background.refl _, fun _ _ => Or.inl rfl⟩
  | @crash pr =>
    have hb := Background.refl (w.signals σ)
    refine Or.inr ⟨⟨rfl, id, hb.row, rfl, rfl⟩, fun i _ => ?_⟩
    simp only
    by_cases hi : A.process i = pr
    · rw [if_pos hi]
      cases w.phase i with
      | idle => exact Or.inl rfl
      | _ => exact Or.inr rfl
    · rw [if_neg hi]
      exact Or.inl rfl

/-- A step of a task, taken in any world that shows the task what it needs. -/
theorem task_step {i : ι} {e : TaskEvent} {kill : Bool} {s s' : SignalState ι P} {p p' : Phase}
    (ht : TaskStep i (A.process i) (A.reconciles i) kill s p e s' p')
    (hs : w.signals (A.signal i) = s) (hp : w.phase i = p)
    (hk : w.killSwitch (A.process i) = kill) :
    ∃ w', Step A w (.task i e) w' ∧ w'.signals (A.signal i) = s' ∧ w'.phase i = p' ∧
      (∀ j, j ≠ i → w'.phase j = w.phase j) ∧ w'.killSwitch = w.killSwitch := by
  subst hs hp hk
  exact ⟨_, .task ht, by simp, by simp, fun j hj => setPhase_of_ne hj, rfl⟩

/-- Steps of one task with nothing in between. -/
def Solo (A : Assignment ι P S) (i : ι) (kill : Bool)
    (allowed : SignalState ι P → TaskEvent → Prop) :
    SignalState ι P × Phase → SignalState ι P × Phase → Prop :=
  Relation.ReflTransGen fun a b => ∃ e, allowed a.1 e ∧
    TaskStep i (A.process i) (A.reconciles i) kill a.1 a.2 e b.1 b.2

omit [DecidableEq ι] [DecidableEq S] in
theorem Solo.next {i : ι} {kill : Bool} {allowed : SignalState ι P → TaskEvent → Prop}
    {a : SignalState ι P × Phase} {s s' : SignalState ι P} {p p' : Phase} {e : TaskEvent}
    (h : Solo A i kill allowed a (s, p)) (he : allowed s e)
    (ht : TaskStep i (A.process i) (A.reconciles i) kill s p e s' p') :
    Solo A i kill allowed a (s', p') :=
  h.tail ⟨e, he, ht⟩

theorem Solo.reaches {ok : World ι P S → Event ι P S → Prop} {w₀ : World ι P S} {i : ι}
    {kill : Bool} {allowed : SignalState ι P → TaskEvent → Prop}
    {a b : SignalState ι P × Phase} (h : Solo A i kill allowed a b)
    (hok : ∀ (w : World ι P S) e, allowed (w.signals (A.signal i)) e → ok w (.task i e))
    (hw : Reaches (Step A) ok w₀ w) (hs : w.signals (A.signal i) = a.1) (hp : w.phase i = a.2)
    (hk : w.killSwitch (A.process i) = kill) :
    ∃ w', Reaches (Step A) ok w₀ w' ∧ w'.signals (A.signal i) = b.1 ∧ w'.phase i = b.2 ∧
      (∀ j, j ≠ i → w'.phase j = w.phase j) ∧ w'.killSwitch = w.killSwitch := by
  induction h with
  | refl => exact ⟨w, hw, hs, hp, fun _ _ => rfl, rfl⟩
  | tail _ hstep ih =>
    obtain ⟨w₁, h₁, hs₁, hp₁, ho₁, hk₁⟩ := ih
    obtain ⟨e, hallow, ht⟩ := hstep
    obtain ⟨w₂, h₂, hs₂, hp₂, ho₂, hk₂⟩ := task_step ht hs₁ hp₁ ((congrFun hk₁ _).trans hk)
    rw [← hs₁] at hallow
    exact ⟨w₂, h₁.next (hok w₁ e hallow) h₂, hs₂, hp₂,
      fun j hj => (ho₂ j hj).trans (ho₁ j hj), hk₂.trans hk₁⟩

/-- The signal after task `i` alone has reserved it. -/
def reservedBy (pr : P) (i : ι) : SignalState ι P :=
  ((SignalState.start.setDefault pr).acquire i 0).reserve

omit [DecidableEq ι] [DecidableEq S] in
/-- A first delivery on its own, up to its turn at the rate limiter. -/
theorem Solo.first_placement {i : ι} {allowed : SignalState ι P → TaskEvent → Prop}
    (hall : ∀ s e, (e = .look → s.row = none) → e ≠ .relook → allowed s e) :
    Solo A i false allowed (.start, .idle)
      (reservedBy (A.process i) i, .placement (some 0) .limiting) := by
  have h1 : Solo A i false allowed (.start, .idle) _ :=
    Solo.next .refl (hall _ _ (by nofun) (by nofun)) (.begin rfl)
  have h2 := h1.next (hall _ _ (by nofun) (by nofun)) (.acquire rfl)
  have h3 := h2.next (hall _ _ (fun _ => rfl) (by nofun)) .look
  have h4 := h3.next (hall _ _ (by nofun) (by nofun)) .unknownSignal
  have h5 := h4.next (hall _ _ (by nofun) (by nofun)) (.submit rfl)
  have h6 := h5.next (hall _ _ (by nofun) (by nofun)) (.reserved rfl)
  have h7 := h6.next (hall _ _ (by nofun) (by nofun))
    (.placement rfl (.find (o := none) (SignalState.finds_none rfl)))
  exact h7.next (hall _ _ (by nofun) (by nofun)) (.placement rfl .miss)

theorem first_placement_reaches (A : Assignment ι P S) (i : ι)
    (ok : World ι P S → Event ι P S → Prop)
    (hok : ∀ (w : World ι P S) e, (e = .look → (w.signals (A.signal i)).row = none) →
      e ≠ .relook → ok w (.task i e)) :
    ∃ w, Reaches (Step A) ok start w ∧
      w.signals (A.signal i) = reservedBy (A.process i) i ∧
      w.phase i = .placement (some 0) .limiting ∧ (∀ j, j ≠ i → w.phase j = .idle) ∧
      ∀ pr, w.killSwitch pr = false := by
  let allowed : SignalState ι P → TaskEvent → Prop := fun s e =>
    (e = .look → s.row = none) ∧ e ≠ .relook
  have hsolo : Solo A i false allowed (.start, .idle) _ :=
    Solo.first_placement fun _ _ hl hr => ⟨hl, hr⟩
  obtain ⟨w, hw, hs, hp, ho, hk⟩ := hsolo.reaches (w := start) (fun w e ha => hok w e ha.1 ha.2)
    .refl rfl rfl rfl
  exact ⟨w, hw, hs, hp, ho, fun pr => by rw [hk]; rfl⟩

end World
end QuantEmbrace
