import QuantEmbrace.Order
import QuantEmbrace.Lib.GuardedRun
import Mathlib.Algebra.Order.Field.Rat
import Mathlib.Data.List.Chain
import Mathlib.Data.List.Destutter
import Mathlib.Logic.Function.Basic

/-! The stored order row and `_transition_order_status`: read the status, check the
table, write on condition of the status read, and look again when that is refused. -/
namespace QuantEmbrace
open GuardedRun
open OrderStatus (isValidStatusTransition)

/-- Attributes of the orders-table item that a status write or a reader of the
status touches. An absent `broker_order_id` reads as the empty string. -/
structure OrderRow where
  status : OrderStatus
  filledQuantity : ℚ
  avgFillPrice : ℚ
  slippage : ℚ
  brokerMessage : String
  brokerOrderId : Option String
  brokerOrderState : String
  outboxStatus : String
  brokerSubmitted : Bool
  deriving DecidableEq, Repr

/-- The item `submit_order` and `submit_child_order` put. -/
def OrderRow.reserved : OrderRow where
  status := .pending
  filledQuantity := 0
  avgFillPrice := 0
  slippage := 0
  brokerMessage := ""
  brokerOrderId := none
  brokerOrderState := "RESERVED"
  outboxStatus := "BROKER_RESERVED"
  brokerSubmitted := false

/-- Arguments of `_transition_order_status`. -/
structure StatusWrite where
  newStatus : OrderStatus
  filledQuantity : ℚ := 0
  averagePrice : ℚ := 0
  brokerMessage : String := ""
  expectedPreviousStatus : Option OrderStatus := none
  brokerOrderId : Option String := none
  slippage : ℚ := 0
  brokerOrderState : Option String := none
  outboxStatus : Option String := none
  brokerSubmitted : Bool := false
  deriving DecidableEq, Repr

/- `UpdateExpression`: the quantities are set from the arguments whatever the row
   holds, the broker attributes only when an argument is given. -/
def StatusWrite.set (w : StatusWrite) (row : OrderRow) : OrderRow where
  status := w.newStatus
  filledQuantity := w.filledQuantity
  avgFillPrice := w.averagePrice
  slippage := w.slippage
  brokerMessage := w.brokerMessage
  brokerOrderId := w.brokerOrderId <|> row.brokerOrderId
  brokerOrderState := w.brokerOrderState.getD row.brokerOrderState
  outboxStatus := w.outboxStatus.getD row.outboxStatus
  brokerSubmitted := w.brokerSubmitted || row.brokerSubmitted

@[simp] theorem StatusWrite.set_status (w : StatusWrite) (row : OrderRow) :
    (w.set row).status = w.newStatus := rfl

@[simp] theorem StatusWrite.set_filledQuantity (w : StatusWrite) (row : OrderRow) :
    (w.set row).filledQuantity = w.filledQuantity := rfl

structure OrderStatusUpdate where
  brokerOrderId : String
  previousStatus : OrderStatus
  newStatus : OrderStatus
  filledQuantity : ℚ := 0
  avgFillPrice : ℚ := 0
  slippage : ℚ := 0
  brokerMessage : String := ""
  deriving DecidableEq, Repr

structure OrderResponse where
  brokerOrderId : String
  status : OrderStatus
  filledQuantity : ℚ := 0
  avgFillPrice : ℚ := 0
  brokerMessage : String := ""
  deriving DecidableEq, Repr

def updateStatus (u : OrderStatusUpdate) : StatusWrite :=
  { newStatus := u.newStatus
    expectedPreviousStatus := some u.previousStatus
    filledQuantity := u.filledQuantity
    averagePrice := u.avgFillPrice
    brokerMessage := u.brokerMessage
    brokerOrderId := some u.brokerOrderId
    slippage := u.slippage }

def updateOrderStatus (newStatus : OrderStatus) (filledQuantity : ℚ := 0)
    (averagePrice : ℚ := 0) (brokerMessage : String := "") : StatusWrite :=
  { newStatus, filledQuantity, averagePrice, brokerMessage }

/-- `record_order`; the caller raises when the transition answers false. -/
def recordOrder (r : OrderResponse) : StatusWrite :=
  { newStatus := r.status
    filledQuantity := r.filledQuantity
    averagePrice := r.avgFillPrice
    brokerMessage := r.brokerMessage
    brokerOrderId := some r.brokerOrderId
    brokerOrderState := some "SUBMITTED"
    outboxStatus := some "BROKER_ACKED"
    brokerSubmitted := true }

def markOrderAckUnknown (brokerMessage : String) : StatusWrite :=
  { newStatus := .ackUnknown
    brokerMessage
    brokerOrderState := some "ACK_UNKNOWN"
    outboxStatus := some "BROKER_ACK_UNKNOWN" }

/-- Where one call of `_transition_order_status` stands. -/
inductive CallPhase where
  | reading
  | writing (previous : OrderStatus)
  | rereading
  | returned (ok : Bool)
  deriving DecidableEq, Repr

/-- The table check, made on the status the call holds. -/
def StatusWrite.validate (w : StatusWrite) (previous : OrderStatus) : CallPhase :=
  if isValidStatusTransition previous w.newStatus then .writing previous else .returned false

def StatusWrite.start (w : StatusWrite) : CallPhase :=
  match w.expectedPreviousStatus with
  | some previous => w.validate previous
  | none => .reading

inductive CallEvent where
  | read (seen : OrderStatus)
  | write
  | reread (seen : OrderStatus)
  | fail (applied : Bool)
  deriving DecidableEq, Repr

/- One step of a call. `Sees` tells which statuses a read may return. A request
   that errors answers false; the row may have been written all the same. -/
inductive CallStep (Sees : OrderStatus → Prop) (w : StatusWrite) (row : OrderRow) :
    CallPhase → CallEvent → OrderRow → CallPhase → Prop
  | read (st : OrderStatus) : Sees st → CallStep Sees w row .reading (.read st) row (w.validate st)
  | write {prev : OrderStatus} : row.status = prev →
      CallStep Sees w row (.writing prev) .write (w.set row) (.returned true)
  | refused {prev : OrderStatus} : row.status ≠ prev →
      CallStep Sees w row (.writing prev) .write row .rereading
  | reread {st : OrderStatus} : Sees st →
      CallStep Sees w row .rereading (.reread st) row (.returned (st = w.newStatus))
  | failRead : CallStep Sees w row .reading (.fail false) row (.returned false)
  | failWrite {prev : OrderStatus} :
      CallStep Sees w row (.writing prev) (.fail false) row (.returned false)
  | failWritten {prev : OrderStatus} : row.status = prev →
      CallStep Sees w row (.writing prev) (.fail true) (w.set row) (.returned false)
  | failReread : CallStep Sees w row .rereading (.fail false) row (.returned false)

/-- A call no other writer comes between, without an expected status. -/
def StatusWrite.undisturbed (w : StatusWrite) (row : OrderRow) : OrderRow :=
  if isValidStatusTransition row.status w.newStatus then w.set row else row

theorem StatusWrite.undisturbed_valid {w : StatusWrite} {row : OrderRow}
    (h : isValidStatusTransition row.status w.newStatus = true) :
    w.undisturbed row = w.set row := if_pos h

theorem StatusWrite.undisturbed_steps {Sees : OrderStatus → Prop} (w : StatusWrite)
    (row : OrderRow) (hs : Sees row.status) :
    ∃ c, CallStep Sees w row .reading (.read row.status) row c ∧
      ((c = .returned false ∧ w.undisturbed row = row) ∨
        CallStep Sees w row c .write (w.undisturbed row) (.returned true)) := by
  refine ⟨_, .read _ hs, ?_⟩
  by_cases hv : isValidStatusTransition row.status w.newStatus = true
  · rw [validate, if_pos hv, undisturbed_valid hv]
    exact Or.inr (.write rfl)
  · rw [validate, if_neg hv, undisturbed, if_neg hv]
    exact Or.inl ⟨rfl, rfl⟩

/-- A call in its writing phase has passed the table check. -/
def StatusWrite.Checked (w : StatusWrite) (c : CallPhase) : Prop :=
  ∀ prev, c = .writing prev → isValidStatusTransition prev w.newStatus = true

theorem StatusWrite.validate_checked (w : StatusWrite) (prev : OrderStatus) :
    w.Checked (w.validate prev) := by
  intro p hp
  by_cases hv : isValidStatusTransition prev w.newStatus = true
  · rw [validate, if_pos hv] at hp
    cases hp
    exact hv
  · rw [validate, if_neg hv] at hp
    cases hp

theorem StatusWrite.validate_ne_true (w : StatusWrite) (prev : OrderStatus) :
    w.validate prev ≠ .returned true := by
  unfold validate
  split <;> simp

theorem StatusWrite.start_checked (w : StatusWrite) : w.Checked w.start := by
  unfold start
  cases w.expectedPreviousStatus with
  | none => intro prev hp; cases hp
  | some prev => exact w.validate_checked prev

theorem StatusWrite.start_ne_true (w : StatusWrite) : w.start ≠ .returned true := by
  unfold start
  cases w.expectedPreviousStatus with
  | none => simp
  | some prev => exact w.validate_ne_true prev

section CallStep
variable {Sees : OrderStatus → Prop} {w : StatusWrite} {row row' : OrderRow}
  {c c' : CallPhase} {e : CallEvent}

/-- All a call step does to the row: nothing, or the whole write on the status
the call had checked. -/
theorem CallStep.row_cases (h : CallStep Sees w row c e row' c') :
    row' = row ∨ (c = .writing row.status ∧ row' = w.set row) := by
  cases h with
  | write hp | failWritten hp => exact Or.inr ⟨by rw [hp], rfl⟩
  | _ => exact Or.inl rfl

theorem CallStep.checked (h : CallStep Sees w row c e row' c') : w.Checked c' := by
  cases h with
  | read hs => exact w.validate_checked _
  | _ => intro prev hp; cases hp

theorem CallStep.valid (h : CallStep Sees w row c e row' c') (hc : w.Checked c) :
    isValidStatusTransition row.status row'.status = true := by
  obtain rfl | ⟨hw, rfl⟩ := h.row_cases
  · simp [isValidStatusTransition]
  · exact hc _ hw

/-- A call that answers true wrote the status itself or saw it on its second look. -/
theorem CallStep.granted (h : CallStep Sees w row c e row' (.returned true)) :
    row'.status = w.newStatus ∨ (e = .reread w.newStatus ∧ Sees w.newStatus) := by
  generalize hc' : CallPhase.returned true = c' at h
  cases h with
  | read hs => exact absurd hc'.symm (w.validate_ne_true _)
  | write hp => exact Or.inl rfl
  | reread hs =>
    have hst := CallPhase.returned.inj hc'
    have he := of_decide_eq_true hst.symm
    subst he
    exact Or.inr ⟨rfl, hs⟩
  | refused | failRead | failWrite | failWritten | failReread => simp at hc'

end CallStep

theorem head?_destutter' {α : Type*} [DecidableEq α] (a : α) (l : List α) :
    (l.destutter' (· ≠ ·) a).head? = some a := by
  induction l generalizing a with
  | nil => rfl
  | cons b l ih =>
    by_cases hab : a = b
    · rw [List.destutter'_cons_neg _ (by simpa using hab)]
      exact ih a
    · rw [List.destutter'_cons_pos _ hab]
      rfl

/-- A chain that may stand still becomes a chain of proper moves when repetitions
are dropped. -/
theorem isChain_destutter' {α : Type*} [DecidableEq α] {R S : α → α → Prop}
    (hRS : ∀ a b, R a b → a = b ∨ S a b) (a : α) (l : List α) (h : (a :: l).IsChain R) :
    (l.destutter' (· ≠ ·) a).IsChain S := by
  induction l generalizing a with
  | nil => simp
  | cons b l ih =>
    obtain ⟨hab, hl⟩ := List.isChain_cons_cons.mp h
    by_cases he : a = b
    · subst he
      rw [List.destutter'_cons_neg _ (by simp)]
      exact ih a hl
    · have hs : S a b := (hRS a b hab).resolve_left he
      rw [List.destutter'_cons_pos _ he, List.isChain_cons, head?_destutter']
      exact ⟨by simpa using hs, ih b hl⟩

/-- One order row under any number of writers. `history` is the status after each
step, oldest first. -/
structure OrderWorld (ι : Type*) where
  row : OrderRow
  calls : ι → CallPhase
  history : List OrderStatus

namespace OrderWorld
variable {ι : Type*} {W : ι → StatusWrite}

/-- The order has just been reserved, and every writer is about to call. -/
def start (W : ι → StatusWrite) : OrderWorld ι :=
  ⟨.reserved, fun i => (W i).start, [.pending]⟩

/- A read returns the stored status or an earlier one: the lookup does not ask
   the store for a consistent read. -/
def Sees (w : OrderWorld ι) (st : OrderStatus) : Prop := st ∈ w.history

inductive Step [DecidableEq ι] (W : ι → StatusWrite) :
    OrderWorld ι → ι × CallEvent → OrderWorld ι → Prop
  | call {w : OrderWorld ι} {i : ι} {e : CallEvent} {row : OrderRow} {c : CallPhase} :
      CallStep w.Sees (W i) w.row (w.calls i) e row c →
      Step W w (i, e) ⟨row, Function.update w.calls i c, w.history ++ [row.status]⟩

def Reachable [DecidableEq ι] (W : ι → StatusWrite) (w : OrderWorld ι) : Prop :=
  Reaches (Step W) (fun _ _ => True) (start W) w

/-- The lifecycle invariant. -/
structure Sound (W : ι → StatusWrite) (w : OrderWorld ι) : Prop where
  head : w.history.head? = some .pending
  last : w.history.getLast? = some w.row.status
  chain : w.history.IsChain fun a b => isValidStatusTransition a b = true
  stays : ∀ s ∈ w.history, s.Terminal → w.row.status = s
  checked : ∀ i, (W i).Checked (w.calls i)
  granted : ∀ i, w.calls i = .returned true → (W i).newStatus ∈ w.history

theorem start_sound (W : ι → StatusWrite) : Sound W (start W) where
  head := rfl
  last := rfl
  chain := by simp [start]
  stays := by
    intro s hs ht
    simp only [start, List.mem_singleton] at hs
    exact hs.symm
  checked i := (W i).start_checked
  granted i hi := absurd hi (W i).start_ne_true

variable [DecidableEq ι]

theorem step_sound {w w' : OrderWorld ι} {e : ι × CallEvent} (hw : Sound W w)
    (h : Step W w e w') : Sound W w' := by
  obtain ⟨hcall⟩ := h
  rename_i i e row c
  have hvalid : isValidStatusTransition w.row.status row.status = true :=
    hcall.valid (hw.checked i)
  refine ⟨?_, ?_, ?_, ?_, ?_, ?_⟩
  · rw [List.head?_append, hw.head]
    rfl
  · simp
  · -- only the last link is new
    refine hw.chain.append (List.isChain_singleton _) ?_
    intro a ha b hb
    rw [hw.last, Option.mem_some_iff] at ha
    simp only [List.head?_cons, Option.mem_some_iff] at hb
    rw [← ha, ← hb]
    exact hvalid
  · intro s hs ht
    obtain hs | hs := List.mem_append.mp hs
    · have hst := hw.stays s hs ht
      rw [hst] at hvalid
      exact ht.stays hvalid
    · exact (List.mem_singleton.mp hs).symm
  · exact (Function.forall_update_iff w.calls fun j c => (W j).Checked c).mpr
      ⟨hcall.checked, fun j _ => hw.checked j⟩
  · refine (Function.forall_update_iff w.calls fun j c => c = .returned true →
      (W j).newStatus ∈ w.history ++ [row.status]).mpr
      ⟨fun hc => ?_, fun j _ hj => List.mem_append_left _ (hw.granted j hj)⟩
    subst hc
    obtain hset | ⟨_, hsees⟩ := hcall.granted
    · exact List.mem_append_right _ (by simp [hset])
    · exact List.mem_append_left _ hsees

theorem reachable_sound {w : OrderWorld ι} (h : Reachable W w) : Sound W w :=
  Reaches.invariant (I := Sound W) (fun _ _ _ hw _ hs => step_sound hw hs) h (start_sound W)

/-- The distinct statuses an order goes through form a path of the transition table
from PENDING, terminal ones are never left, and a call that answers true does so at
a moment when the row has, or the status it was last shown had, the requested value. -/
theorem order_lifecycle {w : OrderWorld ι} (h : Reachable W w) :
    w.history.getLast? = some w.row.status ∧
    (w.history.destutter (· ≠ ·)).head? = some .pending ∧
    (w.history.destutter (· ≠ ·)).IsChain (fun a b => b ∈ a.validTransitions) ∧
    (∀ s ∈ w.history, s.Terminal → w.row.status = s) ∧
    (∀ i, w.calls i = .returned true → (W i).newStatus ∈ w.history) ∧
    (∀ i e w', Step W w (i, e) w' → w'.calls i = .returned true →
      (∀ st, e = .reread st → st = w.row.status) → w'.row.status = (W i).newStatus) := by
  have hw := reachable_sound h
  obtain ⟨l, hl⟩ : ∃ l, w.history = .pending :: l := List.head?_eq_some_iff.mp hw.head
  have hchain := hw.chain
  rw [hl] at hchain
  have hpath : (w.history.destutter (· ≠ ·)).IsChain (fun a b => b ∈ a.validTransitions) := by
    rw [hl, List.destutter_cons']
    exact isChain_destutter' (fun a b hab =>
      (OrderStatus.isValidStatusTransition_iff a b).mp hab) _ _ hchain
  have hhead : (w.history.destutter (· ≠ ·)).head? = some .pending := by
    rw [hl, List.destutter_cons']
    exact head?_destutter' _ _
  refine ⟨hw.last, hhead, hpath, hw.stays, hw.granted, ?_⟩
  intro i e w' hstep hret hfresh
  cases hstep with
  | call hcall =>
    simp only [Function.update_self] at hret
    subst hret
    obtain hset | ⟨he, _⟩ := hcall.granted
    · exact hset
    · have hrow : w.row.status = (W i).newStatus := (hfresh _ he).symm
      have hsame := hcall.row_cases.resolve_right (fun hwr => by
        subst he
        cases hwr.1 ▸ hcall)
      simpa [hsame] using hrow

/-- The broker's acknowledgement of a reserved order, undisturbed. -/
theorem order_lifecycle_acknowledged :
    ∃ w : OrderWorld Unit, w.row.status = .placed ∧ w.history = [.pending, .pending, .placed] ∧
      (w.history.destutter (· ≠ ·)).IsChain (fun a b => b ∈ a.validTransitions) := by
  let W : Unit → StatusWrite := fun _ => recordOrder { brokerOrderId := "B1", status := .placed }
  have h1 : Reachable W _ :=
    Reaches.next .refl trivial (.call (i := ()) (.read .pending (by simp [Sees, start])))
  have h2 : Reachable W _ := h1.next trivial (.call (i := ()) (.write rfl))
  exact ⟨_, rfl, rfl, (order_lifecycle h2).2.2.1⟩

end OrderWorld
end QuantEmbrace
