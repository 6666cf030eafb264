import QuantEmbrace.BulkPoller
import QuantEmbrace.Placement
import QuantEmbrace.PositionAccounting

/-! Startup reconciliation: what `_reconcile_state` does with each open order it is
shown, and the kill-switch cancel pass that may run between two of them. Nothing else
writes the orders at that time, and requests to the store go through. -/
namespace QuantEmbrace
open OrderStatus (isValidStatusTransition)

/-- The entries of the stored metadata that are read; an absent text is empty. -/
structure OrderMetadata where
  protectiveType : String := ""
  parentOrderId : String := ""
  paperTrade : Bool := false
  expiresAt : Option ℤ := none
  deriving DecidableEq, Repr

/-- The order parameters of the row, and the part that status writes touch. -/
structure StoredOrder where
  orderId : String
  signalId : String
  riskDecisionId : String
  symbol : String
  market : Market
  side : OrderSide
  quantity : ℚ
  stopPrice : Option ℚ := none
  parentOrderId : String := ""
  protectiveType : String := ""
  isProtective : Bool := false
  metadata : OrderMetadata := {}
  row : OrderRow
  deriving DecidableEq, Repr

namespace StoredOrder

def brokerOrderId (o : StoredOrder) : String := o.row.brokerOrderId.getD ""

/-- `_is_protective_order` -/
def IsProtectiveOrder (o : StoredOrder) : Prop :=
  o.isProtective = true ∨ o.metadata.protectiveType ≠ "" ∨ "SL-".toList <+: o.orderId.toList

/-- An identifier of a simulated order. -/
def PaperId (s : String) : Prop := "PAPER-".toList <+: s.toList

/-- `_is_paper_order` -/
def IsPaperOrder (o : StoredOrder) : Prop :=
  PaperId o.brokerOrderId ∨ o.metadata.paperTrade = true ∨ PaperId o.orderId

instance (o : StoredOrder) : Decidable o.IsProtectiveOrder :=
  inferInstanceAs (Decidable (_ ∨ _ ∨ _))
instance (s : String) : Decidable (PaperId s) := inferInstanceAs (Decidable (_ <+: _))
instance (o : StoredOrder) : Decidable o.IsPaperOrder := inferInstanceAs (Decidable (_ ∨ _ ∨ _))

/-- A stop that `_maybe_place_protective_stop` would place for the entry. -/
def WantsStop (o : StoredOrder) : Prop :=
  ¬ o.IsProtectiveOrder ∧ 0 < o.stopPrice.getD 0

instance (o : StoredOrder) : Decidable o.WantsStop := inferInstanceAs (Decidable (_ ∧ _))

end StoredOrder

/-- What a broker method is given: the order request or a broker order id. -/
inductive BrokerCall where
  | findOrderByClientOrderId (o : StoredOrder)
  | placeOrder (o : StoredOrder)
  | getOrderStatus (brokerOrderId : String)
  | cancelOrder (brokerOrderId : String)
  deriving DecidableEq, Repr

/-- How the broker answers what is asked about one order; an error is raised. -/
structure BrokerAnswers where
  found : Except String (Option OrderResponse)
  placed : Answer
  rescanned : Except String (Option OrderResponse)
  current : Except String BrokerReport

/-- `existing is not None and existing.broker_order_id` -/
def visible : Except String (Option OrderResponse) → Option OrderResponse
  | .ok (some r) => if r.brokerOrderId = "" then none else some r
  | _ => none

/-- A response with a broker order id that the broker may give. -/
def BrokerAnswers.Gives (b : BrokerAnswers) (r : OrderResponse) : Prop :=
  visible b.found = some r ∨ b.placed = .accepted r ∨ visible b.rescanned = some r

/-- The row, the broker calls made, and the response if none was raised. -/
structure Attempt where
  row : OrderRow
  calls : List BrokerCall
  response : Option OrderResponse

def recoverAckUnknownOrder (b : BrokerAnswers) (o : StoredOrder) (row : OrderRow) : Attempt :=
  ⟨row, [.findOrderByClientOrderId o], visible b.rescanned⟩

def placeOrderWithBrokerIdempotency (b : BrokerAnswers) (reason : String) (o : StoredOrder)
    (row : OrderRow) : Attempt :=
  match b.found with
  | .error _ => ⟨row, [.findOrderByClientOrderId o], none⟩
  | .ok _ =>
    match visible b.found with
    | some r => ⟨row, [.findOrderByClientOrderId o], some r⟩
    | none =>
      let calls := [.findOrderByClientOrderId o, .placeOrder o]
      match b.placed with
      | .accepted r => ⟨row, calls, some r⟩
      | .refused => ⟨placementRejectedWrite.undisturbed row, calls, none⟩
      | .unknown exc =>
        let marked := (markOrderAckUnknown
          s!"Broker placement acknowledgement unknown after {reason}: {exc}").undisturbed row
        let scan := recoverAckUnknownOrder b o marked
        { scan with calls := calls ++ scan.calls }

/-- One turn of the loop: the clock, the universe validation, the stamp of a position
write, and the broker. -/
structure Turn where
  now : ℤ
  approved : Bool
  stamp : String
  broker : BrokerAnswers

/-- What a turn leaves: the row, the broker calls, quantity and price the position is
credited with, the quantity a protective stop is asked for, and whether it raised. -/
structure TurnOutcome where
  row : OrderRow
  calls : List BrokerCall := []
  credit : Option (ℚ × ℚ) := none
  stop : Option ℚ := none
  raised : Bool := false

/-- `record_order` after a placement or a recovery; without a response it has raised. -/
def Attempt.record (a : Attempt) : TurnOutcome :=
  match a.response with
  | none => { row := a.row, calls := a.calls, raised := true }
  | some r =>
    { row := (recordOrder r).undisturbed a.row
      calls := a.calls
      raised := ! isValidStatusTransition a.row.status r.status }

/-- `_maybe_place_protective_stop` for the fill of the response. -/
def Attempt.recordAndProtect (a : Attempt) (o : StoredOrder) : TurnOutcome :=
  match a.response with
  | some r =>
    let out := a.record
    { out with
      stop := if out.raised = false ∧ o.WantsStop ∧ 0 < r.filledQuantity
        then some r.filledQuantity else none }
  | none => a.record

section Turns
variable (o : StoredOrder) (row : OrderRow) (t : Turn)

/-- `execute_approved_signal` for a stored signal; `row` is the order it finds. -/
def executeApprovedSignal (killSwitch : Bool) : TurnOutcome :=
  if ∃ x, o.metadata.expiresAt = some x ∧ x < t.now then { row, raised := true }
  else if killSwitch then { row, raised := true }
  else if t.approved = false then { row, raised := true }
  else match row.status with
    | .pending => (placeOrderWithBrokerIdempotency t.broker "entry" o row).recordAndProtect o
    | .ackUnknown => (recoverAckUnknownOrder t.broker o row).recordAndProtect o
    | _ => { row }

/-- `_place_pending_protective_order`: a child without a stop price is only logged. -/
def placePendingProtectiveOrder : TurnOutcome :=
  if o.stopPrice.getD 0 ≤ 0 ∨ o.quantity ≤ 0 then { row }
  else if o.parentOrderId = "" ∧ o.metadata.parentOrderId = "" then { row }
  else (placeOrderWithBrokerIdempotency t.broker "pending_protective_reconcile" o row).record

/-- The second pass: a fill counts when it comes with a new status. -/
def checkPlacedOrder : TurnOutcome :=
  let calls := [.getOrderStatus o.brokerOrderId]
  match t.broker.current with
  | .error _ => { row, calls, raised := true }
  | .ok r =>
    if r.status = o.row.status then { row, calls }
    else
      let deltaQty := max 0 (r.filledQuantity - o.row.filledQuantity)
      let deltaPrice := deltaFillPrice o.row.filledQuantity o.row.avgFillPrice
        r.filledQuantity r.avgFillPrice
      let fills := (r.status = .filled ∨ r.status = .partiallyFilled) ∧ 0 < deltaQty
      { row := (reconcileWrite r).undisturbed row
        calls
        credit := if fills then some (deltaQty, deltaPrice) else none
        stop := if fills ∧ o.WantsStop then some deltaQty else none }

/-- The body of the loop of `_reconcile_state` for the order `o` as it was listed. -/
def reconcileOrder (killSwitch : Bool) : TurnOutcome :=
  match o.row.status with
  | .ackUnknown => (recoverAckUnknownOrder t.broker o row).record
  | .pending =>
    if o.IsProtectiveOrder then placePendingProtectiveOrder o row t
    else if o.signalId = "" ∨ o.riskDecisionId = "" then
      { row := corruptPendingWrite.undisturbed row }
    else executeApprovedSignal o row t killSwitch
  | _ =>
    if o.brokerOrderId = "" then { row }
    else if o.IsPaperOrder then { row }
    else checkPlacedOrder o row t

end Turns

/-- `_cancel_one_open_order_for_kill_switch` on the order as it was listed: the status
write it makes, if any, and its broker call. `message` is the broker's answer to
`cancel_order`, none when the call fails for good. -/
def cancelOneOpenOrder (o : StoredOrder) (reason : String) (message : Option String) :
    Option StatusWrite × List BrokerCall :=
  if o.IsProtectiveOrder then (none, [])
  else if o.row.status = .pending ∧ o.brokerOrderId = "" then
    (some (cancelLocalWrite o.row reason), [])
  else if o.brokerOrderId = "" then (none, [])
  else (message.map (cancelAtBrokerWrite o.row reason), [.cancelOrder o.brokerOrderId])

/-- The row after the pass has gone over the order. -/
def cancelledRow (o : StoredOrder) (reason : String) (message : Option String)
    (row : OrderRow) : OrderRow :=
  ((cancelOneOpenOrder o reason message).1.map fun w => w.undisturbed row).getD row

theorem visible_eq_some {f : Except String (Option OrderResponse)} {r : OrderResponse}
    (h : visible f = some r) : f = .ok (some r) ∧ r.brokerOrderId ≠ "" := by
  unfold visible at h
  split at h
  · split at h
    · cases h
    · cases h
      exact ⟨rfl, ‹_›⟩
  · cases h

@[simp] theorem Attempt.recordAndProtect_row (a : Attempt) (o : StoredOrder) :
    (a.recordAndProtect o).row = a.record.row := by
  unfold recordAndProtect
  split <;> rfl

/-! What a turn or a cancel pass keeps of a row: `P` survives every status write whose
broker order id satisfies `Q`. -/
section Keeps
variable {P : OrderRow → Prop} {Q : String → Prop} {b : BrokerAnswers} {o : StoredOrder}
  {row : OrderRow} {t : Turn} {killSwitch : Bool} {reason : String}

theorem place_gives {r : OrderResponse}
    (h : (placeOrderWithBrokerIdempotency b reason o row).response = some r) : b.Gives r := by
  unfold placeOrderWithBrokerIdempotency at h
  split at h
  · cases h
  · split at h
    · rename_i hvis
      cases h
      exact Or.inl hvis
    · split at h
      · rename_i hp
        cases h
        exact Or.inr (Or.inl hp)
      · cases h
      · exact Or.inr (Or.inr h)

section
variable (hP : ∀ row (w : StatusWrite), P row → (∀ id, w.brokerOrderId = some id → Q id) →
  P (w.undisturbed row))
include hP

theorem place_keeps (h : P row) : P (placeOrderWithBrokerIdempotency b reason o row).row := by
  unfold placeOrderWithBrokerIdempotency
  split
  · exact h
  · split
    · exact h
    · split
      · exact h
      · exact hP _ _ h nofun
      · exact hP _ _ h nofun

theorem Attempt.record_keeps {a : Attempt} (ha : ∀ r, a.response = some r → Q r.brokerOrderId)
    (h : P a.row) : P a.record.row := by
  unfold record
  split
  · exact h
  · rename_i r hr
    refine hP _ _ h fun id hid => ?_
    cases hid
    exact ha r hr

theorem execute_keeps (hQ : ∀ r, t.broker.Gives r → Q r.brokerOrderId) (h : P row) :
    P (executeApprovedSignal o row t killSwitch).row := by
  unfold executeApprovedSignal
  split_ifs
  · exact h
  · exact h
  · exact h
  · split
    · rw [Attempt.recordAndProtect_row]
      exact Attempt.record_keeps hP (fun r hr => hQ r (place_gives hr)) (place_keeps hP h)
    · rw [Attempt.recordAndProtect_row]
      exact Attempt.record_keeps hP (fun r hr => hQ r (Or.inr (Or.inr hr))) h
    · exact h

theorem placePending_keeps (hQ : ∀ r, t.broker.Gives r → Q r.brokerOrderId) (h : P row) :
    P (placePendingProtectiveOrder o row t).row := by
  unfold placePendingProtectiveOrder
  split_ifs
  · exact h
  · exact h
  · exact Attempt.record_keeps hP (fun r hr => hQ r (place_gives hr)) (place_keeps hP h)

theorem checkPlaced_keeps (h : P row) : P (checkPlacedOrder o row t).row := by
  unfold checkPlacedOrder
  split
  · exact h
  · dsimp only
    split
    · exact h
    · exact hP _ _ h nofun

theorem reconcileOrder_keeps (hQ : ∀ r, t.broker.Gives r → Q r.brokerOrderId) (h : P row) :
    P (reconcileOrder o row t killSwitch).row := by
  unfold reconcileOrder
  split
  · exact Attempt.record_keeps hP (fun r hr => hQ r (Or.inr (Or.inr hr))) h
  · split_ifs
    · exact placePending_keeps hP hQ h
    · exact hP _ _ h nofun
    · exact execute_keeps hP hQ h
  · split_ifs
    · exact h
    · exact h
    · exact checkPlaced_keeps hP h

theorem cancelledRow_keeps {message : Option String} (h : P row) :
    P (cancelledRow o reason message row) := by
  unfold cancelledRow cancelOneOpenOrder
  split_ifs
  · exact h
  · exact hP _ _ h nofun
  · exact h
  · cases message with
    | none => exact h
    | some m => exact hP _ _ h nofun

end
end Keeps

/-- `get_open_orders` -/
def StoredOrder.Open (o : StoredOrder) : Prop :=
  ¬ o.row.status.Terminal ∧ o.row.status ≠ .flattening

instance (o : StoredOrder) : Decidable o.Open := inferInstanceAs (Decidable (_ ∧ _))

/-- The orders table, the kill-switch flag, the positions table and the broker calls. -/
structure Engine where
  orders : List StoredOrder
  killSwitch : Bool
  positions : String → PositionRow
  calls : List BrokerCall

/-- A turn of the loop, or an activation of the kill switch: a durable one seen at the
start of a turn, or a protective stop that could not be confirmed at its end. -/
inductive PassEvent where
  | turn (o : StoredOrder) (t : Turn)
  | activate (reason : String) (messages : String → Option String)

namespace Engine

/-- The row of the order `o` of the listing as it is now. -/
def rowOf (e : Engine) (o : StoredOrder) : OrderRow :=
  ((e.orders.find? fun x => x.orderId = o.orderId).map StoredOrder.row).getD o.row

def setRow (e : Engine) (orderId : String) (row : OrderRow) : Engine :=
  { e with orders := e.orders.map fun x => if x.orderId = orderId then { x with row } else x }

/-- The fill a turn credits the position with. -/
def creditFill (o : StoredOrder) (t : Turn) (credit : ℚ × ℚ) : Fill where
  symbol := o.symbol
  side := o.side
  quantity := credit.1
  price := credit.2
  lastPrice := credit.2
  market := some o.market
  now := t.stamp

def apply (e : Engine) (o : StoredOrder) (t : Turn) (out : TurnOutcome) : Engine :=
  { e.setRow o.orderId out.row with
    positions := match out.credit with
      | none => e.positions
      | some c => Function.update e.positions o.symbol
          (applyFillToPosition (e.positions o.symbol) (creditFill o t c))
    calls := e.calls ++ out.calls }

def cancelPass (e : Engine) (reason : String) (messages : String → Option String) : Engine :=
  { e with
    orders := e.orders.map fun o =>
      if o.Open then { o with row := cancelledRow o reason (messages o.orderId) o.row } else o
    killSwitch := true
    calls := e.calls ++ (e.orders.filter fun o => o.Open).flatMap fun o =>
      (cancelOneOpenOrder o reason (messages o.orderId)).2 }

def step (e : Engine) : PassEvent → Engine
  | .turn o t => e.apply o t (reconcileOrder o (e.rowOf o) t e.killSwitch)
  | .activate reason messages => e.cancelPass reason messages

end Engine

namespace Engine
variable {e : Engine} {o o' : StoredOrder} {row : OrderRow}

/-- The table has the order `o` with this row now. -/
def Holds (e : Engine) (o : StoredOrder) (row : OrderRow) : Prop :=
  e.orders.find? (fun x => x.orderId = o.orderId) = some { o with row }

theorem Holds.rowOf (h : e.Holds o row) : e.rowOf o = row := by
  rw [Holds] at h
  simp [Engine.rowOf, h]

theorem holds_of_mem (hids : (e.orders.map StoredOrder.orderId).Nodup) (ho : o ∈ e.orders) :
    e.Holds o o.row := by
  rw [Holds]
  generalize e.orders = os at hids ho ⊢
  induction os with
  | nil => cases ho
  | cons x os ih =>
    rw [List.map_cons, List.nodup_cons] at hids
    obtain rfl | ho := List.mem_cons.mp ho
    · rw [List.find?_cons_of_pos (by simp)]
    · have hx : x.orderId ≠ o.orderId := by
        intro he
        exact hids.1 (he ▸ List.mem_map_of_mem ho)
      rw [List.find?_cons_of_neg (by simpa using hx)]
      exact ih hids.2 ho

/-- Rows change in place. -/
theorem find?_map_row (os : List StoredOrder) (f : StoredOrder → StoredOrder)
    (hf : ∀ x, (f x).orderId = x.orderId) (orderId : String) :
    (os.map f).find? (fun x => x.orderId = orderId) =
      (os.find? fun x => x.orderId = orderId).map f := by
  rw [List.find?_map]
  congr 1
  congr 1
  funext x
  simp [hf x]

theorem Holds.setRow (h : e.Holds o row) (orderId : String) (new : OrderRow) :
    (e.setRow orderId new).Holds o (if o.orderId = orderId then new else row) := by
  rw [Holds] at h ⊢
  rw [Engine.setRow, find?_map_row _ _ (fun x => by split <;> rfl), h, Option.map_some]
  by_cases ho : o.orderId = orderId <;> simp [ho]

theorem Holds.turn (h : e.Holds o row) (t : Turn) :
    (e.step (.turn o t)).Holds o (reconcileOrder o row t e.killSwitch).row := by
  have hset := h.setRow o.orderId (reconcileOrder o row t e.killSwitch).row
  rw [if_pos rfl] at hset
  rw [step, h.rowOf]
  exact hset

theorem Holds.turn_other (h : e.Holds o row) (hne : o.orderId ≠ o'.orderId) (t : Turn) :
    (e.step (.turn o' t)).Holds o row := by
  have hset := h.setRow o'.orderId (reconcileOrder o' (e.rowOf o') t e.killSwitch).row
  rw [if_neg hne] at hset
  exact hset

theorem Holds.activate (h : e.Holds o row) (reason : String)
    (messages : String → Option String) :
    (e.step (.activate reason messages)).Holds o
      (if ({ o with row } : StoredOrder).Open
        then cancelledRow { o with row } reason (messages o.orderId) row else row) := by
  rw [Holds] at h ⊢
  rw [step, cancelPass, find?_map_row _ _ (fun x => by split <;> rfl), h, Option.map_some]
  split <;> rfl

@[simp] theorem step_turn_killSwitch (t : Turn) :
    (e.step (.turn o t)).killSwitch = e.killSwitch := rfl

@[simp] theorem step_activate_killSwitch (reason : String) (messages : String → Option String) :
    (e.step (.activate reason messages)).killSwitch = true := rfl

end Engine

def PassEvent.turn? : PassEvent → Option (StoredOrder × Turn)
  | .turn o t => some (o, t)
  | .activate _ _ => none

/-- The turns of a pass, in order. -/
def turns (evs : List PassEvent) : List (StoredOrder × Turn) := evs.filterMap PassEvent.turn?

theorem mem_turns {evs : List PassEvent} {o : StoredOrder} {t : Turn} :
    (o, t) ∈ turns evs ↔ PassEvent.turn o t ∈ evs := by
  rw [turns, List.mem_filterMap]
  constructor
  · rintro ⟨ev, hev, h⟩
    cases ev with
    | turn o' t' =>
      cases h
      exact hev
    | activate => cases h
  · exact fun h => ⟨_, h, rfl⟩

/-- A reconciliation of the table `e`: every open order has its turn, and no order has two
rows. -/
structure IsPass (e : Engine) (evs : List PassEvent) : Prop where
  ids : (e.orders.map StoredOrder.orderId).Nodup
  listed : ((turns evs).map Prod.fst).Perm (e.orders.filter fun o => o.Open)

namespace IsPass
variable {e : Engine} {evs : List PassEvent} {o o' : StoredOrder} {t : Turn}

theorem mem_orders (h : IsPass e evs) (ht : .turn o t ∈ evs) : o ∈ e.orders := by
  have hmem : o ∈ (turns evs).map Prod.fst := List.mem_map_of_mem (mem_turns.mpr ht)
  exact (List.mem_filter.mp (h.listed.mem_iff.mp hmem)).1

theorem exists_turn (h : IsPass e evs) (ho : o ∈ e.orders) (hopen : o.Open) :
    ∃ t, .turn o t ∈ evs := by
  have hmem := h.listed.mem_iff.mpr (List.mem_filter.mpr ⟨ho, by simpa using hopen⟩)
  obtain ⟨⟨o', t⟩, hx, rfl⟩ := List.mem_map.mp hmem
  exact ⟨t, mem_turns.mp hx⟩

/-- Turns are told apart by the order id. -/
theorem eq_of_orderId (h : IsPass e evs) (ho : o ∈ e.orders) (ht : .turn o' t ∈ evs)
    (hid : o.orderId = o'.orderId) : o = o' :=
  List.inj_on_of_nodup_map h.ids ho (h.mem_orders ht) hid

end IsPass
end QuantEmbrace
