import QuantEmbrace.Reconciliation
import QuantEmbrace.Lib.GuardedRun

/-! Paper orders among live ones: the rows a simulated order leaves at each stage, and
what startup reconciliation and the kill-switch pass do when they are shown one. -/
namespace QuantEmbrace
open GuardedRun
open OrderStatus (isValidStatusTransition)
open StoredOrder (PaperId)

/-- A broker method is given a paper order or a paper identifier. -/
def BrokerCall.AboutPaper : BrokerCall → Prop
  | .findOrderByClientOrderId o | .placeOrder o => o.IsPaperOrder
  | .getOrderStatus brokerOrderId | .cancelOrder brokerOrderId => PaperId brokerOrderId

/-- The call is made for the order `o`. -/
def BrokerCall.For (o : StoredOrder) : BrokerCall → Prop
  | .findOrderByClientOrderId x | .placeOrder x => x = o
  | .getOrderStatus brokerOrderId | .cancelOrder brokerOrderId => brokerOrderId = o.brokerOrderId

/-- What `_handle_paper_order` hands to `submit_order`. -/
structure StoredOrder.PaperRequest (o : StoredOrder) : Prop where
  orderId : PaperId o.orderId
  paperTrade : o.metadata.paperTrade = true
  plain : ¬ o.IsProtectiveOrder
  row : o.row = .reserved

/-- The orders table, all rows it ever had (the open orders come from an index), and the
calls of broker methods. -/
structure OrderBook where
  table : String → Option StoredOrder
  past : List StoredOrder
  calls : List BrokerCall

inductive BookEvent where
  | submitPaper (o : StoredOrder)
  | recordPaper (o : StoredOrder) (r : OrderResponse)
  | submitLive (o : StoredOrder)
  | writeLive (o : StoredOrder) (w : StatusWrite)
  | callLive (c : BrokerCall)
  | reconcile (o : StoredOrder) (t : Turn) (killSwitch : Bool)
  | cancel (o : StoredOrder) (reason : String) (message : Option String)

namespace OrderBook

def start : OrderBook := ⟨fun _ => none, [], []⟩

def put (b : OrderBook) (o : StoredOrder) : OrderBook :=
  { b with table := Function.update b.table o.orderId (some o), past := o :: b.past }

def call (b : OrderBook) (cs : List BrokerCall) : OrderBook := { b with calls := b.calls ++ cs }

/- A crash changes nothing here: the process may stop between any two events. The paper
   handler asks no broker, on redelivery either, and the poller asks for all orders
   without an id and meets those the broker knows: their writes are `writeLive`. No broker
   issues an id of the simulator's form. -/
inductive Step : OrderBook → BookEvent → OrderBook → Prop
  | submitPaper {b : OrderBook} {o : StoredOrder} : b.table o.orderId = none → o.PaperRequest →
      Step b (.submitPaper o) (b.put o)
  | recordPaper {b : OrderBook} {o : StoredOrder} {r : OrderResponse} :
      b.table o.orderId = some o → o.IsPaperOrder → r.brokerOrderId = o.orderId →
      r.status = .filled ∨ r.status = .partiallyFilled ∨ r.status = .rejected →
      Step b (.recordPaper o r) (b.put { o with row := (recordOrder r).undisturbed o.row })
  | submitLive {b : OrderBook} {o : StoredOrder} : b.table o.orderId = none →
      ¬ o.IsPaperOrder → Step b (.submitLive o) (b.put o)
  | writeLive {b : OrderBook} {o : StoredOrder} {w : StatusWrite} :
      b.table o.orderId = some o → ¬ o.IsPaperOrder →
      (∀ id, w.brokerOrderId = some id → ¬ PaperId id) →
      Step b (.writeLive o w) (b.put { o with row := w.undisturbed o.row })
  | callLive {b : OrderBook} {o : StoredOrder} {c : BrokerCall} : o ∈ b.past →
      ¬ o.IsPaperOrder → c.For o → Step b (.callLive c) (b.call [c])
  | reconcile {b : OrderBook} {o cur : StoredOrder} {t : Turn} {killSwitch : Bool} :
      o ∈ b.past → o.Open → b.table o.orderId = some cur →
      (∀ r, t.broker.Gives r → ¬ PaperId r.brokerOrderId) →
      Step b (.reconcile o t killSwitch)
        ((b.put { cur with row := (reconcileOrder o cur.row t killSwitch).row }).call
          (reconcileOrder o cur.row t killSwitch).calls)
  | cancel {b : OrderBook} {o cur : StoredOrder} {reason : String} {message : Option String} :
      o ∈ b.past → o.Open → b.table o.orderId = some cur →
      Step b (.cancel o reason message)
        ((b.put { cur with row := cancelledRow o reason message cur.row }).call
          (cancelOneOpenOrder o reason message).2)

/-- The retry of a PENDING entry that finds the row `row` gets to the broker. -/
def Retries (o : StoredOrder) (row : OrderRow) (t : Turn) (killSwitch : Bool) : Prop :=
  o.row.status = .pending ∧ row.status = .pending ∧
    (o.signalId ≠ "" ∧ o.riskDecisionId ≠ "") ∧
    (∀ x, o.metadata.expiresAt = some x → t.now ≤ x) ∧ killSwitch = false ∧ t.approved = true

/-- A reconciliation is not shown a PENDING paper row whose retry gets to the broker, and
a kill-switch pass is not shown a paper row with its identifier. -/
def Shielded (b : OrderBook) : BookEvent → Prop
  | .reconcile o t killSwitch => o.IsPaperOrder →
    ∀ cur, b.table o.orderId = some cur → ¬ Retries o cur.row t killSwitch
  | .cancel o _ _ => o.IsPaperOrder → o.brokerOrderId = ""
  | _ => True

end OrderBook

/-! Calls are made for the order at hand. -/
section Calls
variable {o : StoredOrder} {row : OrderRow} {t : Turn} {killSwitch : Bool}

theorem BrokerCall.For.not_aboutPaper {c : BrokerCall} (h : c.For o) (ho : ¬ o.IsPaperOrder) :
    ¬ c.AboutPaper := by
  cases c with
  | findOrderByClientOrderId x | placeOrder x =>
    obtain rfl : x = o := h
    exact ho
  | getOrderStatus id | cancelOrder id =>
    obtain rfl : id = o.brokerOrderId := h
    exact fun hp => ho (Or.inl hp)

theorem place_calls {b : BrokerAnswers} {reason : String} :
    ∀ c ∈ (placeOrderWithBrokerIdempotency b reason o row).calls, c.For o := by
  intro c hc
  unfold placeOrderWithBrokerIdempotency at hc
  have hfind : BrokerCall.For o (.findOrderByClientOrderId o) := rfl
  have hplace : BrokerCall.For o (.placeOrder o) := rfl
  split at hc
  · simp_all
  · split at hc
    · simp_all
    · split at hc
      · simp only [List.mem_cons, List.not_mem_nil, or_false] at hc
        obtain rfl | rfl := hc
        · exact hfind
        · exact hplace
      · simp only [List.mem_cons, List.not_mem_nil, or_false] at hc
        obtain rfl | rfl := hc
        · exact hfind
        · exact hplace
      · simp only [recoverAckUnknownOrder, List.mem_append, List.mem_cons, List.not_mem_nil,
          or_false] at hc
        obtain (rfl | rfl) | rfl := hc
        · exact hfind
        · exact hplace
        · exact hfind

theorem recover_calls {b : BrokerAnswers} :
    ∀ c ∈ (recoverAckUnknownOrder b o row).calls, c.For o := by
  intro c hc
  obtain rfl := List.mem_singleton.mp hc
  rfl

@[simp] theorem Attempt.record_calls (a : Attempt) : a.record.calls = a.calls := by
  unfold record
  split <;> rfl

@[simp] theorem Attempt.recordAndProtect_calls (a : Attempt) (o : StoredOrder) :
    (a.recordAndProtect o).calls = a.calls := by
  unfold recordAndProtect
  split
  · exact a.record_calls
  · exact a.record_calls

theorem execute_calls : ∀ c ∈ (executeApprovedSignal o row t killSwitch).calls, c.For o := by
  intro c hc
  unfold executeApprovedSignal at hc
  split_ifs at hc
  · cases hc
  · cases hc
  · cases hc
  · split at hc
    · rw [Attempt.recordAndProtect_calls] at hc
      exact place_calls c hc
    · rw [Attempt.recordAndProtect_calls] at hc
      exact recover_calls c hc
    · cases hc

theorem placePending_calls : ∀ c ∈ (placePendingProtectiveOrder o row t).calls, c.For o := by
  intro c hc
  unfold placePendingProtectiveOrder at hc
  split_ifs at hc
  · cases hc
  · cases hc
  · rw [Attempt.record_calls] at hc
    exact place_calls c hc

theorem checkPlaced_calls : ∀ c ∈ (checkPlacedOrder o row t).calls, c.For o := by
  intro c hc
  have hall : (checkPlacedOrder o row t).calls = [.getOrderStatus o.brokerOrderId] := by
    unfold checkPlacedOrder
    split
    · rfl
    · dsimp only
      split <;> rfl
  rw [hall] at hc
  obtain rfl := List.mem_singleton.mp hc
  rfl

theorem reconcileOrder_calls : ∀ c ∈ (reconcileOrder o row t killSwitch).calls, c.For o := by
  intro c hc
  unfold reconcileOrder at hc
  split at hc
  · rw [Attempt.record_calls] at hc
    exact recover_calls c hc
  · split_ifs at hc
    · exact placePending_calls c hc
    · cases hc
    · exact execute_calls c hc
  · split_ifs at hc
    · cases hc
    · cases hc
    · exact checkPlaced_calls c hc

theorem cancelOneOpenOrder_calls {reason : String} {message : Option String} :
    ∀ c ∈ (cancelOneOpenOrder o reason message).2,
      c = .cancelOrder o.brokerOrderId ∧ o.brokerOrderId ≠ "" := by
  intro c hc
  unfold cancelOneOpenOrder at hc
  split_ifs at hc
  · cases hc
  · cases hc
  · cases hc
  · exact ⟨List.mem_singleton.mp hc, ‹_›⟩

end Calls

namespace StoredOrder
variable {o : StoredOrder} {row : OrderRow} {t : Turn} {killSwitch : Bool}

/-- A paper row is told by its id, is not protective and never awaits an answer. -/
structure Isolated (o : StoredOrder) : Prop where
  paperId : o.IsPaperOrder → PaperId o.orderId
  plain : o.IsPaperOrder → ¬ o.IsProtectiveOrder
  answered : o.IsPaperOrder → o.row.status ≠ .ackUnknown

theorem brokerOrderId_isPaper (h : ¬ o.IsPaperOrder) : ¬ PaperId o.brokerOrderId :=
  fun hp => h (Or.inl hp)

/-- Whether an order is simulated does not depend on its row, once its id tells. -/
theorem isPaper_of_orderId (h : PaperId o.orderId) (row : OrderRow) :
    ({ o with row } : StoredOrder).IsPaperOrder := Or.inr (Or.inr h)

theorem Isolated.congr {x : StoredOrder} (ho : o.Isolated) (hx : x.Isolated)
    (hid : x.orderId = o.orderId) : o.IsPaperOrder ↔ x.IsPaperOrder := by
  constructor
  · exact fun h => isPaper_of_orderId (hid ▸ ho.paperId h) x.row
  · exact fun h => isPaper_of_orderId (hid ▸ hx.paperId h) o.row

/-- A live order stays one when its row gets no paper identifier. -/
theorem not_isPaper_of_row (h : ¬ o.IsPaperOrder) (hrow : ¬ PaperId (row.brokerOrderId.getD "")) :
    ¬ ({ o with row } : StoredOrder).IsPaperOrder := by
  rintro (hp | hp | hp)
  · exact hrow hp
  · exact h (Or.inr (Or.inl hp))
  · exact h (Or.inr (Or.inr hp))

theorem isolated_of_not_paper (h : ¬ o.IsPaperOrder) : o.Isolated :=
  ⟨fun hp => absurd hp h, fun hp => absurd hp h, fun hp => absurd hp h⟩

theorem Isolated.setRow (h : o.Isolated) (hp : o.IsPaperOrder) (hrow : row.status ≠ .ackUnknown) :
    ({ o with row } : StoredOrder).Isolated :=
  ⟨fun _ => h.paperId hp, fun _ => h.plain hp, fun _ => hrow⟩

theorem PaperRequest.isolated (h : o.PaperRequest) : o.Isolated := by
  refine ⟨fun _ => h.orderId, fun _ => h.plain, fun _ => ?_⟩
  rw [h.row]
  decide

theorem undisturbed_answered {w : StatusWrite} (hw : w.newStatus ≠ .ackUnknown)
    (hrow : row.status ≠ .ackUnknown) : (w.undisturbed row).status ≠ .ackUnknown := by
  unfold StatusWrite.undisturbed
  split_ifs
  · exact hw
  · exact hrow

/-- Nothing is asked for a simulated order whose retry stops short. -/
theorem reconcileOrder_paper (h : o.Isolated) (hp : o.IsPaperOrder)
    (hrow : row.status ≠ .ackUnknown) (hr : ¬ OrderBook.Retries o row t killSwitch) :
    (reconcileOrder o row t killSwitch).calls = [] ∧
      (reconcileOrder o row t killSwitch).row.status ≠ .ackUnknown := by
  unfold reconcileOrder
  split
  · exact absurd ‹_› (h.answered hp)
  · rename_i hpending
    rw [if_neg (h.plain hp)]
    split_ifs with hids
    · exact ⟨rfl, undisturbed_answered (w := corruptPendingWrite) nofun hrow⟩
    · unfold executeApprovedSignal
      split_ifs with hexp hks happ
      · exact ⟨rfl, hrow⟩
      · exact ⟨rfl, hrow⟩
      · exact ⟨rfl, hrow⟩
      · split
        · rename_i hcur
          refine absurd ⟨hpending, hcur, not_or.mp hids, fun x hx => ?_, by simpa using hks,
            by simpa using happ⟩ hr
          exact not_lt.mp fun hlt => hexp ⟨x, hx, hlt⟩
        · exact absurd ‹_› hrow
        · exact ⟨rfl, hrow⟩
  · split_ifs
    · exact ⟨rfl, hrow⟩
    · exact ⟨rfl, hrow⟩

theorem cancelledRow_answered {reason : String} {message : Option String}
    (hrow : row.status ≠ .ackUnknown) :
    (cancelledRow o reason message row).status ≠ .ackUnknown := by
  have hcancel : OrderStatus.cancelled ≠ .ackUnknown := nofun
  unfold cancelledRow cancelOneOpenOrder
  split_ifs
  · exact hrow
  · exact undisturbed_answered hcancel hrow
  · exact hrow
  · cases message with
    | none => exact hrow
    | some m => exact undisturbed_answered hcancel hrow

end StoredOrder
namespace OrderBook
variable {b b' : OrderBook} {o cur : StoredOrder} {ev : BookEvent}

structure Apart (b : OrderBook) : Prop where
  keyed : ∀ id o, b.table id = some o → o.orderId = id
  listed : ∀ id o, b.table id = some o → o ∈ b.past
  isolated : ∀ o ∈ b.past, o.Isolated
  calls : ∀ c ∈ b.calls, ¬ c.AboutPaper

theorem start_apart : start.Apart where
  keyed _ _ h := nomatch h
  listed _ _ h := nomatch h
  isolated _ h := absurd h List.not_mem_nil
  calls _ h := absurd h List.not_mem_nil

theorem Apart.put (h : b.Apart) (ho : o.Isolated) : (b.put o).Apart where
  keyed := by
    intro id x hx
    by_cases hid : id = o.orderId
    · subst hid
      obtain rfl : o = x := by simpa [OrderBook.put] using hx
      rfl
    · exact h.keyed id x (by simpa [OrderBook.put, Function.update_of_ne hid] using hx)
  listed := by
    intro id x hx
    by_cases hid : id = o.orderId
    · subst hid
      obtain rfl : o = x := by simpa [OrderBook.put] using hx
      exact List.mem_cons_self
    · exact List.mem_cons_of_mem _
        (h.listed id x (by simpa [OrderBook.put, Function.update_of_ne hid] using hx))
  isolated := List.forall_mem_cons.mpr ⟨ho, h.isolated⟩
  calls := h.calls

theorem Apart.call (h : b.Apart) {cs : List BrokerCall} (hcs : ∀ c ∈ cs, ¬ c.AboutPaper) :
    (b.call cs).Apart :=
  ⟨h.keyed, h.listed, h.isolated, List.forall_mem_append.mpr ⟨h.calls, hcs⟩⟩

/-- The row now and the row as it was listed belong to one order. -/
theorem Apart.current (h : b.Apart) (ho : o ∈ b.past) (hcur : b.table o.orderId = some cur) :
    cur.Isolated ∧ (o.IsPaperOrder ↔ cur.IsPaperOrder) := by
  have hiso : cur.Isolated := h.isolated cur (h.listed _ _ hcur)
  exact ⟨hiso, (h.isolated o ho).congr hiso (h.keyed _ _ hcur)⟩

/-- Status writes that bring no paper identifier leave a live order live. -/
theorem live_keeps (row : OrderRow) (w : StatusWrite) (h : ¬ PaperId (row.brokerOrderId.getD ""))
    (hw : ∀ id, w.brokerOrderId = some id → ¬ PaperId id) :
    ¬ PaperId ((w.undisturbed row).brokerOrderId.getD "") := by
  unfold StatusWrite.undisturbed
  split_ifs
  · cases hid : w.brokerOrderId with
    | none => simpa [StatusWrite.set, hid] using h
    | some id => simpa [StatusWrite.set, hid] using hw id hid
  · exact h

theorem Apart.step (h : b.Apart) (hok : Shielded b ev) (hs : Step b ev b') : b'.Apart := by
  cases hs with
  | submitPaper _ ho => exact h.put ho.isolated
  | submitLive _ ho => exact h.put (StoredOrder.isolated_of_not_paper ho)
  | @recordPaper o r ho hp _ hstatus =>
    have hiso := h.isolated o (h.listed _ _ ho)
    refine h.put (hiso.setRow hp (StoredOrder.undisturbed_answered ?_ (hiso.answered hp)))
    change r.status ≠ .ackUnknown
    obtain hr | hr | hr := hstatus <;> rw [hr] <;> decide
  | writeLive _ ho hw =>
    exact h.put (StoredOrder.isolated_of_not_paper (StoredOrder.not_isPaper_of_row ho
      (live_keeps _ _ (StoredOrder.brokerOrderId_isPaper ho) hw)))
  | callLive _ ho hc =>
    refine h.call fun c hmem => ?_
    obtain rfl := List.mem_singleton.mp hmem
    exact hc.not_aboutPaper ho
  | @reconcile o cur t killSwitch ho _ hcur hgives =>
    obtain ⟨hiso, hiff⟩ := h.current ho hcur
    by_cases hp : o.IsPaperOrder
    · have hcp := hiff.mp hp
      obtain ⟨hcalls, hrow⟩ := StoredOrder.reconcileOrder_paper (h.isolated o ho) hp
        (hiso.answered hcp) (hok hp cur hcur)
      refine (h.put (hiso.setRow hcp hrow)).call ?_
      rw [hcalls]
      exact fun c hc => absurd hc List.not_mem_nil
    · have hlive : ¬ cur.IsPaperOrder := fun hcp => hp (hiff.mpr hcp)
      have hrow : ¬ PaperId ((reconcileOrder o cur.row t killSwitch).row.brokerOrderId.getD "") :=
        reconcileOrder_keeps live_keeps hgives (StoredOrder.brokerOrderId_isPaper hlive)
      refine (h.put (StoredOrder.isolated_of_not_paper
        (StoredOrder.not_isPaper_of_row hlive hrow))).call ?_
      exact fun c hc => (reconcileOrder_calls c hc).not_aboutPaper hp
  | @cancel o cur reason message ho _ hcur =>
    obtain ⟨hiso, hiff⟩ := h.current ho hcur
    by_cases hp : o.IsPaperOrder
    · have hcp := hiff.mp hp
      refine (h.put (hiso.setRow hcp
        (StoredOrder.cancelledRow_answered (hiso.answered hcp)))).call ?_
      exact fun c hc => absurd (hok hp) (cancelOneOpenOrder_calls c hc).2
    · have hlive : ¬ cur.IsPaperOrder := fun hcp => hp (hiff.mpr hcp)
      have hrow : ¬ PaperId ((cancelledRow o reason message cur.row).brokerOrderId.getD "") :=
        cancelledRow_keeps live_keeps (StoredOrder.brokerOrderId_isPaper hlive)
      refine (h.put (StoredOrder.isolated_of_not_paper
        (StoredOrder.not_isPaper_of_row hlive hrow))).call ?_
      intro c hc
      rw [(cancelOneOpenOrder_calls c hc).1]
      exact StoredOrder.brokerOrderId_isPaper hp

/-- While reconciliations and kill-switch passes meet paper rows only where they leave them
alone, no broker is given a paper order or a paper identifier. -/
theorem paper_never_reaches_broker (h : Reaches Step Shielded start b) :
    ∀ c ∈ b.calls, ¬ c.AboutPaper :=
  (h.invariant (fun _ _ _ hI hok hs => hI.step hok hs) start_apart).calls

/-- A simulated purchase as `_handle_paper_order` reserves it. -/
def simulatedOrder : StoredOrder where
  orderId := "PAPER-0123456789ABCDEF"
  signalId := "S1"
  riskDecisionId := "R1"
  symbol := "INFY"
  market := .nse
  side := .buy
  quantity := 10
  metadata := { paperTrade := true }
  row := .reserved

theorem simulatedOrder_request : simulatedOrder.PaperRequest :=
  ⟨by decide +kernel, rfl, by decide +kernel, rfl⟩

def acceptingBroker : BrokerAnswers :=
  ⟨.ok none, .accepted { brokerOrderId := "B1", status := .placed }, .ok none, .error "not asked"⟩

theorem acceptingBroker_gives {r : OrderResponse} (h : acceptingBroker.Gives r) :
    ¬ PaperId r.brokerOrderId := by
  obtain h | h | h := h
  · cases h
  · cases h
    decide +kernel
  · cases h

def partialResponse : OrderResponse :=
  { brokerOrderId := simulatedOrder.orderId, status := .partiallyFilled
    filledQuantity := 4, avgFillPrice := 100 }

def restartTurn : Turn := ⟨0, true, "t1", acceptingBroker⟩

/-- A partial simulated fill, recorded, is skipped at the next start. -/
theorem paper_never_reaches_broker_skipped :
    ∃ b : OrderBook, b.past.length = 3 ∧ ∀ c ∈ b.calls, ¬ c.AboutPaper := by
  let o : StoredOrder :=
    { simulatedOrder with row := (recordOrder partialResponse).undisturbed simulatedOrder.row }
  have h1 : Reaches Step Shielded start _ := Reaches.next .refl
    (e := .submitPaper simulatedOrder) trivial
    (.submitPaper (o := simulatedOrder) rfl simulatedOrder_request)
  have h2 : Reaches Step Shielded start _ := h1.next
    (e := .recordPaper simulatedOrder partialResponse) trivial
    (.recordPaper (o := simulatedOrder) (r := partialResponse)
      (by simp [put]) (by decide +kernel) rfl (Or.inr (Or.inl rfl)))
  have hcur : ((start.put simulatedOrder).put o).table o.orderId = some o := by simp [put]
  have h3 : Reaches Step Shielded start _ := h2.next
    (e := .reconcile o restartTurn false)
    (fun _ _ _ hr => OrderStatus.noConfusion hr.1)
    (.reconcile List.mem_cons_self (by decide +kernel) hcur fun _ => acceptingBroker_gives)
  exact ⟨_, rfl, paper_never_reaches_broker h3⟩

/-- A crash between the two writes of `_handle_paper_order`: the restart places the PENDING
row at the broker. -/
theorem stranded_paper_order_placed :
    ¬ ∀ b, Reaches Step (fun _ _ => True) start b → ∀ c ∈ b.calls, ¬ c.AboutPaper := by
  intro hall
  have h1 : Reaches Step (fun _ _ => True) start _ := Reaches.next .refl trivial
    (.submitPaper (o := simulatedOrder) rfl simulatedOrder_request)
  have hcur : (start.put simulatedOrder).table simulatedOrder.orderId = some simulatedOrder := by
    simp [put]
  have h2 : Reaches Step (fun _ _ => True) start _ := h1.next
    (e := .reconcile simulatedOrder restartTurn false) trivial
    (.reconcile List.mem_cons_self (by decide +kernel) hcur fun _ => acceptingBroker_gives)
  refine hall _ h2 (.placeOrder simulatedOrder) ?_ (by decide +kernel : simulatedOrder.IsPaperOrder)
  decide +kernel

end OrderBook

end QuantEmbrace
