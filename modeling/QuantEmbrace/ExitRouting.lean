import QuantEmbrace.ManagedPosition
import QuantEmbrace.MisSquareOff

/-! `ExitOrderRouter.route`: the exit lock is written, the exit is carried out in the mode of
the router, and some of the failures take the lock back. -/
namespace QuantEmbrace

inductive TradingMode where
  | paper | live | backtest
  deriving DecidableEq, Repr

/-- The router; the live broker is known by the parameters of its `place_order`. -/
structure ExitRouter where
  mode : TradingMode
  liveEnabled : Bool
  orderManager : Bool
  zerodha : Option Signature

/-- A conditional write is answered, or raises with or without having been carried out. -/
inductive StoreAnswer where
  | answered
  | raised (applied : Bool)
  deriving DecidableEq, Repr

def StoreAnswer.applied : StoreAnswer → Bool
  | answered => true
  | raised applied => applied

/- `apply_fill_to_position` answers False for an error of its own requests, whether or not
   the fill had been written by then. -/
inductive FillAnswer where
  | returned (success applied : Bool)
  | raised
  deriving DecidableEq, Repr

/- `place_order` returns only what the broker has accepted. -/
inductive BrokerAnswer where
  | accepted
  | timeout
  | raised (maybeSent : Bool)
  deriving DecidableEq, Repr

/-- The answers of the requests that one call may make. -/
structure RouteAnswers where
  lock : StoreAnswer
  fill : FillAnswer
  placed : BrokerAnswer
  release : StoreAnswer

/-- What `route` returns and leaves, whether the closing fill is on the row, and the answer of
the broker if it was asked. -/
structure Routed where
  returned : Bool
  row : ManagedRow
  filled : Bool := false
  broker : Option BrokerAnswer := none

namespace ExitOrderRequest

/-- The paper fill of the request. -/
def closeFill (request : ExitOrderRequest) (now : String) : Fill where
  symbol := request.symbol
  side := request.closeSide
  quantity := request.closeQty
  price := request.exitPrice.getD request.avgEntryPrice
  lastPrice := request.exitPrice.getD request.avgEntryPrice
  market := if request.market = "NSE" then some .nse else some .us
  now

end ExitOrderRequest

/-- The keywords of the call in `_route_live`. -/
def routeLiveKeywords : List String :=
  ["symbol", "side", "quantity", "product_type", "order_type", "tag"]

/-- `ZerodhaBrokerClient.place_order(self, order)` -/
def zerodhaPlaceOrderSignature : Signature where
  required := ["order"]
  optional := []

section Route
variable (router : ExitRouter) (answers : RouteAnswers) (now : String)
  (request : ExitOrderRequest) (row : ManagedRow)

/-- `_release_exit_lock`; an error is logged. -/
def releaseExitLock : ManagedRow :=
  if answers.release.applied then row.releaseExitLock request.exitId else row

def routePaper : Routed :=
  if router.orderManager then
    match answers.fill with
    | .returned _ applied =>
      { returned := true
        row := if applied then row.applyFill (request.closeFill now) else row
        filled := applied }
    | .raised => { returned := false, row }
  else { returned := true, row }

def routeLive : Routed :=
  match router.zerodha with
  | none => { returned := false, row := releaseExitLock answers request row }
  | some placeOrder =>
    match placeOrder.bind routeLiveKeywords with
    | .error _ => { returned := false, row := releaseExitLock answers request row }
    | .ok _ =>
      match answers.placed with
      | .accepted => { returned := true, row, broker := some .accepted }
      | .timeout => { returned := false, row, broker := some .timeout }
      | .raised maybeSent =>
        { returned := false
          row := releaseExitLock answers request row
          broker := some (.raised maybeSent) }

def route : Routed :=
  if router.mode = .live ∧ router.liveEnabled = false then { returned := false, row }
  else
    let locked := row.acquireExitLock request.exitId request.triggerType request.isKillSwitch
    match answers.lock with
    | .raised applied => { returned := false, row := if applied then locked else row }
    | .answered =>
      if row.exitLockFree request.isKillSwitch then
        match router.mode with
        | .paper => routePaper router answers now request locked
        | .live => routeLive router answers request locked
        | .backtest => { returned := true, row := locked }
      else { returned := false, row }

end Route

/-- The exit is carried out; a backtest only hands the simulated fill on. -/
def Routed.CarriedOut (r : Routed) : TradingMode → Prop
  | .paper => r.filled = true
  | .live => r.broker = some .accepted
  | .backtest => True

/-- True and carried out, or False with the exit id of before; while a broker call of unknown
outcome keeps the lock. -/
def Routed.Atomic (r : Routed) (mode : TradingMode) (request : ExitOrderRequest)
    (before : ManagedRow) : Prop :=
  match r.broker with
  | some .timeout | some (.raised true) =>
    r.returned = false ∧ r.row.exitOrderId = some request.exitId
  | _ =>
    (r.returned = true ∧ r.CarriedOut mode) ∨
      (r.returned = false ∧ r.row.exitOrderId = before.exitOrderId)

/-- The exit id that is left when the lock was taken and is given back. -/
def idAfterRelease (answers : RouteAnswers) (request : ExitOrderRequest) : Option String :=
  if answers.release.applied then none else some request.exitId

/-- The broker client takes the call of `_route_live`. -/
def ExitRouter.CanPlace (router : ExitRouter) : Prop :=
  ∃ placeOrder, router.zerodha = some placeOrder ∧ placeOrder.bind routeLiveKeywords = .ok ()

/-- The exit is not blocked beforehand, and the row admits the lock. -/
def ExitRouter.Admits (router : ExitRouter) (request : ExitOrderRequest) (row : ManagedRow) :
    Prop :=
  ¬ (router.mode = .live ∧ router.liveEnabled = false) ∧
    row.exitLockFree request.isKillSwitch = true

/-- In paper mode the fill is applied; where the call raises, the id was there before. -/
def PaperSafe (router : ExitRouter) (answers : RouteAnswers) (request : ExitOrderRequest)
    (row : ManagedRow) : Prop :=
  router.orderManager = true ∧
    match answers.fill with
    | .returned _ applied => applied = true
    | .raised => row.exitOrderId = some request.exitId

/-- In live mode a lock is given back to where it was taken from, and it is not given back
while an order may be out. -/
def LiveSafe (router : ExitRouter) (answers : RouteAnswers) (request : ExitOrderRequest)
    (row : ManagedRow) : Prop :=
  (router.CanPlace → answers.placed = .raised true → answers.release.applied = false) ∧
  (¬ router.CanPlace ∨ answers.placed = .raised false →
    row.exitOrderId = idAfterRelease answers request)

/-- The answers after which nothing is left half done. -/
def RouteSafe (router : ExitRouter) (answers : RouteAnswers) (request : ExitOrderRequest)
    (row : ManagedRow) : Prop :=
  match answers.lock with
  | .raised applied => applied = true → row.exitOrderId = some request.exitId
  | .answered =>
    match router.mode with
    | .paper => PaperSafe router answers request row
    | .live => LiveSafe router answers request row
    | .backtest => True

section Modes
variable {router : ExitRouter} {answers : RouteAnswers} {now : String}
  {request : ExitOrderRequest} {row before : ManagedRow}

theorem acquireExitLock_id (exitId : String) (trigger : ExitTriggerType) {isKillSwitch : Bool}
    (h : row.exitLockFree isKillSwitch = true) :
    (row.acquireExitLock exitId trigger isKillSwitch).exitOrderId = some exitId := by
  rw [ManagedRow.acquireExitLock, if_pos h]

theorem releaseExitLock_id (answers : RouteAnswers) (h : row.exitOrderId = some request.exitId) :
    (releaseExitLock answers request row).exitOrderId = idAfterRelease answers request := by
  unfold releaseExitLock idAfterRelease
  split
  · rw [ManagedRow.releaseExitLock, if_pos h]
  · exact h

/-- An exit that fails, with no broker call in doubt, leaves the id of before. -/
theorem atomic_failed_iff {mode : TradingMode} {filled : Bool} {broker : Option BrokerAnswer}
    (hb : broker = none ∨ broker = some (.raised false)) :
    (⟨false, row, filled, broker⟩ : Routed).Atomic mode request before ↔
      before.exitOrderId = row.exitOrderId := by
  obtain rfl | rfl := hb
  · simp only [Routed.Atomic, Bool.false_eq_true, false_and, false_or, true_and]
    exact eq_comm
  · simp only [Routed.Atomic, Bool.false_eq_true, false_and, false_or, true_and]
    exact eq_comm

theorem routePaper_atomic_iff (h : row.exitOrderId = some request.exitId) :
    (routePaper router answers now request row).Atomic .paper request before ↔
      PaperSafe router answers request before := by
  unfold routePaper PaperSafe
  cases router.orderManager with
  | false => simp [Routed.Atomic, Routed.CarriedOut]
  | true =>
    cases answers.fill with
    | returned success applied => simp [Routed.Atomic, Routed.CarriedOut]
    | raised =>
      simp only [if_true, true_and]
      rw [atomic_failed_iff (Or.inl rfl), h]

theorem canPlace_of_some {placeOrder : Signature} (hz : router.zerodha = some placeOrder) :
    router.CanPlace ↔ placeOrder.bind routeLiveKeywords = .ok () := by
  simp [ExitRouter.CanPlace, hz]

/-- Nothing reaches the broker: the lock is given back at once. -/
theorem routeLive_unplaced (hc : ¬ router.CanPlace) :
    routeLive router answers request row =
      { returned := false, row := releaseExitLock answers request row } := by
  unfold routeLive
  cases hz : router.zerodha with
  | none => rfl
  | some placeOrder =>
    rw [canPlace_of_some hz] at hc
    cases hb : placeOrder.bind routeLiveKeywords with
    | error e => simp [hb]
    | ok u => exact absurd hb hc

theorem routeLive_placed (hc : router.CanPlace) :
    routeLive router answers request row =
      match answers.placed with
      | .accepted => { returned := true, row, broker := some .accepted }
      | .timeout => { returned := false, row, broker := some .timeout }
      | .raised maybeSent =>
        { returned := false
          row := releaseExitLock answers request row
          broker := some (.raised maybeSent) } := by
  obtain ⟨placeOrder, hz, hb⟩ := hc
  simp only [routeLive, hz, hb]

theorem routeLive_atomic_iff (h : row.exitOrderId = some request.exitId) :
    (routeLive router answers request row).Atomic .live request before ↔
      LiveSafe router answers request before := by
  have hid := releaseExitLock_id answers h
  by_cases hc : router.CanPlace
  · rw [routeLive_placed hc]
    cases hplaced : answers.placed with
    | accepted => simp [Routed.Atomic, Routed.CarriedOut, LiveSafe, hc, hplaced]
    | timeout => simp [Routed.Atomic, h, LiveSafe, hc, hplaced]
    | raised maybeSent =>
      cases maybeSent with
      | true =>
        simp only [Routed.Atomic, LiveSafe, hc, hplaced, hid, true_and, true_implies, not_true,
          false_or]
        unfold idAfterRelease
        cases answers.release.applied <;> simp
      | false =>
        simp only
        rw [atomic_failed_iff (Or.inr rfl), hid]
        simp [LiveSafe, hc, hplaced]
  · rw [routeLive_unplaced hc, atomic_failed_iff (Or.inl rfl), hid]
    simp [LiveSafe, hc]

end Modes

/-- Routing is atomic exactly for an exit that is not admitted, or whose answers are safe. -/
theorem exit_route_atomic_iff (router : ExitRouter) (answers : RouteAnswers) (now : String)
    (request : ExitOrderRequest) (row : ManagedRow) :
    (route router answers now request row).Atomic router.mode request row ↔
      (router.Admits request row → RouteSafe router answers request row) := by
  unfold route ExitRouter.Admits
  by_cases hgate : router.mode = .live ∧ router.liveEnabled = false
  · rw [if_pos hgate]
    simp [Routed.Atomic, hgate]
  · rw [if_neg hgate]
    cases hfree : row.exitLockFree request.isKillSwitch with
    | false =>
      have hlock : row.acquireExitLock request.exitId request.triggerType request.isKillSwitch =
          row := by
        rw [ManagedRow.acquireExitLock, hfree]
        rfl
      cases answers.lock <;> simp [Routed.Atomic, hlock]
    | true =>
      have hid := acquireExitLock_id request.exitId request.triggerType
        hfree
      simp only [RouteSafe, hgate, not_false_iff, true_and, true_implies]
      cases answers.lock with
      | raised applied =>
        simp only
        rw [atomic_failed_iff (Or.inl rfl)]
        cases applied <;> simp [hid]
      | answered =>
        simp only [if_true]
        cases router.mode with
        | paper => exact routePaper_atomic_iff hid
        | live => exact routeLive_atomic_iff hid
        | backtest => simp [Routed.Atomic, Routed.CarriedOut]

/-- The broker client of the repository takes one order object: no live exit is ever placed. -/
theorem zerodha_live_exit_not_placed {router : ExitRouter} (hmode : router.mode = .live)
    (hz : router.zerodha = some zerodhaPlaceOrderSignature) (answers : RouteAnswers) (now : String)
    (request : ExitOrderRequest) (row : ManagedRow) :
    (route router answers now request row).returned = false := by
  have hc : ¬ router.CanPlace := by
    rw [canPlace_of_some hz]
    decide +kernel
  unfold route
  split
  · rfl
  · cases answers.lock with
    | raised applied => rfl
    | answered =>
      simp only [hmode, routeLive_unplaced hc]
      split <;> rfl

/-- The stop of a long fires in paper mode. -/
def stopExit : ExitOrderRequest :=
  .fromPosition "INFY" "NSE" (some .long) 10 .stopLoss "2026-01-05" 100 (some 94) false

/-- The position update fails and answers False; the route answers True and keeps the lock. -/
theorem failed_fill_routed :
    ¬ (route ⟨.paper, false, true, none⟩ ⟨.answered, .returned false false, .accepted, .answered⟩
      "t" stopExit { toPositionRow := openLong }).Atomic .paper stopExit
        { toPositionRow := openLong } := by
  rw [show TradingMode.paper = (⟨.paper, false, true, none⟩ : ExitRouter).mode from rfl,
    exit_route_atomic_iff]
  simp [ExitRouter.Admits, RouteSafe, PaperSafe]
  decide

end QuantEmbrace
