import QuantEmbrace.PositionAccounting

/-! The position row with its exit policy, the writers of these attributes, and what the
trade exit engine makes of one row. -/
namespace QuantEmbrace

structure ManagedRow extends PositionRow where
  stopPrice : Option ℚ := none
  takeProfit : Option ℚ := none
  exitPolicyId : Option String := none
  deriving DecidableEq, Repr

inductive ExitTriggerType where
  | stopLoss | takeProfit | misClose | killSwitch | trailing
  deriving DecidableEq, Repr

def ExitTriggerType.value : ExitTriggerType → String
  | stopLoss => "STOP_LOSS"
  | takeProfit => "TAKE_PROFIT"
  | misClose => "MIS_CLOSE"
  | killSwitch => "KILL_SWITCH"
  | trailing => "TRAILING"

structure ExitOrderRequest where
  exitId : String
  symbol : String
  market : String
  positionDirection : Option Direction
  closeSide : OrderSide
  closeQty : ℚ
  triggerType : ExitTriggerType
  exitPrice : Option ℚ
  avgEntryPrice : ℚ
  isKillSwitch : Bool
  deriving DecidableEq, Repr

/-- The side follows `direction`, the quantity is that of the signed quantity. -/
def ExitOrderRequest.fromPosition (symbol market : String) (direction : Option Direction)
    (signedQuantity : ℚ) (triggerType : ExitTriggerType) (sessionDateIst : String)
    (avgEntryPrice : ℚ) (exitPrice : Option ℚ) (isKillSwitch : Bool) : ExitOrderRequest where
  exitId := "EXIT-" ++ symbol ++ "-" ++ market ++ "-" ++ triggerType.value ++ "-" ++ sessionDateIst
  symbol
  market
  positionDirection := direction
  closeSide := if direction = some .long then .sell else .buy
  closeQty := |signedQuantity|
  triggerType
  exitPrice
  avgEntryPrice
  isKillSwitch

namespace ManagedRow

def applyFill (r : ManagedRow) (f : Fill) : ManagedRow :=
  { r with toPositionRow := applyFillToPosition r.toPositionRow f }

/-- A price that is missing or not positive is not written. -/
def priceSet (new old : Option ℚ) : Option ℚ :=
  match new with
  | some p => if p > 0 then some p else old
  | none => old

def attachExitPolicy (r : ManagedRow) (stopPrice takeProfit : Option ℚ) (policyId : String) :
    ManagedRow :=
  { r with
    stopPrice := priceSet stopPrice r.stopPrice
    takeProfit := priceSet takeProfit r.takeProfit
    exitPolicyId := some policyId
    exitState := some "EXIT_POLICY_ATTACHED" }

/-- `direction <> :flat`; a missing direction is not FLAT either. -/
def notFlat (r : ManagedRow) : Bool := r.direction ≠ some .flat

/-- `_write_trailing_stop`; a refused write is logged. -/
def writeTrailingStop (r : ManagedRow) (newStop : ℚ) : ManagedRow :=
  if r.notFlat then
    { r with stopPrice := some newStop, exitState := some "TRAILING_ACTIVE" }
  else r

/-- The condition of `_acquire_exit_lock`. -/
def exitLockFree (r : ManagedRow) (isKillSwitch : Bool) : Bool :=
  (isKillSwitch || r.exitOrderId = none) && r.notFlat

def acquireExitLock (r : ManagedRow) (exitId : String) (trigger : ExitTriggerType)
    (isKillSwitch : Bool) : ManagedRow :=
  if r.exitLockFree isKillSwitch then
    { r with exitOrderId := some exitId, exitTrigger := some trigger.value }
  else r

def releaseExitLock (r : ManagedRow) (exitId : String) : ManagedRow :=
  if r.exitOrderId = some exitId then { r with exitOrderId := none, exitTrigger := none } else r

/-- `_set_direction_flat` of the startup reconciliation. -/
def setDirectionFlat (r : ManagedRow) : ManagedRow :=
  { r with direction := some .flat, quantity := some 0 }

end ManagedRow

/-- The dict of one managed position. -/
structure ManagedPosition where
  symbol : String
  direction : Option Direction
  quantity : ℚ
  avgPrice : ℚ
  stopPrice : ℚ
  takeProfit : Option ℚ
  lastPrice : Option ℚ
  exitOrderId : Option String
  exitState : Option String
  deriving DecidableEq, Repr

/-- `_parse_position` -/
def ManagedRow.parsePosition (item : ManagedRow) : Option ManagedPosition :=
  match item.quantity, item.stopPrice with
  | some quantity, some stopPrice =>
    if |quantity| < flatTolerance then none
    else some {
      symbol := item.symbol.getD "UNKNOWN"
      direction := item.direction
      quantity
      avgPrice := (item.avgPrice.or item.avgEntryPrice).getD 0
      stopPrice
      takeProfit := item.takeProfit
      lastPrice := item.lastPrice
      exitOrderId := item.exitOrderId
      exitState := item.exitState }
  | _, _ => none

/-- The request that `_fire_exit` routes. -/
def ManagedPosition.exitRequest (position : ManagedPosition) (trigger : ExitTriggerType)
    (sessionDateIst : String) (exitPrice : Option ℚ) : ExitOrderRequest :=
  .fromPosition position.symbol "NSE" position.direction position.quantity trigger sessionDateIst
    position.avgPrice exitPrice false

end QuantEmbrace
