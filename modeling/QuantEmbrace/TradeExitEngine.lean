import QuantEmbrace.ExitRouting

/-! The trade exit engine on one managed position: which exit the last price calls for, and
what that does to the row. -/
namespace QuantEmbrace

def stopLossTriggered (direction : Option Direction) (lastPrice stopPrice : ℚ) : Bool :=
  match direction with
  | some .long => lastPrice ≤ stopPrice
  | some .short => lastPrice ≥ stopPrice
  | _ => false

def takeProfitTriggered (direction : Option Direction) (lastPrice takeProfit : ℚ) : Bool :=
  match direction with
  | some .long => lastPrice ≥ takeProfit
  | some .short => lastPrice ≤ takeProfit
  | _ => false

def trailingActivationTriggered (direction : Option Direction)
    (lastPrice avgEntryPrice activationPct : ℚ) : Bool :=
  match direction with
  | some .long => lastPrice ≥ avgEntryPrice * (1 + activationPct / 100)
  | some .short => lastPrice ≤ avgEntryPrice * (1 - activationPct / 100)
  | _ => false

/-- The stop moves in favour of the position only. -/
def computeTrailingStop (direction : Option Direction) (lastPrice currentStop trailPct : ℚ) : ℚ :=
  match direction with
  | some .long => max currentStop (lastPrice * (1 - trailPct / 100))
  | some .short => min currentStop (lastPrice * (1 + trailPct / 100))
  | _ => currentStop

structure TrailingSettings where
  enabled : Bool
  activationPct : ℚ
  stopPct : ℚ

inductive ExitDecision where
  | nothing
  | fire (trigger : ExitTriggerType) (exitPrice : ℚ)
  | trail (newStop : ℚ)
  deriving DecidableEq, Repr

/-- `_manage_trailing_stop`; a stop that is active is written when it moves. -/
def manageTrailingStop (trailing : TrailingSettings) (position : ManagedPosition)
    (lastPrice : ℚ) : ExitDecision :=
  let newStop :=
    computeTrailingStop position.direction lastPrice position.stopPrice trailing.stopPct
  if position.exitState = some "TRAILING_ACTIVE" then
    if newStop = position.stopPrice then .nothing else .trail newStop
  else if trailingActivationTriggered position.direction lastPrice position.avgPrice
      trailing.activationPct then .trail newStop
  else .nothing

/-- `_evaluate_exit_conditions` -/
def evaluateExitConditions (trailing : TrailingSettings) (position : ManagedPosition)
    (lastPrice : Option ℚ) : ExitDecision :=
  if position.exitOrderId ≠ none then .nothing
  else match lastPrice with
    | none => .nothing
    | some last =>
      let active : Prop := position.exitState = some "TRAILING_ACTIVE"
      if stopLossTriggered position.direction last position.stopPrice then
        .fire (if active then .trailing else .stopLoss) last
      else match position.takeProfit with
        | some takeProfit =>
          if ¬ active ∧ takeProfitTriggered position.direction last takeProfit then
            .fire .takeProfit takeProfit
          else if trailing.enabled then manageTrailingStop trailing position last else .nothing
        | none => if trailing.enabled then manageTrailingStop trailing position last else .nothing

/-- The settings of the engine and its router, the prices it is given and the answers of the
requests it makes for one position. -/
structure EnginePass where
  trailing : TrailingSettings
  router : ExitRouter
  lastPrice : Option ℚ
  sessionDateIst : String
  now : String
  answers : RouteAnswers

/-- One cycle as far as one row is concerned. -/
def EnginePass.run (pass : EnginePass) (row : ManagedRow) : ManagedRow :=
  match row.parsePosition with
  | none => row
  | some position =>
    if row.notFlat then
      match evaluateExitConditions pass.trailing position pass.lastPrice with
      | .nothing => row
      | .trail newStop => row.writeTrailingStop newStop
      | .fire trigger exitPrice =>
        (route pass.router pass.answers pass.now
          (position.exitRequest trigger pass.sessionDateIst (some exitPrice)) row).row
    else row

end QuantEmbrace
