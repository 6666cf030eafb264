import Mathlib.Data.List.Basic
import Mathlib.Logic.Function.Basic

/-! Safe actions: the policy, and an `execute` call of `SafeActionExecutor` as the steps it takes
against the durable key store and the risk-state table, beside those of any other executors. -/
namespace QuantEmbrace.SafeActions

inductive ActionType where
  | readRuntimeState | sendAlert
  | runReconciliation | attachExitPolicyPaper | repairPaperZeroQtyOpen
  | updatePaperDirectionFromQuantity | forcePaperSquareOff
  | blockNewEntries | pauseStrategyEntries | activateKillSwitch | markLiveReadinessBlocked
  | generateRunbookCommand | forbidden
  deriving DecidableEq, Repr

inductive ActionScope where
  | readOnly | paperOnly | riskReduction | liveHumanGated | forbidden
  deriving DecidableEq, Repr

inductive TradingMode where
  | paper | backtest | liveDisabled | liveStage1 | liveFullBlocked
  deriving DecidableEq, Repr

def ActionType.value : ActionType → String
  | .readRuntimeState => "READ_RUNTIME_STATE"
  | .sendAlert => "SEND_ALERT"
  | .runReconciliation => "RUN_RECONCILIATION"
  | .attachExitPolicyPaper => "ATTACH_EXIT_POLICY_PAPER"
  | .repairPaperZeroQtyOpen => "REPAIR_PAPER_ZERO_QTY_OPEN"
  | .updatePaperDirectionFromQuantity => "UPDATE_PAPER_DIRECTION_FROM_QUANTITY"
  | .forcePaperSquareOff => "FORCE_PAPER_SQUARE_OFF"
  | .blockNewEntries => "BLOCK_NEW_ENTRIES"
  | .pauseStrategyEntries => "PAUSE_STRATEGY_ENTRIES"
  | .activateKillSwitch => "ACTIVATE_KILL_SWITCH"
  | .markLiveReadinessBlocked => "MARK_LIVE_READINESS_BLOCKED"
  | .generateRunbookCommand => "GENERATE_RUNBOOK_COMMAND"
  | .forbidden => "FORBIDDEN"

def ActionScope.value : ActionScope → String
  | .readOnly => "READ_ONLY"
  | .paperOnly => "PAPER_ONLY"
  | .riskReduction => "RISK_REDUCTION"
  | .liveHumanGated => "LIVE_HUMAN_GATED"
  | .forbidden => "FORBIDDEN"

def TradingMode.value : TradingMode → String
  | .paper => "PAPER"
  | .backtest => "BACKTEST"
  | .liveDisabled => "LIVE_DISABLED"
  | .liveStage1 => "LIVE_STAGE_1"
  | .liveFullBlocked => "LIVE_FULL_BLOCKED"

namespace TradingMode

def allowedScopes : TradingMode → List ActionScope
  | .paper => [.readOnly, .paperOnly, .riskReduction, .liveHumanGated]
  | .liveDisabled | .liveStage1 => [.readOnly, .riskReduction, .liveHumanGated]
  | .backtest | .liveFullBlocked => [.readOnly]

def paperOnlyTypes : List ActionType :=
  [.attachExitPolicyPaper, .repairPaperZeroQtyOpen, .updatePaperDirectionFromQuantity,
    .forcePaperSquareOff]

def deniedTypes : TradingMode → List ActionType
  | .paper => []
  | .backtest => [.activateKillSwitch, .blockNewEntries, .pauseStrategyEntries,
      .markLiveReadinessBlocked, .forcePaperSquareOff, .runReconciliation]
  | .liveDisabled | .liveStage1 => paperOnlyTypes
  | .liveFullBlocked => paperOnlyTypes ++ [.blockNewEntries, .pauseStrategyEntries]

/-- `is_allowed`: the reason it is denied, if it is. -/
def denial (mode : TradingMode) (type : ActionType) (scope : ActionScope) : Option String :=
  if type = .forbidden then some (type.value ++ " is always forbidden")
  else if scope = .forbidden then some "ActionScope.FORBIDDEN is never executable"
  else if scope ∉ mode.allowedScopes then
    some ("scope " ++ scope.value ++ " not permitted in mode " ++ mode.value)
  else if type ∈ mode.deniedTypes then some (type.value ++ " is denied in mode " ++ mode.value)
  else none

end TradingMode

def requiresHumanApproval (type : ActionType) (scope : ActionScope) : Bool :=
  scope = .liveHumanGated ∨ type = .generateRunbookCommand

structure SafeAction where
  actionId : String
  actionType : ActionType
  scope : ActionScope := .riskReduction
  requiresHumanApproval : Bool := false
  idempotencyKey : String
  deriving DecidableEq, Repr

structure ExecutionResult where
  executed : Bool
  blocked : Bool := false
  blockedReason : Option String := none
  idempotencySkipped : Bool := false
  preconditionFailed : Option String := none
  error : Option String := none
  stubNotImplemented : Bool := false
  deriving DecidableEq, Repr

/-- The rows of the risk-state table that write actions put. -/
inductive RiskRow where
  | killSwitch
  | entryBlock
  deriving DecidableEq, Repr

/-- The row a write action puts; the other actions write nothing. -/
def ActionType.row : ActionType → Option RiskRow
  | .activateKillSwitch => some .killSwitch
  | .blockNewEntries => some .entryBlock
  | _ => none

/-- Policy and human-approval gates: the result, if `execute` ends there. -/
def SafeAction.gated (a : SafeAction) (mode : TradingMode) : Option ExecutionResult :=
  match mode.denial a.actionType a.scope with
  | some reason => some { executed := false, blocked := true, blockedReason := some reason }
  | none =>
    if a.requiresHumanApproval ∨ SafeActions.requiresHumanApproval a.actionType a.scope then
      if a.actionType = .generateRunbookCommand then some { executed := true }
      else some {
        executed := false
        blocked := true
        blockedReason := some "requires_human_approval" }
    else none

/-- `_dispatch` of an action that writes nothing. -/
def ActionType.dispatch : ActionType → ExecutionResult
  | .sendAlert | .generateRunbookCommand | .readRuntimeState => { executed := true }
  | _ => {
      executed := false
      blockedReason := some "stub_not_implemented"
      stubNotImplemented := true }

/-- Where a call is: about to look its key up in the durable store, at the in-memory gate, about
to put the row, to mark the key, or to return. -/
inductive Stage where
  | lookup
  | gate
  | put
  | mark
  | finish (result : ExecutionResult)
  deriving DecidableEq, Repr

structure Call where
  executor : ℕ
  action : SafeAction
  preconditionsMet : Bool := true
  preconditionDescription : String := ""
  stage : Stage
  deriving DecidableEq, Repr

/-- What happens to the rows: a put under a key, an activation by some other component, a clear. -/
inductive Effect where
  | put (row : RiskRow) (key actionId : String)
  | activate (row : RiskRow)
  | clear (row : RiskRow)
  deriving DecidableEq, Repr

/-- A row after its effects, the latest first: active, respectively blocked. -/
def rowActive (row : RiskRow) : List Effect → Bool
  | [] => false
  | .put r _ _ :: es | .activate r :: es => if r = row then true else rowActive row es
  | .clear r :: es => if r = row then false else rowActive row es

/-- What a call returned, with the effects there had been by then. -/
structure Returned where
  action : SafeAction
  result : ExecutionResult
  effects : List Effect
  deriving DecidableEq, Repr

/-- The end of a write: a write that raises may have been applied. -/
inductive WriteOutcome where
  | done
  | raised (applied : Bool) (errorType : String)
  deriving DecidableEq, Repr

def WriteOutcome.applied : WriteOutcome → Bool
  | .done => true
  | .raised applied _ => applied

/-- The durable keys, and for each executor those it remembers; the calls that are under way. -/
structure World where
  keys : List String := []
  memory : ℕ → List String := fun _ => []
  calls : ℕ → Option Call := fun _ => none
  effects : List Effect := []
  returned : List Returned := []

/-- One step of a call, a restart of an executor, or another writer of a row. `sees` is false for
a lookup that fails or is answered from a stale replica. -/
inductive Event where
  | start (id executor : ℕ) (a : SafeAction) (preconditionsMet : Bool)
    (preconditionDescription : String)
  | lookup (id : ℕ) (sees : Bool)
  | gate (id : ℕ)
  | put (id : ℕ) (outcome : WriteOutcome)
  | mark (id : ℕ) (outcome : WriteOutcome)
  | finish (id : ℕ)
  | restart (executor : ℕ)
  | activate (row : RiskRow)
  | clear (row : RiskRow)
  deriving DecidableEq, Repr

namespace World
variable (w : World)

def setCall (id : ℕ) (c : Option Call) : World := { w with calls := Function.update w.calls id c }

def report (a : SafeAction) (result : ExecutionResult) : World :=
  { w with returned := ⟨a, result, w.effects⟩ :: w.returned }

/-- The call returns and is over. -/
def endCall (id : ℕ) (a : SafeAction) (result : ExecutionResult) : World :=
  (w.setCall id none).report a result

def start (mode : ℕ → TradingMode) (id executor : ℕ) (a : SafeAction) (preconditionsMet : Bool)
    (preconditionDescription : String) : World :=
  if (w.calls id).isSome then w
  else
    match a.gated (mode executor) with
    | some result => w.report a result
    | none =>
      w.setCall id (some {
        executor, preconditionsMet, preconditionDescription
        action := a
        stage := if a.actionType.row.isSome then .lookup else .gate })

/-- `DurableIdempotencyStore.check`: a failed read counts as not found. -/
def lookup (id : ℕ) (sees : Bool) : World :=
  match w.calls id with
  | some c =>
    if c.stage = .lookup then
      if sees ∧ c.action.idempotencyKey ∈ w.keys then
        w.endCall id c.action {
          executed := false
          idempotencySkipped := true
          blockedReason := some
            ("durable_idempotency_key already executed: " ++ c.action.idempotencyKey) }
      else w.setCall id (some { c with stage := .gate })
    else w
  | none => w

/-- The keys remembered in the session, the preconditions, and `_dispatch`. -/
def gate (id : ℕ) : World :=
  match w.calls id with
  | some c =>
    if c.stage = .gate then
      if c.action.idempotencyKey ∈ w.memory c.executor then
        w.endCall id c.action {
          executed := false
          idempotencySkipped := true
          blockedReason := some ("idempotency_key already executed: " ++ c.action.idempotencyKey) }
      else if c.preconditionsMet = false then
        w.endCall id c.action {
          executed := false
          blocked := true
          blockedReason := some "precondition_failed"
          preconditionFailed := some (if c.preconditionDescription = "" then "precondition not met"
            else c.preconditionDescription) }
      else if c.action.actionType.row.isSome then w.setCall id (some { c with stage := .put })
      else w.setCall id (some { c with stage := .finish c.action.actionType.dispatch })
    else w
  | none => w

/-- `write_block_new_entries` and `write_kill_switch_active` -/
def put (id : ℕ) (outcome : WriteOutcome) : World :=
  match w.calls id with
  | some c =>
    match c.stage, c.action.actionType.row with
    | .put, some row =>
      let effect := Effect.put row c.action.idempotencyKey c.action.actionId
      let w := if outcome.applied then { w with effects := effect :: w.effects } else w
      match outcome with
      | .done => w.setCall id (some { c with stage := .mark })
      | .raised _ errorType =>
        let result : ExecutionResult := { executed := false, error := some errorType }
        w.setCall id (some { c with stage := .finish result })
    | _, _ => w
  | none => w

/-- `DurableIdempotencyStore.mark`, on the condition that the key is not there; its answer is
not used. -/
def mark (id : ℕ) (outcome : WriteOutcome) : World :=
  match w.calls id with
  | some c =>
    if c.stage = .mark then
      let key := c.action.idempotencyKey
      let w := if outcome.applied ∧ key ∉ w.keys then { w with keys := key :: w.keys } else w
      w.setCall id (some { c with stage := .finish { executed := true } })
    else w
  | none => w

/-- Back in `execute`: what was executed is remembered. -/
def finish (id : ℕ) : World :=
  match w.calls id with
  | some c =>
    match c.stage with
    | .finish result =>
      let remembered := c.action.idempotencyKey :: w.memory c.executor
      let memory := if result.executed ∧ result.idempotencySkipped = false then
          Function.update w.memory c.executor remembered
        else w.memory
      { w with memory }.endCall id c.action result
    | _ => w
  | none => w

/-- The executor forgets its keys, and its calls are gone. -/
def restart (executor : ℕ) : World :=
  { w with
    memory := Function.update w.memory executor []
    calls := fun id => (w.calls id).filter fun c => c.executor ≠ executor }

/-- The executors run in the modes given; they have a writer and share the durable store. -/
def step (mode : ℕ → TradingMode) (w : World) : Event → World
  | .start id executor a met description => w.start mode id executor a met description
  | .lookup id sees => w.lookup id sees
  | .gate id => w.gate id
  | .put id outcome => w.put id outcome
  | .mark id outcome => w.mark id outcome
  | .finish id => w.finish id
  | .restart executor => w.restart executor
  | .activate row => { w with effects := .activate row :: w.effects }
  | .clear row => { w with effects := .clear row :: w.effects }

end World
end QuantEmbrace.SafeActions
