import QuantEmbrace.Lib.Double
import QuantEmbrace.Lib.DynamoItem
import QuantEmbrace.Lib.Paging
import QuantEmbrace.StrategyConfigTable

/-! The gate before live trading: twenty-six checks, run together, and one verdict on them. A check
that raises has failed. The texts of the reasons are left out. -/
namespace QuantEmbrace.LiveGate
open DynamoItem PythonValue Strategies.ConfigTable

inductive CheckStatus where
  | pass | fail | warn | skip
  deriving DecidableEq, Repr

inductive GateStatus where
  | approved | blocked | degraded
  deriving DecidableEq, Repr

structure CheckResult where
  name : String
  status : CheckStatus
  deriving DecidableEq, Repr

structure LiveGateResult where
  status : GateStatus
  checks : List CheckResult
  deriving DecidableEq, Repr

namespace LiveGateResult
variable (r : LiveGateResult)

def named (status : CheckStatus) : List String :=
  (r.checks.filter fun c => c.status = status).map CheckResult.name

def blockedBy : List String := r.named .fail
def warnings : List String := r.named .warn
def passed : List String := r.named .pass

end LiveGateResult

def nseOpen : ℚ := 33300
def nseClose : ℚ := 55800
def noNewEntry : ℚ := 54000
def approvedStages : List String := ["STAGE_1_ONE_SHARE"]
def stage1MaxPortfolioValue : ℚ := 1000000
def stage1MaxOrderValue : ℚ := 5000
def ltpMaxAgeSeconds : ℚ := 120
def paperOnlyStrategies : List String := ["scalp_1m"]

/-- `datetime.fromisoformat` -/
inductive ParsedTime where
  | valueError
  | naive
  | aware (utc : ℚ)
  deriving DecidableEq, Repr

/-- What the checks use of the language on texts. -/
structure Library where
  lower : String → String
  reprValue : AttributeValue → String
  floatOfText : String → Option JsonFloat
  fromisoformat : String → ParsedTime

/-- `float(value)`; `none` where it raises. -/
def Library.float (lib : Library) : Json → Option JsonFloat
  | .bool b => some (.finite (if b then 1 else 0))
  | .int n => (Double.ofInt n).map fun m => .finite m
  | .float x => some x
  | .text t => t.chars.bind fun cs => lib.floatOfText (String.ofList cs)
  | _ => none

/-- The settings that the checks read; one that is missing counts as zero. -/
structure Settings where
  environment : String := ""
  liveTradingEnabled : Bool := false
  portfolioValue : Json := .int 0
  maxSingleOrderValue : Json := .int 0
  maxDailyLossPct : Json := .int 0
  watchlistNse : List String := []

structure IstTime where
  weekday : ℕ
  time : ℚ
  deriving DecidableEq, Repr

inductive Margins where
  | noClient | raises | readable
  deriving DecidableEq, Repr

/-- The names of the alarms in two states; `none` where the call raises. -/
structure CloudWatch where
  insufficientData : Option (List String)
  inAlarm : Option (List String)
  deriving DecidableEq, Repr

/-- What there is to read. A read that raises is `none`; the scan of the strategies comes in
pages, and each of the two checks that scan has its own request. -/
structure World where
  settings : Settings
  liveTradingVariable : String := ""
  approval : Option Item
  strategyPages : List (List Row)
  allowedScanRaises : Bool := false
  paperOnlyScanRaises : Bool := false
  killSwitch : Option Item
  reconciliation : Option Item
  teeHeartbeat : Option Item
  executionHeartbeat : Option Item
  ltp : Option Item
  session : Option Item
  ordersProbe : Option Item
  margins : Margins
  cloudWatch : Option CloudWatch
  teeNow : ℚ
  squareOffNow : ℚ
  ltpNow : ℚ
  squareOffTime : IstTime
  windowTime : IstTime
  cutoffTime : IstTime

/-- `text.strip()` -/
def strip (text : String) : String := String.ofList (PythonInt.strip text.toList)

/-- `part in text` -/
def occurs (part text : String) : Bool := part.toList <:+: text.toList

def passIf (condition : Bool) : CheckStatus := if condition then .pass else .fail

section Checks
variable (lib : Library) (w : World)

def fetchApprovalRecord : Item := w.approval.getD []

def checkTradingModeLive (rec : Item) : CheckStatus :=
  passIf (lib.lower w.settings.environment = "production" || rec.text "live_stage" ≠ "")

def checkLiveTradingEnabled : CheckStatus :=
  let raw := lib.lower (strip w.liveTradingVariable)
  passIf (raw = "true" || raw = "1" || w.settings.liveTradingEnabled)

def checkManualApprovalToken (rec : Item) : CheckStatus :=
  passIf (strip (rec.text "approval_token") ≠ "")

def checkLiveStageApproved (rec : Item) : CheckStatus :=
  passIf (strip (rec.text "live_stage") ∈ approvedStages)

/-- `float(str(raw.get("N", raw)))`; what cannot be read is zero. -/
def recCapital (lib : Library) : AttributeValue → JsonFloat
  | .n t => (lib.floatOfText t).getD (.finite 0)
  | raw => (lib.floatOfText (lib.reprValue raw)).getD (.finite 0)

def checkMaxCapitalWithinStageLimit (rec : Item) : Option CheckStatus := do
  let portfolioValue ← lib.float (w.settings.portfolioValue.orElse (.int 0))
  if (rec.lookup "max_capital").any fun raw => (recCapital lib raw).gt stage1MaxPortfolioValue then
    return .fail
  if portfolioValue.gt stage1MaxPortfolioValue then return .fail
  if portfolioValue.le 0 then return .fail
  return .pass

def checkMaxOrderValueConfigured : Option CheckStatus := do
  let val ← lib.float (w.settings.maxSingleOrderValue.orElse (.int 0))
  if val.le 0 then return .fail
  if val.gt stage1MaxOrderValue then return .fail
  return .pass

def checkMaxDailyLossConfigured : Option CheckStatus := do
  let pct ← lib.float (w.settings.maxDailyLossPct.orElse (.int 0))
  if pct.le 0 then return .fail
  return .pass

def checkAllowedSymbolsConfigured : CheckStatus := passIf (w.settings.watchlistNse ≠ [])

/-- `paper_trade = :false` -/
def tradesLive (row : Row) : Bool := row.get "paper_trade" = some (.bool false)

/-- `item.get("enabled", {}).get("BOOL", False)` -/
def enabled (row : Row) : Bool := row.get "enabled" = some (.bool true)

/-- The answer to one request. -/
def scanned : List Row := (Paging.serve w.strategyPages tradesLive none).items

def checkAllowedStrategiesConfigured : CheckStatus :=
  if w.allowedScanRaises then .fail else passIf ((scanned w).filter enabled ≠ [])

def checkNoPaperOnlyStrategyInLive : CheckStatus :=
  if w.paperOnlyScanRaises then .fail
  else
    let offending := ((scanned w).map fun row => strategyOf row.key.pk).filter
      (· ∈ paperOnlyStrategies)
    passIf (offending = [])

/-- The kill switch and the state of the reconciliation: a record with a flag that must be off. -/
def flagOff (reply : Option Item) (name : String) : CheckStatus :=
  match reply with
  | none => .fail
  | some item => if item = [] then .pass else passIf (!item.flag name)

def checkKillSwitchOff : CheckStatus := flagOff w.killSwitch "active"

def checkReconciliationClean : CheckStatus := flagOff w.reconciliation "reconciliation_required"

/-- A record with a time that must not be too old; a time without a zone raises when it is
subtracted. -/
def freshness (onMissing onRaise : CheckStatus) (reply : Option Item) (stamp : Item → String)
    (now : ℚ) : CheckStatus :=
  match reply with
  | none => onRaise
  | some item =>
    if item = [] then onMissing
    else if stamp item = "" then .warn
    else
      match lib.fromisoformat (stamp item) with
      | .valueError => .warn
      | .naive => onRaise
      | .aware utc => if ltpMaxAgeSeconds < now - utc then .fail else .pass

def updatedAt (item : Item) : String := item.text "updated_at"

def capturedAt (item : Item) : String :=
  if item.text "captured_at_utc" ≠ "" then item.text "captured_at_utc" else updatedAt item

def checkTradeExitEngineRunning : CheckStatus :=
  freshness lib .warn .warn w.teeHeartbeat updatedAt w.teeNow

def checkMisSquareOffArmed : CheckStatus :=
  if nseClose ≤ w.squareOffTime.time then .pass
  else freshness lib .warn .warn w.executionHeartbeat updatedAt w.squareOffNow

def checkLtpFresh : CheckStatus :=
  if w.settings.watchlistNse = [] then .fail
  else freshness lib .fail .fail w.ltp capturedAt w.ltpNow

def checkBrokerSessionValid : CheckStatus :=
  match w.session with
  | none => .fail
  | some item => passIf (item ≠ [] && item.text "access_token" ≠ "")

def checkMarginsReadable : CheckStatus :=
  match w.margins with
  | .noClient => .warn
  | .raises => .fail
  | .readable => .pass

def checkDynamodbLiveTableReachable : CheckStatus := passIf w.ordersProbe.isSome

/-- No alarm of those in a state is one that counts. -/
def noAlarm (alarms : CloudWatch → Option (List String)) (counts : String → Bool) : CheckStatus :=
  match w.cloudWatch with
  | none => .warn
  | some cw =>
    match alarms cw with
    | none => .warn
    | some names => passIf (names.filter counts = [])

/-- An alarm of the trading, which one of the containers is not. -/
def tradingAlarm (name : String) : Bool :=
  occurs "quantembrace" (lib.lower name) && !occurs "ecs" (lib.lower name)

/-- `p0_names`, without the stars -/
def p0Fragments : List String := ["kill-switch-activated", "daily-pnl-loss-halt",
  "websocket-disconnected", "data-feed-stale", "risk-engine-unhealthy", "zerodha-rate-limit-errors"]

def p0Alarm (name : String) : Bool := p0Fragments.any fun part => occurs part (lib.lower name)

def checkCloudwatchAlarmsActive : CheckStatus :=
  noAlarm w CloudWatch.insufficientData (tradingAlarm lib)

def checkNoUnresolvedCriticalAlerts : CheckStatus := noAlarm w CloudWatch.inAlarm (p0Alarm lib)

def checkSnsAlertTested (rec : Item) : CheckStatus := passIf (rec.flag "sns_alert_tested")

def checkTradingWindow : CheckStatus :=
  if 5 ≤ w.windowTime.weekday then .fail
  else if w.windowTime.time < nseOpen ∨ nseClose ≤ w.windowTime.time then .fail
  else .pass

def checkNoNewEntryCutoff : CheckStatus := passIf (w.cutoffTime.time < noNewEntry)

def checkRollbackPlanExists (rec : Item) : CheckStatus :=
  passIf (rec.flag "rollback_plan_confirmed")

def checkReleaseTagRecorded (rec : Item) : CheckStatus :=
  passIf (strip (rec.text "release_tag") ≠ "")

def checkHumanApprovalRecorded (rec : Item) : CheckStatus :=
  passIf (strip (rec.text "approved_by") ≠ "" && strip (rec.text "approved_at") ≠ "")

/-- The checks by their names; `none` is one that raised. -/
def checkFns (rec : Item) : List (String × Option CheckStatus) := [
  ("trading_mode_live", checkTradingModeLive lib w rec),
  ("live_trading_enabled", checkLiveTradingEnabled lib w),
  ("manual_approval_token", checkManualApprovalToken rec),
  ("live_stage_approved", checkLiveStageApproved rec),
  ("max_capital_within_stage_limit", checkMaxCapitalWithinStageLimit lib w rec),
  ("max_order_value_configured", checkMaxOrderValueConfigured lib w),
  ("max_daily_loss_configured", checkMaxDailyLossConfigured lib w),
  ("allowed_symbols_configured", checkAllowedSymbolsConfigured w),
  ("allowed_strategies_configured", checkAllowedStrategiesConfigured w),
  ("kill_switch_off", checkKillSwitchOff w),
  ("trade_exit_engine_running", checkTradeExitEngineRunning lib w),
  ("mis_square_off_armed", checkMisSquareOffArmed lib w),
  ("reconciliation_clean", checkReconciliationClean w),
  ("ltp_fresh", checkLtpFresh lib w),
  ("broker_session_valid", checkBrokerSessionValid w),
  ("margins_readable", checkMarginsReadable w),
  ("dynamodb_live_table_reachable", checkDynamodbLiveTableReachable w),
  ("cloudwatch_alarms_active", checkCloudwatchAlarmsActive lib w),
  ("sns_alert_tested", checkSnsAlertTested rec),
  ("no_unresolved_critical_alerts", checkNoUnresolvedCriticalAlerts lib w),
  ("trading_window", checkTradingWindow w),
  ("no_new_entry_cutoff", checkNoNewEntryCutoff w),
  ("rollback_plan_exists", checkRollbackPlanExists rec),
  ("release_tag_recorded", checkReleaseTagRecorded rec),
  ("human_approval_recorded", checkHumanApprovalRecorded rec),
  ("no_paper_only_strategy_in_live", checkNoPaperOnlyStrategyInLive w)]

end Checks

/-- What `gather` returned for one check, an exception as a failure. -/
def safeResult (i : ℕ) (check : String × Option CheckStatus) : CheckResult :=
  match check.2 with
  | some status => ⟨check.1, status⟩
  | none => ⟨s!"check_{i + 1}_internal_error", .fail⟩

def verdict (results : List CheckResult) : GateStatus :=
  if results.filter (fun c => c.status = .fail) ≠ [] then .blocked
  else if results.filter (fun c => c.status = .warn) ≠ [] then .degraded
  else .approved

def checkAll (lib : Library) (w : World) : LiveGateResult :=
  let safe := (checkFns lib w (fetchApprovalRecord w)).mapIdx safeResult
  ⟨verdict safe, safe⟩

end QuantEmbrace.LiveGate
