import QuantEmbrace.PositionLedger
import Mathlib.Algebra.BigOperators.Group.List.Basic
import Mathlib.Algebra.Order.Floor.Ring
import Mathlib.Data.Rat.Floor
import Mathlib.Logic.Function.Basic

/-! The validators of the risk engine, each as a function of the signal, of the limits, of
its cache and of what its reads meet. The texts of the results are the fixed parts of those
of the source. -/
namespace QuantEmbrace.RiskCheck

/-- A value of the metadata, as far as its truth matters. -/
inductive MetaValue where
  | text (s : String)
  | flag (b : Bool)
  | number (q : ℚ)
  | null
  deriving DecidableEq, Repr

def MetaValue.truthy : MetaValue → Bool
  | text s => s ≠ ""
  | flag b => b
  | number q => q ≠ 0
  | null => false

/-- `generated_at` in seconds, in UTC where it names no zone. -/
structure Signal where
  signalId : String
  symbol : String
  market : String
  direction : OrderSide
  quantity : ℤ
  confidence : ℚ
  strategyName : String
  generatedAt : ℚ
  priceAtSignal : ℚ
  stopLoss : Option ℚ := none
  takeProfit : Option ℚ := none
  paperTrade : Bool := false
  metadata : String → Option MetaValue := fun _ => none

namespace Signal

def value (s : Signal) : ℚ := s.quantity * s.priceAtSignal

def isCloseout (s : Signal) : Bool := (s.metadata "is_closeout").any MetaValue.truthy

end Signal

inductive LimitKey where
  | maxPositionSizePct | maxTotalExposurePct | maxDailyLossPct | maxSingleOrderValue
  | maxPositionPerSymbol | maxSectorExposurePct
  deriving DecidableEq, Repr

structure RiskLimits where
  value : LimitKey → ℚ
  nseOverrides : LimitKey → Option ℚ := fun _ => none
  usOverrides : LimitKey → Option ℚ := fun _ => none
  portfolioValue : ℚ

def RiskLimits.getLimit (l : RiskLimits) (key : LimitKey) (market : String) : ℚ :=
  if market = "NSE" then (l.nseOverrides key).getD (l.value key)
  else if market = "US" then (l.usOverrides key).getD (l.value key)
  else l.value key

/-- The settings behind the validators. -/
structure RiskConfig where
  limits : RiskLimits
  riskProfile : String := "paper"
  maxSignalAgeSeconds : ℚ := 5
  maxSpreadBps : ℚ := 50
  maxOrderAdvPct : ℚ := 1
  marginBufferPct : ℚ := 1 / 5
  maxSpreadPct : ℚ := 1 / 5
  maxAdvPct : ℚ := 1 / 2
  maxTotalCostPct : ℚ := 3 / 10
  warnOnly : Bool := false
  registry : String → Option String

structure RiskValidationResult where
  approved : Bool
  validatorName : String
  reason : String
  deriving DecidableEq, Repr

/-- `risk_data_unavailable_result`: a live signal is rejected, a paper one passes. -/
def riskDataUnavailableResult (s : Signal) (validatorName reason : String) :
    RiskValidationResult :=
  if s.paperTrade then ⟨true, validatorName, "PAPER_WARN_RISK_DATA_UNAVAILABLE: " ++ reason⟩
  else ⟨false, validatorName, "LIVE_RISK_DATA_UNAVAILABLE: " ++ reason⟩

@[simp] theorem riskDataUnavailableResult_approved (s : Signal) (name reason : String) :
    (riskDataUnavailableResult s name reason).approved = s.paperTrade := by
  unfold riskDataUnavailableResult
  cases s.paperTrade <;> rfl

/-- How a `get_item` ends. -/
inductive ItemRead (α : Type*) where
  | failed
  | missing
  | item (a : α)
  deriving DecidableEq, Repr

/-- A query or scan that is followed to its last page; a page of none has raised. -/
def readPages {α : Type*} (pages : List (Option (List α))) : Option (List α) :=
  (pages.mapM id).map List.flatten

/-- `int` of a stored number, which raises on a fraction. -/
def intOf (n : Option ℚ) : Option ℤ :=
  if (n.getD 0).den = 1 then some (n.getD 0).num else none

/-- `int` of a limit drops its fraction. -/
def truncated (q : ℚ) : ℤ := if 0 ≤ q then ⌊q⌋ else ⌈q⌉

structure MarginItem where
  availableCash : Option ℚ := none
  collateralValue : Option ℚ := none
  deriving DecidableEq, Repr

/-- What the reads of the validators meet while one signal is validated, with the clocks;
`dynamo` is false when the engine has no client. -/
structure ValidatorReads where
  now : ℚ
  mono : ℚ
  today : ℕ
  dynamo : Bool := true
  entryBlock : ItemRead Bool
  reconciliation : ItemRead Bool
  confirmed : ItemRead PositionRow
  inFlight : String → Option (List (Option ℚ))
  exposureScan : List (Option (List PositionRow))
  margin : String → ItemRead MarginItem
  adv30d : ItemRead (Option ℚ)
  pnlDay : ItemRead (Option ℚ)
  filledOrders : List (Option (List (Option ℚ)))
  unrealizedScan : List (Option (List PositionRow))

structure EntryBlockCache where
  blocked : Bool := false
  readOk : Bool := true
  cachedAt : ℚ := 0
  deriving DecidableEq, Repr

structure ReconciliationCache where
  required : Bool := false
  lastRefresh : ℚ := 0
  deriving DecidableEq, Repr

structure MarginSnapshot where
  availableCash : ℚ
  collateralValue : ℚ
  fetchedAtMono : ℚ
  deriving DecidableEq, Repr

structure PnlCache where
  realized : ℚ := 0
  date : Option ℕ := none
  fetchedAt : ℚ := 0
  deriving DecidableEq, Repr

structure Caches where
  entry : EntryBlockCache := {}
  recon : ReconciliationCache := {}
  margin : String → Option MarginSnapshot := fun _ => none
  pnl : PnlCache := {}

section Validators
variable (cfg : RiskConfig) (w : ValidatorReads) (s : Signal)

/-- `get_item` of a client that may be absent. -/
def ValidatorReads.getItem {α : Type*} (r : ItemRead α) : ItemRead α :=
  if w.dynamo then r else .failed

variable {w} in
theorem ValidatorReads.getItem_eq {α : Type*} (hd : w.dynamo = true) (r : ItemRead α) :
    w.getItem r = r := by
  rw [getItem, if_pos hd]

namespace SignalAge

def maxAgeSeconds : ℚ := min cfg.maxSignalAgeSeconds 30

def validate : RiskValidationResult :=
  let age := w.now - s.generatedAt
  if age < 0 then
    if 2 < |age| then ⟨false, "signal_age_validator", "Signal has a future timestamp"⟩
    else ⟨true, "signal_age_validator", "Signal age OK (minor clock skew)"⟩
  else if maxAgeSeconds cfg < age then ⟨false, "signal_age_validator", "Signal is stale"⟩
  else ⟨true, "signal_age_validator", "Signal age OK"⟩

end SignalAge

namespace EntryBlock

/-- A failed read leaves the time of the cache, so that the next signal tries again. -/
def refreshIfStale (c : EntryBlockCache) : EntryBlockCache :=
  if w.mono - c.cachedAt < 5 then c
  else match w.getItem w.entryBlock with
    | .failed => { c with readOk := false }
    | .missing => ⟨false, true, w.mono⟩
    | .item blocked => ⟨blocked, true, w.mono⟩

def failClosed : Bool := cfg.riskProfile ≠ "paper"

def validate (c : Caches) : RiskValidationResult × Caches :=
  let name := "entry_block_validator"
  if s.isCloseout then (⟨true, name, "closeout_exempt"⟩, c)
  else if s.paperTrade && cfg.riskProfile = "paper" then
    (⟨true, name, "paper_signal_exempt_in_paper_profile"⟩, c)
  else
    let entry := refreshIfStale w c.entry
    let c := { c with entry := entry }
    if entry.readOk = false then
      if failClosed cfg then (⟨false, name, "ENTRY_BLOCK_READ_FAILURE_FAIL_CLOSED"⟩, c)
      else (⟨true, name, "ENTRY_BLOCK_READ_FAILURE_WARN_ALLOW"⟩, c)
    else if entry.blocked then (⟨false, name, "ENTRY_BLOCK_ACTIVE"⟩, c)
    else (⟨true, name, "entry_block_not_active"⟩, c)

end EntryBlock

namespace ReconciliationCheck

/-- On a failed read the flag counts as not required. -/
def refreshIfStale (c : ReconciliationCache) : ReconciliationCache :=
  if w.mono - c.lastRefresh < 1 then c
  else match w.getItem w.reconciliation with
    | .failed => ⟨false, w.mono⟩
    | .missing => ⟨false, w.mono⟩
    | .item required => ⟨required, w.mono⟩

def validate (c : Caches) : RiskValidationResult × Caches :=
  let name := "reconciliation_validator"
  if s.paperTrade then (⟨true, name, "paper_trade_exempt"⟩, c)
  else if s.isCloseout then (⟨true, name, "closeout_exempt"⟩, c)
  else
    let recon := refreshIfStale w c.recon
    let c := { c with recon := recon }
    if recon.required then (⟨false, name, "RECONCILIATION_REQUIRED"⟩, c)
    else (⟨true, name, "reconciliation_not_required"⟩, c)

end ReconciliationCheck

namespace PositionCheck

/-- `_get_confirmed_position`; no row counts as no position. -/
def confirmedPosition : Option ℤ :=
  match w.getItem w.confirmed with
  | .failed => none
  | .missing => some 0
  | .item row => intOf row.quantity

/-- `_get_pending_quantity`, over the statuses that are in flight. -/
def pendingQuantity : Option ℤ :=
  if w.dynamo then
    (["PENDING", "PLACED", "PARTIALLY_FILLED"].mapM fun status =>
      (w.inFlight status).bind fun items => (items.mapM intOf).map List.sum).map List.sum
  else none

/-- `proposed` counts what is held, what is in flight and the signal. -/
def withinLimits (proposed : ℤ) : RiskValidationResult :=
  let name := "position_validator"
  if cfg.limits.getLimit .maxSingleOrderValue s.market < s.value then
    ⟨false, name, "Order value exceeds max single order value"⟩
  else if truncated (cfg.limits.getLimit .maxPositionPerSymbol s.market) < proposed then
    ⟨false, name, "Effective position exceeds max"⟩
  else if cfg.limits.portfolioValue = 0 then
    riskDataUnavailableResult s name "Position state read failed"
  else if cfg.limits.getLimit .maxPositionSizePct s.market <
      proposed * s.priceAtSignal / cfg.limits.portfolioValue * 100 then
    ⟨false, name, "Effective position exceeds its share of the portfolio"⟩
  else ⟨true, name, "Position size within limits"⟩

def validate : RiskValidationResult :=
  match confirmedPosition w, pendingQuantity w with
  | some confirmed, some pending => withinLimits cfg s (confirmed + pending + s.quantity)
  | _, _ => riskDataUnavailableResult s "position_validator" "Position state read failed"

end PositionCheck

namespace ExposureCheck

def exposureOf (rows : List PositionRow) : ℚ :=
  (rows.map fun row => |row.quantity.getD 0| * row.lastPrice.getD 0).sum

/-- `_get_total_exposure` -/
def totalExposure : Option ℚ :=
  if w.dynamo then (readPages w.exposureScan).map exposureOf else none

def withinLimits (proposed : ℚ) : RiskValidationResult :=
  let name := "exposure_validator"
  if cfg.limits.portfolioValue = 0 then
    riskDataUnavailableResult s name "Exposure state read failed"
  else if cfg.limits.portfolioValue *
      (cfg.limits.getLimit .maxTotalExposurePct s.market / 100) < proposed then
    ⟨false, name, "Proposed total exposure exceeds max"⟩
  else ⟨true, name, "Total exposure within limits"⟩

def validate : RiskValidationResult :=
  match totalExposure w with
  | some current => withinLimits cfg s (current + |s.value|)
  | none => riskDataUnavailableResult s "exposure_validator" "Exposure state read failed"

end ExposureCheck

namespace LiquidityCheck

def validate (adv20d : Option ℚ) : RiskValidationResult :=
  let name := "liquidity_validator"
  match adv20d with
  | none => riskDataUnavailableResult s name "LOW_ADV_DATA"
  | some adv =>
    if adv ≤ 0 then riskDataUnavailableResult s name "LOW_ADV_DATA"
    else if 1000000 ≤ adv then ⟨true, name, "Liquid instrument — liquidity check skipped"⟩
    else if cfg.maxOrderAdvPct < s.quantity / adv * 100 then
      ⟨false, name, "Order size exceeds its share of ADV"⟩
    else ⟨true, name, "Order size within threshold"⟩

end LiquidityCheck

namespace SpreadGate

def validate (liveSpreadBps : Option ℚ) : RiskValidationResult :=
  let name := "spread_gate_validator"
  match liveSpreadBps with
  | none => riskDataUnavailableResult s name "STALE_SPREAD_DATA"
  | some spread =>
    if cfg.maxSpreadBps < spread then ⟨false, name, "Spread exceeds max"⟩
    else ⟨true, name, "Spread within threshold"⟩

end SpreadGate

namespace SectorCheck

/-- Also where there is no registry, or its lookup raises. -/
def getSector : String := (cfg.registry s.symbol).getD "UNKNOWN"

def validate (sectorExposures : String → Option ℚ) (portfolioNav : ℚ) : RiskValidationResult :=
  let name := "sector_concentration_validator"
  let sector := getSector cfg s
  if sector = "UNKNOWN" then riskDataUnavailableResult s name "UNKNOWN_SECTOR"
  else if portfolioNav ≤ 0 then
    riskDataUnavailableResult s name "Portfolio NAV is zero — sector check skipped"
  else if cfg.limits.value .maxSectorExposurePct <
      ((sectorExposures sector).getD 0 + |s.value|) / portfolioNav * 100 then
    ⟨false, name, "Sector concentration would exceed max"⟩
  else ⟨true, name, "Sector concentration within limit"⟩

end SectorCheck

namespace MarginCheck

def market : String := if s.market = "" then "UNKNOWN" else s.market.toUpper

/-- `_get_margin_snapshot`; an error is a read that raises. -/
def marginSnapshot (c : Caches) : Except Unit (Option MarginSnapshot) × Caches :=
  let fetched : Except Unit (Option MarginSnapshot) × Caches :=
    match w.getItem (w.margin (market s)) with
    | .failed => (.error (), c)
    | .missing => (.ok none, c)
    | .item a =>
      let snapshot : MarginSnapshot :=
        ⟨a.availableCash.getD 0, a.collateralValue.getD 0, w.mono⟩
      (.ok (some snapshot), { c with margin := Function.update c.margin (market s) snapshot })
  match c.margin (market s) with
  | none => fetched
  | some cached => if w.mono - cached.fetchedAtMono < 5 then (.ok (some cached), c) else fetched

def withinLimits (a : MarginSnapshot) : RiskValidationResult :=
  if a.availableCash + a.collateralValue < s.value * (1 + cfg.marginBufferPct) then
    ⟨false, "margin_validator", "Insufficient margin"⟩
  else ⟨true, "margin_validator", "Sufficient margin available"⟩

def validate (c : Caches) : RiskValidationResult × Caches :=
  let name := "margin_validator"
  match marginSnapshot w s c with
  | (.ok (some snapshot), c) => (withinLimits cfg s snapshot, c)
  | (.ok none, c) => (riskDataUnavailableResult s name "Margin data unavailable", c)
  | (.error _, c) => (riskDataUnavailableResult s name "Margin validation error", c)

end MarginCheck

namespace Slippage

/-- `_get_adv`; none is a read that raises. -/
def getAdv : Option ℚ :=
  match w.getItem w.adv30d with
  | .failed => none
  | .missing => some 0
  | .item adv => some (adv.getD 0)

def spreadCostPct (bid ask : ℚ) : ℚ := (ask - bid) / 2 / ((bid + ask) / 2) * 100

def impactCostPct (adv : ℚ) : ℚ := 1 / 10 * (s.quantity / adv) * 100

/-- `_result`, of a check that does not pass. -/
def overLimit (reason : String) : RiskValidationResult :=
  if cfg.warnOnly && s.paperTrade then ⟨true, "slippage_validator", "[WARN_ONLY] " ++ reason⟩
  else ⟨false, "slippage_validator", reason⟩

def withinLimits (bid ask adv : ℚ) : RiskValidationResult :=
  if cfg.maxSpreadPct < spreadCostPct bid ask then overLimit cfg s "Spread too wide"
  else if cfg.maxAdvPct < s.quantity / adv * 100 then
    overLimit cfg s "Order too large relative to ADV"
  else if cfg.maxTotalCostPct < spreadCostPct bid ask + impactCostPct s adv then
    overLimit cfg s "Total estimated cost too high"
  else ⟨true, "slippage_validator", "Estimated cost within limit"⟩

def validate (bid ask : ℚ) : RiskValidationResult :=
  let name := "slippage_validator"
  if bid ≤ 0 ∨ ask ≤ 0 then
    riskDataUnavailableResult s name "Bid/ask missing; slippage spread check cannot run"
  else match getAdv w with
    | none => riskDataUnavailableResult s name "Slippage validation error"
    | some adv =>
      if adv ≤ 0 then
        riskDataUnavailableResult s name "ADV missing; slippage impact check cannot run"
      else withinLimits cfg s bid ask adv

end Slippage

namespace DailyLoss

/-- `_fetch_realized_pnl_from_db`: the row of the day, or the orders filled while it is
missing. -/
def fetchRealizedPnlFromDb : Option ℚ :=
  match w.getItem w.pnlDay with
  | .failed => none
  | .item pnl => some (pnl.getD 0)
  | .missing => (readPages w.filledOrders).map fun orders => (orders.map (·.getD 0)).sum

/-- `_get_realized_pnl` -/
def realizedPnl (c : Caches) : Option ℚ × Caches :=
  if c.pnl.date ≠ some w.today ∨ 30 ≤ w.mono - c.pnl.fetchedAt then
    match fetchRealizedPnlFromDb w with
    | none => (none, c)
    | some pnl => (some pnl, { c with pnl := ⟨pnl, some w.today, w.mono⟩ })
  else (some c.pnl.realized, c)

/-- `_get_unrealized_pnl` -/
def unrealizedPnl : Option ℚ :=
  if w.dynamo then
    (readPages w.unrealizedScan).map fun rows =>
      (rows.map fun row =>
        row.quantity.getD 0 * (row.lastPrice.getD 0 - row.avgPrice.getD 0)).sum
  else none

def withinLimits (total : ℚ) : RiskValidationResult :=
  let name := "daily_loss_validator"
  if cfg.limits.portfolioValue = 0 then
    riskDataUnavailableResult s name "Daily P&L/NAV state unavailable"
  else if total < 0 ∧ cfg.limits.portfolioValue *
      (cfg.limits.getLimit .maxDailyLossPct s.market / 100) ≤ |total| then
    ⟨false, name, "Daily loss exceeds limit"⟩
  else ⟨true, name, "Daily loss within limits"⟩

def validate (c : Caches) : RiskValidationResult × Caches :=
  let name := "daily_loss_validator"
  match realizedPnl w c with
  | (none, c) => (riskDataUnavailableResult s name "Daily P&L/NAV state unavailable", c)
  | (some realized, c) =>
    match unrealizedPnl w with
    | none => (riskDataUnavailableResult s name "Daily P&L/NAV state unavailable", c)
    | some unrealized => (withinLimits cfg s (realized + unrealized), c)

end DailyLoss

end Validators

end QuantEmbrace.RiskCheck
