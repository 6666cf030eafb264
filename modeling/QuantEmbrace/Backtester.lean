import QuantEmbrace.Lib.KeyedTable
import QuantEmbrace.StrategyBase

/-! The backtester: fills, costs, exits, the loop over the bars, and the closing of what is open
at the end of the data. -/
namespace QuantEmbrace.Backtesting
open Indicators Candles Strategies

/-- What the backtester reads of a signal. -/
structure EntrySignal where
  symbol : String
  market : String
  direction : OrderSide
  quantity : ℤ
  stopLoss : Option ℚ := none
  takeProfit : Option ℚ := none
  generatedAt : ℚ
  deriving DecidableEq, Repr

structure OpenPosition where
  symbol : String
  market : String
  direction : OrderSide
  quantity : ℤ
  entryPrice : ℚ
  entryTime : ℚ
  stopLoss : Option ℚ
  takeProfit : Option ℚ
  entryCommission : ℚ
  entrySlippage : ℚ
  deriving DecidableEq, Repr

structure TradeRecord where
  symbol : String
  market : String
  direction : OrderSide
  entryPrice : ℚ
  exitPrice : ℚ
  quantity : ℤ
  entryTime : ℚ
  exitTime : ℚ
  exitReason : String
  pnl : ℚ
  commission : ℚ
  slippage : ℚ
  deriving DecidableEq, Repr

/-- Percentages of the value of a leg. -/
structure IndianCostModel where
  enabled : Bool := true
  sttSellPct : ℚ := 25 / 1000
  exchangeTxnPct : ℚ := 345 / 100000
  sebiTurnoverPct : ℚ := 1 / 10000
  stampBuyPct : ℚ := 3 / 1000
  gstPct : ℚ := 18
  deriving DecidableEq, Repr

/-- A strategy that answers a bar with its next state and a signal, or raises. -/
structure BarStrategy (σ : Type) where
  initial : σ
  onBar : Bar → σ → Except PyError (σ × Option EntrySignal)

/-- The arguments of the constructor; `date` is the date of a timestamp in the zone of the
bars. -/
structure Backtester where
  initialCapital : ℚ := 1000000
  commissionPct : ℚ := 3 / 100
  allowShort : Bool := false
  slippageBps : ℚ := 0
  spreadBps : ℚ := 0
  maxOrderBarVolumePct : ℚ := 100
  indianCostModel : IndianCostModel := {}
  gapStopBehavior : Bool := true
  date : ℚ → ℤ := fun t => ⌊t / 86400⌋

structure BacktestState (σ : Type) where
  strategy : σ
  cash : ℚ
  openPositions : KeyedTable OpenPosition.symbol := .empty
  pendingSignals : KeyedTable EntrySignal.symbol := .empty
  trades : List TradeRecord := []
  equityCurve : List (ℚ × ℚ) := []
  rejectedOrders : ℕ := 0
  lookaheadViolations : ℕ := 0
  signalsGenerated : ℕ := 0
  buySignals : ℕ := 0
  sellSignals : ℕ := 0
  dailyReturns : List ℚ := []
  prevDay : Option ℤ := none
  prevPortfolioValue : ℚ
  peakValue : ℚ
  maxDdPct : ℚ := 0
  maxDdAbs : ℚ := 0

/-- The side of the fill that closes a position. -/
def exitSide : OrderSide → OrderSide
  | .buy => .sell
  | .sell => .buy

/-- `_position_value`: what is marked for a position at a price. -/
def OpenPosition.value (pos : OpenPosition) (price : ℚ) : ℚ :=
  match pos.direction with
  | .buy => pos.quantity * price
  | .sell => pos.quantity * (pos.entryPrice - price)

namespace Backtester
variable (b : Backtester)

def adverseBps : ℚ := max 0 b.slippageBps + max 0 b.spreadBps / 2

/-- `_apply_execution_price`: the fill price and the slippage of one share. -/
def applyExecutionPrice (referencePrice : ℚ) (side : OrderSide) : ℚ × ℚ :=
  if b.adverseBps ≤ 0 then (referencePrice, 0)
  else
    let direction : ℚ := match side with
      | .buy => 1
      | .sell => -1
    let fillPrice := referencePrice * (1 + direction * b.adverseBps / 10000)
    (fillPrice, |fillPrice - referencePrice|)

/-- `_estimate_costs` of one leg -/
def estimateCosts (tradeValue : ℚ) (side : OrderSide) (market : String) : ℚ :=
  let brokerage := tradeValue * (b.commissionPct / 100)
  let model := b.indianCostModel
  if model.enabled = false ∨ market.toUpper ∉ ["NSE", "BSE"] then brokerage
  else
    let exchange := tradeValue * (model.exchangeTxnPct / 100)
    let sebi := tradeValue * (model.sebiTurnoverPct / 100)
    let stt := match side with
      | .sell => tradeValue * (model.sttSellPct / 100)
      | .buy => 0
    let stamp := match side with
      | .buy => tradeValue * (model.stampBuyPct / 100)
      | .sell => 0
    let gst := (brokerage + exchange + sebi) * (model.gstPct / 100)
    brokerage + exchange + sebi + stt + stamp + gst

/-- `_check_exits`: the reason and the price of an exit on the bar. -/
def checkExits (bar : Bar) (pos : OpenPosition) : Option (String × ℚ) :=
  match pos.direction with
  | .buy =>
    match pos.stopLoss.filter fun stop => bar.low ≤ stop with
    | some stop =>
      if b.gapStopBehavior = true ∧ bar.openPrice < stop then some ("stop_loss_gap", bar.openPrice)
      else some ("stop_loss", stop)
    | none =>
      (pos.takeProfit.filter fun target => target ≤ bar.high).map fun target =>
        ("take_profit", target)
  | .sell =>
    match pos.stopLoss.filter fun stop => stop ≤ bar.high with
    | some stop =>
      if b.gapStopBehavior = true ∧ stop < bar.openPrice then some ("stop_loss_gap", bar.openPrice)
      else some ("stop_loss", stop)
    | none =>
      (pos.takeProfit.filter fun target => bar.low ≤ target).map fun target =>
        ("take_profit", target)

/-- What `_open_position` answers. -/
inductive Opening where
  | lookahead
  | rejected
  | opened (cash : ℚ) (pos : OpenPosition)
  deriving DecidableEq, Repr

/-- The order is larger than the bar allows. -/
def TooLarge (signal : EntrySignal) (bar : Bar) : Prop :=
  0 < max 0 b.maxOrderBarVolumePct ∧ 0 < bar.volume ∧
    bar.volume * max 0 b.maxOrderBarVolumePct / 100 < signal.quantity

instance (signal : EntrySignal) (bar : Bar) : Decidable (b.TooLarge signal bar) :=
  instDecidableAnd

/-- `_open_position` -/
def openPosition (signal : EntrySignal) (bar : Bar) (cash : ℚ) : Opening :=
  if bar.timestamp ≤ signal.generatedAt then .lookahead
  else if signal.direction = .sell ∧ b.allowShort = false then .rejected
  else if b.TooLarge signal bar then .rejected
  else
    let (price, slippage) := b.applyExecutionPrice bar.closePrice signal.direction
    let tradeValue := price * signal.quantity
    let commission := b.estimateCosts tradeValue signal.direction signal.market
    let pos : OpenPosition := {
      symbol := signal.symbol
      market := signal.market
      direction := signal.direction
      quantity := signal.quantity
      entryPrice := price
      entryTime := bar.timestamp
      stopLoss := signal.stopLoss
      takeProfit := signal.takeProfit
      entryCommission := commission
      entrySlippage := slippage * signal.quantity }
    match signal.direction with
    | .buy =>
      if cash < tradeValue + commission then .rejected
      else .opened (cash - (tradeValue + commission)) pos
    | .sell => .opened (cash + (tradeValue - commission)) pos

/-- `_close_position` -/
def closePosition (pos : OpenPosition) (exitPrice : ℚ) (exitReason : String) (exitTime cash : ℚ) :
    TradeRecord × ℚ :=
  let (executed, slippage) := b.applyExecutionPrice exitPrice (exitSide pos.direction)
  let tradeValue := executed * pos.quantity
  let exitCommission := b.estimateCosts tradeValue (exitSide pos.direction) pos.market
  let totalCommission := pos.entryCommission + exitCommission
  let trade : TradeRecord := {
    symbol := pos.symbol
    market := pos.market
    direction := pos.direction
    entryPrice := pos.entryPrice
    exitPrice := executed
    quantity := pos.quantity
    entryTime := pos.entryTime
    exitTime := exitTime
    exitReason := exitReason
    pnl := match pos.direction with
      | .buy => (executed - pos.entryPrice) * pos.quantity - totalCommission
      | .sell => (pos.entryPrice - executed) * pos.quantity - totalCommission
    commission := totalCommission
    slippage := pos.entrySlippage + slippage * pos.quantity }
  match pos.direction with
  | .buy => (trade, cash + (tradeValue - exitCommission))
  | .sell => (trade, cash - (tradeValue + exitCommission))

section Loop
variable {σ : Type} (strategy : BarStrategy σ) (bar : Bar)

/-- Step 1: the stop or the target of the position in the symbol of the bar. -/
def exitStep (s : BacktestState σ) : BacktestState σ :=
  match s.openPositions.get bar.symbol with
  | none => s
  | some pos =>
    match b.checkExits bar pos with
    | none => s
    | some (reason, price) =>
      let closed := b.closePosition pos price reason bar.timestamp s.cash
      { s with
        trades := s.trades ++ [closed.1]
        cash := closed.2
        openPositions := s.openPositions.erase bar.symbol }

/-- The pending signal that is taken up at the bar, if its symbol has no open position. -/
def dueSignal (s : BacktestState σ) : Option EntrySignal :=
  if (s.openPositions.get bar.symbol).isSome then none else s.pendingSignals.get bar.symbol

/-- Step 2: the entry of a signal that an earlier bar left. -/
def entryStep (s : BacktestState σ) : BacktestState σ :=
  match dueSignal bar s with
  | none => s
  | some signal =>
    let s := { s with pendingSignals := s.pendingSignals.erase bar.symbol }
    match b.openPosition signal bar s.cash with
    | .lookahead => { s with
        rejectedOrders := s.rejectedOrders + 1
        lookaheadViolations := s.lookaheadViolations + 1 }
    | .rejected => { s with rejectedOrders := s.rejectedOrders + 1 }
    | .opened cash pos => { s with cash := cash, openPositions := s.openPositions.putNew pos }

/-- The signal is stamped with the bar that produced it. -/
def acceptSignal (signal : EntrySignal) (s : BacktestState σ) : BacktestState σ :=
  { s with
    signalsGenerated := s.signalsGenerated + 1
    buySignals := s.buySignals + (if signal.direction = .buy then 1 else 0)
    sellSignals := s.sellSignals + (if signal.direction = .buy then 0 else 1)
    pendingSignals := s.pendingSignals.put { signal with generatedAt := bar.timestamp } }

/-- Step 3: the strategy sees the bar. -/
def strategyStep (s : BacktestState σ) : Except PyError (BacktestState σ) := do
  let (x, signal) ← strategy.onBar bar s.strategy
  let s := { s with strategy := x }
  return signal.elim s fun signal => acceptSignal bar signal s

/-- The price at which a position is marked; that of another symbol is its entry price. -/
def markPrice (pos : OpenPosition) : ℚ :=
  if pos.symbol = bar.symbol then bar.closePrice else pos.entryPrice

def markToMarket (s : BacktestState σ) : ℚ :=
  s.cash + (s.openPositions.rows.map fun pos => pos.value (markPrice bar pos)).sum

/-- Step 4: the equity point, the daily return at a change of date, and the drawdown. -/
def markStep (s : BacktestState σ) : BacktestState σ :=
  let mtm := markToMarket bar s
  let newDay := s.prevDay.isSome ∧ s.prevDay ≠ some (b.date bar.timestamp)
  let peakValue := max s.peakValue mtm
  let ddAbs := peakValue - mtm
  let ddPct := if 0 < peakValue then ddAbs / peakValue * 100 else 0
  { s with
    equityCurve := s.equityCurve ++ [(bar.timestamp, mtm)]
    dailyReturns := if newDay then
        s.dailyReturns ++ [(mtm - s.prevPortfolioValue) / max s.prevPortfolioValue (1 / 10 ^ 9)]
      else s.dailyReturns
    prevPortfolioValue := if newDay then mtm else s.prevPortfolioValue
    prevDay := some (b.date bar.timestamp)
    peakValue := peakValue
    maxDdPct := if s.maxDdPct < ddPct then ddPct else s.maxDdPct
    maxDdAbs := if s.maxDdPct < ddPct then ddAbs else s.maxDdAbs }

/-- One bar, as far as the strategy is concerned with it. -/
def beforeMark (s : BacktestState σ) : Except PyError (BacktestState σ) :=
  strategyStep strategy bar (b.entryStep bar (b.exitStep bar s))

def barStep (s : BacktestState σ) : Except PyError (BacktestState σ) :=
  b.markStep bar <$> b.beforeMark strategy bar s

/-- The loop over the bars. -/
def replay : List Bar → BacktestState σ → Except PyError (BacktestState σ)
  | [], s => .ok s
  | bar :: bars, s => b.barStep strategy bar s >>= replay bars

def start : BacktestState σ where
  strategy := strategy.initial
  cash := b.initialCapital
  prevPortfolioValue := b.initialCapital
  peakValue := b.initialCapital

/-- The bars from the last one back; the scan ends when it has as many symbols as there are open
positions. -/
def lastBarMap (size : ℕ) : List Bar → KeyedTable Bar.symbol → KeyedTable Bar.symbol
  | [], m => m
  | bar :: bars, m =>
    let m := m.putNew bar
    if m.rows.length = size then m else lastBarMap size bars m

/-- The bar at which a position is closed at the end of the data. -/
def closingBar (bars : List Bar) (last : Bar) (open_ : List OpenPosition) (pos : OpenPosition) :
    Bar :=
  ((lastBarMap open_.length bars.reverse .empty).get pos.symbol).getD last

/-- The trades of the open positions, one after another, and the cash after them. -/
def closeAll (barOf : OpenPosition → Bar) : List OpenPosition → ℚ → List TradeRecord × ℚ
  | [], cash => ([], cash)
  | pos :: rest, cash =>
    let closed := b.closePosition pos (barOf pos).closePrice "eod" (barOf pos).timestamp cash
    let others := closeAll barOf rest closed.2
    (closed.1 :: others.1, others.2)

/-- What `run` reports, of the figures that the loop leaves. -/
structure BacktestResult where
  initialCapital : ℚ
  finalCapital : ℚ
  trades : List TradeRecord := []
  equityCurve : List (ℚ × ℚ) := []
  rejectedOrders : ℕ := 0
  lookaheadViolations : ℕ := 0
  signalsGenerated : ℕ := 0
  buySignals : ℕ := 0
  sellSignals : ℕ := 0
  dailyReturns : List ℚ := []
  maxDdPct : ℚ := 0
  maxDdAbs : ℚ := 0
  deriving DecidableEq, Repr

/-- The end of a run, with its last bar. -/
def finish (bars : List Bar) (last : Bar) (s : BacktestState σ) : BacktestResult :=
  let closed := b.closeAll (closingBar bars last s.openPositions.rows) s.openPositions.rows s.cash
  { s with
    initialCapital := b.initialCapital
    finalCapital := closed.2
    trades := s.trades ++ closed.1 }

def run (bars : List Bar) : Except PyError BacktestResult :=
  match bars.getLast? with
  | none => .ok { initialCapital := b.initialCapital, finalCapital := b.initialCapital }
  | some last => b.finish bars last <$> b.replay strategy bars (b.start strategy)

variable {b strategy bar} {s s' : BacktestState σ}

/-- What the exits of a bar do: nothing, or the trade of the position of its symbol. -/
theorem exitStep_cases (b : Backtester) (bar : Bar) (s : BacktestState σ) :
    b.exitStep bar s = s ∨ ∃ pos reason price, s.openPositions.get bar.symbol = some pos ∧
      b.checkExits bar pos = some (reason, price) ∧
      b.exitStep bar s = { s with
        trades := s.trades ++ [(b.closePosition pos price reason bar.timestamp s.cash).1]
        cash := (b.closePosition pos price reason bar.timestamp s.cash).2
        openPositions := s.openPositions.erase bar.symbol } := by
  rw [exitStep]
  split
  · exact .inl rfl
  · next pos hpos =>
    split
    · exact .inl rfl
    · next reason price hexit => exact .inr ⟨pos, reason, price, hpos, hexit, rfl⟩

/-- A position is for the symbol of its signal, and opened after the signal was produced. -/
theorem openPosition_opened {signal : EntrySignal} {cash cash' : ℚ} {pos : OpenPosition}
    (h : b.openPosition signal bar cash = .opened cash' pos) :
    signal.generatedAt < bar.timestamp ∧ pos.symbol = signal.symbol ∧
      pos.entryTime = bar.timestamp := by
  rw [openPosition] at h
  split at h
  · cases h
  · next hlater =>
    split at h
    · cases h
    · split at h
      · cases h
      · dsimp only at h
        split at h
        · split at h
          · cases h
          · cases h
            exact ⟨not_le.mp hlater, rfl, rfl⟩
        · cases h
          exact ⟨not_le.mp hlater, rfl, rfl⟩

/-- The signal that is due is for the symbol of the bar, which has no open position. -/
theorem dueSignal_some {signal : EntrySignal} (h : dueSignal bar s = some signal) :
    s.openPositions.get bar.symbol = none ∧ s.pendingSignals.get bar.symbol = some signal ∧
      signal.symbol = bar.symbol := by
  rw [dueSignal] at h
  split at h
  · cases h
  · next hfree => exact ⟨by simpa using hfree, h, KeyedTable.key_of_get h⟩

/-- What the entries of a bar do: nothing, a rejection, or a new position. -/
theorem entryStep_cases (b : Backtester) (bar : Bar) (s : BacktestState σ) :
    b.entryStep bar s = s ∨
    (∃ signal v, dueSignal bar s = some signal ∧ b.entryStep bar s = { s with
      pendingSignals := s.pendingSignals.erase bar.symbol
      rejectedOrders := s.rejectedOrders + 1
      lookaheadViolations := v }) ∨
    ∃ signal cash pos, dueSignal bar s = some signal ∧
      b.openPosition signal bar s.cash = .opened cash pos ∧
      s.openPositions.get pos.symbol = none ∧ b.entryStep bar s = { s with
        pendingSignals := s.pendingSignals.erase bar.symbol
        cash := cash
        openPositions := s.openPositions.putNew pos } := by
  rw [entryStep]
  split
  · exact .inl rfl
  · next signal hdue =>
    right
    dsimp only
    split
    · exact .inl ⟨signal, _, hdue, rfl⟩
    · exact .inl ⟨signal, _, hdue, rfl⟩
    · next cash pos hopened =>
      obtain ⟨hfree, -, hsymbol⟩ := dueSignal_some hdue
      have hpos : pos.symbol = bar.symbol := (openPosition_opened hopened).2.1.trans hsymbol
      exact .inr ⟨signal, cash, pos, hdue, hopened, by rw [hpos]; exact hfree, rfl⟩

@[simp] theorem exitStep_strategy : (b.exitStep bar s).strategy = s.strategy := by
  obtain h | ⟨pos, reason, price, -, -, h⟩ := exitStep_cases b bar s <;> rw [h]

@[simp] theorem entryStep_strategy : (b.entryStep bar s).strategy = s.strategy := by
  obtain h | ⟨signal, v, -, h⟩ | ⟨signal, cash, pos, -, -, -, h⟩ :=
      entryStep_cases b bar s <;>
    rw [h]

/-- A bar that goes through: the strategy answers from the state it was in before the bar. -/
theorem barStep_ok (h : b.barStep strategy bar s = .ok s') : ∃ x signal,
    strategy.onBar bar s.strategy = .ok (x, signal) ∧
      s' = b.markStep bar (signal.elim { b.entryStep bar (b.exitStep bar s) with strategy := x }
        fun signal => acceptSignal bar signal
          { b.entryStep bar (b.exitStep bar s) with strategy := x }) := by
  rw [barStep, beforeMark, strategyStep, entryStep_strategy, exitStep_strategy] at h
  cases hanswer : strategy.onBar bar s.strategy with
  | error raised =>
    rw [hanswer] at h
    cases h
  | ok answer =>
    rw [hanswer] at h
    cases h
    exact ⟨answer.1, answer.2, rfl, rfl⟩

theorem replay_append (xs ys : List Bar) (s : BacktestState σ) :
    b.replay strategy (xs ++ ys) s = b.replay strategy xs s >>= b.replay strategy ys := by
  induction xs generalizing s with
  | nil => rfl
  | cons bar xs ih =>
    rw [List.cons_append, replay, replay, bind_assoc]
    congr 1
    funext s'
    exact ih s'

/-- A run that goes through, cut anywhere. -/
theorem replay_append_ok {xs ys : List Bar} (h : b.replay strategy (xs ++ ys) s = .ok s') :
    ∃ m, b.replay strategy xs s = .ok m ∧ b.replay strategy ys m = .ok s' := by
  rw [replay_append] at h
  cases hxs : b.replay strategy xs s with
  | error raised =>
    rw [hxs] at h
    cases h
  | ok m =>
    rw [hxs] at h
    exact ⟨m, rfl, h⟩

theorem replay_cons_ok {bars : List Bar} (h : b.replay strategy (bar :: bars) s = .ok s') :
    ∃ m, b.barStep strategy bar s = .ok m ∧ b.replay strategy bars m = .ok s' := by
  rw [replay] at h
  cases hstep : b.barStep strategy bar s with
  | error raised =>
    rw [hstep] at h
    cases h
  | ok m =>
    rw [hstep] at h
    exact ⟨m, rfl, h⟩

/-- What every bar keeps holds at the end of a run. -/
theorem replay_keeps {P : BacktestState σ → Prop}
    (keep : ∀ bar s s', P s → b.barStep strategy bar s = .ok s' → P s') {bars : List Bar}
    (hs : P s) (h : b.replay strategy bars s = .ok s') : P s' := by
  induction bars generalizing s with
  | nil =>
    cases h
    exact hs
  | cons bar bars ih =>
    obtain ⟨m, hstep, hrest⟩ := replay_cons_ok h
    exact ih (keep bar s m hs hstep) hrest

/-- A run that goes through, and its last bar. -/
theorem run_ok {bars : List Bar} {result : BacktestResult} (hne : bars ≠ [])
    (h : b.run strategy bars = .ok result) :
    ∃ s, b.replay strategy bars (b.start strategy) = .ok s ∧
      result = b.finish bars (bars.getLast hne) s := by
  rw [run, List.getLast?_eq_some_getLast hne] at h
  dsimp only at h
  cases hreplay : b.replay strategy bars (b.start strategy) with
  | error raised =>
    rw [hreplay] at h
    cases h
  | ok s =>
    rw [hreplay] at h
    cases h
    exact ⟨s, rfl, rfl⟩

end Loop

end Backtester
end QuantEmbrace.Backtesting
