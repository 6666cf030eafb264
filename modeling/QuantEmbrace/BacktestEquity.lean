import QuantEmbrace.Backtester
import Mathlib.Tactic.FieldSimp

/-! The cash of a backtest against its trades and open positions, and the points of the equity
curve against what the portfolio was worth. -/
namespace QuantEmbrace.Backtesting
open Indicators Candles Strategies

namespace OpenPosition
variable (pos : OpenPosition)

/-- What the opening of the position added to the cash. -/
def entryCash : ℚ :=
  match pos.direction with
  | .buy => -(pos.quantity * pos.entryPrice) - pos.entryCommission
  | .sell => pos.quantity * pos.entryPrice - pos.entryCommission

/-- The profit of the position at a price, before any costs. -/
def unrealised (price : ℚ) : ℚ :=
  match pos.direction with
  | .buy => pos.quantity * (price - pos.entryPrice)
  | .sell => pos.quantity * (pos.entryPrice - price)

/-- The proceeds of a short sale. -/
def shortProceeds : ℚ :=
  match pos.direction with
  | .buy => 0
  | .sell => pos.quantity * pos.entryPrice

end OpenPosition

namespace Backtester
variable {b : Backtester} {σ : Type} {strategy : BarStrategy σ} {bar : Bar}
  {s s' : BacktestState σ}

theorem openPosition_cash {signal : EntrySignal} {cash cash' : ℚ} {pos : OpenPosition}
    (h : b.openPosition signal bar cash = .opened cash' pos) : cash' = cash + pos.entryCash := by
  rw [openPosition] at h
  split at h
  · cases h
  · split at h
    · cases h
    · split at h
      · cases h
      · dsimp only at h
        split at h
        · next hdirection =>
          split at h
          · cases h
          · cases h
            simp only [OpenPosition.entryCash, hdirection]
            ring
        · next hdirection =>
          cases h
          simp only [OpenPosition.entryCash, hdirection]
          ring

/-- A closing turns what the opening took into the profit of the trade. -/
theorem closePosition_cash (pos : OpenPosition) (price : ℚ) (reason : String) (time cash : ℚ) :
    (b.closePosition pos price reason time cash).2 =
      cash + (b.closePosition pos price reason time cash).1.pnl - pos.entryCash := by
  rw [closePosition]
  cases hdirection : pos.direction with
  | buy =>
    simp only [OpenPosition.entryCash, hdirection]
    ring
  | sell =>
    simp only [OpenPosition.entryCash, hdirection]
    ring

/-- The cash is what the run began with, the profit of its trades, and what the open positions
took and gave. -/
def Balanced (b : Backtester) (s : BacktestState σ) : Prop :=
  s.cash = b.initialCapital + (s.trades.map TradeRecord.pnl).sum +
    (s.openPositions.rows.map OpenPosition.entryCash).sum

theorem exitStep_balanced (h : b.Balanced s) : b.Balanced (b.exitStep bar s) := by
  obtain heq | ⟨pos, reason, price, hpos, -, heq⟩ := exitStep_cases b bar s
  · rwa [heq]
  · have hcash := closePosition_cash (b := b) pos price reason bar.timestamp s.cash
    have hsum := KeyedTable.sum_erase OpenPosition.entryCash hpos
    rw [Balanced] at h
    rw [heq, Balanced]
    simp only [List.map_append, List.map_cons, List.map_nil, List.sum_append, List.sum_cons,
      List.sum_nil]
    linarith

theorem entryStep_balanced (h : b.Balanced s) : b.Balanced (b.entryStep bar s) := by
  rcases entryStep_cases b bar s with
    heq | ⟨signal, v, -, heq⟩ | ⟨signal, cash, pos, -, hopened, hfree, heq⟩
  · rwa [heq]
  · rw [heq]
    exact h
  · have hcash := openPosition_cash hopened
    rw [Balanced] at h
    rw [heq, Balanced]
    simp only [KeyedTable.rows_putNew hfree, List.map_append, List.map_cons, List.map_nil,
      List.sum_append, List.sum_cons, List.sum_nil]
    linarith

theorem barStep_balanced (h : b.Balanced s) (hstep : b.barStep strategy bar s = .ok s') :
    b.Balanced s' := by
  obtain ⟨x, signal, -, rfl⟩ := barStep_ok hstep
  have hentered : b.Balanced (b.entryStep bar (b.exitStep bar s)) :=
    entryStep_balanced (exitStep_balanced h)
  cases signal with
  | none => exact hentered
  | some signal => exact hentered

theorem start_balanced (b : Backtester) (strategy : BarStrategy σ) :
    b.Balanced (b.start strategy) := by
  simp [Balanced, start, KeyedTable.empty]

theorem replay_balanced {bars : List Bar}
    (h : b.replay strategy bars (b.start strategy) = .ok s) : b.Balanced s :=
  replay_keeps (fun _ _ _ => barStep_balanced) (start_balanced b strategy) h

/-- The last close of a symbol among the bars so far. -/
def lastClose (seen : List Bar) (symbol : String) : ℚ :=
  ((seen.reverse.find? fun bar => bar.symbol = symbol).map Bar.closePrice).getD 0

/-- Initial capital, the profit of the trades so far, and for each open position its unrealised
profit at the last close of its symbol less its entry costs. -/
def trueEquity (b : Backtester) (seen : List Bar) (s : BacktestState σ) : ℚ :=
  b.initialCapital + (s.trades.map TradeRecord.pnl).sum +
    (s.openPositions.rows.map fun pos =>
      pos.unrealised (lastClose seen pos.symbol) - pos.entryCommission).sum

/-- The unrealised profit that the mark leaves out: that of a position in another symbol. -/
def unmarked (seen : List Bar) (bar : Bar) (pos : OpenPosition) : ℚ :=
  if pos.symbol = bar.symbol then 0 else pos.unrealised (lastClose seen pos.symbol)

/-- The proceeds of the open short sales make up for the profit that the mark leaves out. -/
def PhantomFree (seen : List Bar) (bar : Bar) (s : BacktestState σ) : Prop :=
  (s.openPositions.rows.map OpenPosition.shortProceeds).sum =
    (s.openPositions.rows.map (unmarked seen bar)).sum

theorem lastClose_self (seen : List Bar) (bar : Bar) :
    lastClose (seen ++ [bar]) bar.symbol = bar.closePrice := by
  simp [lastClose]

/-- What one position is marked at, against what it is worth. -/
theorem value_markPrice (seen : List Bar) (bar : Bar) (pos : OpenPosition) :
    pos.entryCash + pos.value (markPrice bar pos) =
      pos.unrealised (lastClose (seen ++ [bar]) pos.symbol) - pos.entryCommission +
        (pos.shortProceeds - unmarked (seen ++ [bar]) bar pos) := by
  rw [markPrice, unmarked]
  by_cases hsymbol : pos.symbol = bar.symbol
  · rw [if_pos hsymbol, if_pos hsymbol, hsymbol, lastClose_self]
    cases hdirection : pos.direction with
    | buy =>
      simp only [OpenPosition.entryCash, OpenPosition.value, OpenPosition.unrealised,
        OpenPosition.shortProceeds, hdirection]
      ring
    | sell =>
      simp only [OpenPosition.entryCash, OpenPosition.value, OpenPosition.unrealised,
        OpenPosition.shortProceeds, hdirection]
      ring
  · rw [if_neg hsymbol, if_neg hsymbol]
    cases hdirection : pos.direction with
    | buy =>
      simp only [OpenPosition.entryCash, OpenPosition.value, OpenPosition.shortProceeds, hdirection]
      ring
    | sell =>
      simp only [OpenPosition.entryCash, OpenPosition.value, OpenPosition.shortProceeds, hdirection]
      ring

/-- The mark of a balanced state, against its worth. -/
theorem markToMarket_eq (h : b.Balanced s) (seen : List Bar) (bar : Bar) :
    markToMarket bar s = b.trueEquity (seen ++ [bar]) s +
      ((s.openPositions.rows.map OpenPosition.shortProceeds).sum -
        (s.openPositions.rows.map (unmarked (seen ++ [bar]) bar)).sum) := by
  have hrows : ∀ rows : List OpenPosition,
      (rows.map OpenPosition.entryCash).sum +
          (rows.map fun pos => pos.value (markPrice bar pos)).sum =
        (rows.map fun pos =>
          pos.unrealised (lastClose (seen ++ [bar]) pos.symbol) - pos.entryCommission).sum +
        ((rows.map OpenPosition.shortProceeds).sum -
          (rows.map (unmarked (seen ++ [bar]) bar)).sum) := by
    intro rows
    induction rows with
    | nil => simp
    | cons pos rows ih =>
      have hpos := value_markPrice seen bar pos
      simp only [List.map_cons, List.sum_cons]
      linarith
  have hrows := hrows s.openPositions.rows
  rw [Balanced] at h
  rw [markToMarket, trueEquity]
  linarith

@[simp] theorem exitStep_equityCurve : (b.exitStep bar s).equityCurve = s.equityCurve := by
  obtain h | ⟨pos, reason, price, -, -, h⟩ := exitStep_cases b bar s <;> rw [h]

@[simp] theorem entryStep_equityCurve : (b.entryStep bar s).equityCurve = s.equityCurve := by
  obtain h | ⟨signal, v, -, h⟩ | ⟨signal, cash, pos, -, -, -, h⟩ :=
      entryStep_cases b bar s <;>
    rw [h]

/-- A bar adds its own point. -/
theorem barStep_equityCurve (h : b.barStep strategy bar s = .ok s') :
    s'.equityCurve = s.equityCurve ++ [(bar.timestamp, markToMarket bar s')] := by
  obtain ⟨x, signal, -, rfl⟩ := barStep_ok h
  have hkeeps : s.equityCurve = (b.entryStep bar (b.exitStep bar s)).equityCurve := by simp
  rw [hkeeps]
  cases signal <;> rfl

theorem replay_equityCurve {bars : List Bar} (h : b.replay strategy bars s = .ok s') :
    ∃ points, s'.equityCurve = s.equityCurve ++ points ∧ points.length = bars.length := by
  induction bars generalizing s with
  | nil =>
    cases h
    exact ⟨[], by simp, rfl⟩
  | cons bar bars ih =>
    obtain ⟨m, hstep, hrest⟩ := replay_cons_ok h
    obtain ⟨points, hpoints, hlength⟩ := ih hrest
    rw [barStep_equityCurve hstep, List.append_assoc] at hpoints
    exact ⟨_, hpoints, by simp [hlength]⟩

/-- The point of a bar is the mark of the state after it. -/
theorem point_of_bar {pre post : List Bar}
    (h : b.replay strategy (pre ++ bar :: post) (b.start strategy) = .ok s) :
    ∃ m, b.replay strategy (pre ++ [bar]) (b.start strategy) = .ok m ∧
      s.equityCurve[pre.length]? = some (bar.timestamp, markToMarket bar m) := by
  rw [List.append_cons] at h
  obtain ⟨m, hseen, hrest⟩ := replay_append_ok h
  refine ⟨m, hseen, ?_⟩
  obtain ⟨before, hbefore, hlast⟩ := replay_append_ok hseen
  obtain ⟨after, hstep, hnil⟩ := replay_cons_ok hlast
  cases hnil
  obtain ⟨points, hpoints, hlength⟩ := replay_equityCurve hbefore
  obtain ⟨later, hlater, -⟩ := replay_equityCurve hrest
  have hpoints : before.equityCurve = points := by simpa [start] using hpoints
  rw [hlater, barStep_equityCurve hstep, hpoints, ← hlength]
  simp

/-- Every point of the equity curve is what the portfolio is worth exactly if, at its bar, the
proceeds of the open short sales equal the unrealised profit of the open positions in other
symbols than that of the bar. -/
theorem equity_point_iff (b : Backtester) (strategy : BarStrategy σ) (bars : List Bar)
    (result : BacktestResult) (h : b.run strategy bars = .ok result) :
    result.equityCurve.length = bars.length ∧
    ∀ pre bar post, bars = pre ++ bar :: post → ∃ s value,
      b.replay strategy (pre ++ [bar]) (b.start strategy) = .ok s ∧
      result.equityCurve[pre.length]? = some (bar.timestamp, value) ∧
      (value = b.trueEquity (pre ++ [bar]) s ↔ PhantomFree (pre ++ [bar]) bar s) := by
  by_cases hne : bars = []
  · subst hne
    cases h
    exact ⟨rfl, fun pre bar post heq => absurd heq (by simp)⟩
  · obtain ⟨final, hreplay, rfl⟩ := run_ok hne h
    constructor
    · obtain ⟨points, hpoints, hlength⟩ := replay_equityCurve hreplay
      change final.equityCurve.length = bars.length
      rw [hpoints, ← hlength]
      simp [start]
    · rintro pre bar post rfl
      obtain ⟨s, hseen, hpoint⟩ := point_of_bar hreplay
      refine ⟨s, _, hseen, hpoint, ?_⟩
      rw [markToMarket_eq (replay_balanced hseen) pre bar, PhantomFree]
      constructor
      · intro heq
        linarith
      · intro heq
        linarith

/-- A strategy that signals at its first bar only. -/
def onceAtFirst (signal : EntrySignal) : BarStrategy Bool where
  initial := false
  onBar _ fired := .ok (true, if fired then none else some signal)

/-- A bar without range at one minute. -/
def flatBar (symbol : String) (minute : ℕ) (price : ℚ) : Bar where
  symbol := symbol
  market := "NSE"
  openPrice := price
  high := price
  low := price
  closePrice := price
  volume := 100000
  timestamp := 60 * minute
  interval := "minute"

def freeOfCosts : Backtester where
  initialCapital := 100000
  commissionPct := 0
  allowShort := true
  indianCostModel := { enabled := false }

def shortTen : EntrySignal where
  symbol := "INFY"
  market := "NSE"
  direction := .sell
  quantity := 10
  generatedAt := 0

/-- Ten shares sold short at 100 and marked at 100 add a thousand to the equity. -/
theorem short_sale_phantom_profit :
    ¬ ∀ (b : Backtester) (strategy : BarStrategy Bool) (bars : List Bar) (result : BacktestResult),
      b.run strategy bars = .ok result → ∀ pre bar post, bars = pre ++ bar :: post →
      ∀ s value, b.replay strategy (pre ++ [bar]) (b.start strategy) = .ok s →
      result.equityCurve[pre.length]? = some (bar.timestamp, value) →
      value = b.trueEquity (pre ++ [bar]) s := by
  intro h
  let bars := [flatBar "INFY" 0 100, flatBar "INFY" 1 100]
  have hcurve : (freeOfCosts.run (onceAtFirst shortTen) bars).toOption.map
      BacktestResult.equityCurve = some [(0, 100000), (60, 101000)] := by decide +kernel
  have hworth : (freeOfCosts.replay (onceAtFirst shortTen) bars
      (freeOfCosts.start (onceAtFirst shortTen))).toOption.map
        (freeOfCosts.trueEquity bars) = some 100000 := by decide +kernel
  cases hrun : freeOfCosts.run (onceAtFirst shortTen) bars with
  | error raised => simp [hrun, Except.toOption] at hcurve
  | ok result =>
    cases hreplay : freeOfCosts.replay (onceAtFirst shortTen) bars
        (freeOfCosts.start (onceAtFirst shortTen)) with
    | error raised => simp [hreplay, Except.toOption] at hworth
    | ok s =>
      simp only [hrun, hreplay, Except.toOption, Option.map_some, Option.some.injEq]
        at hcurve hworth
      have hpoint := h freeOfCosts (onceAtFirst shortTen) bars result hrun
        [flatBar "INFY" 0 100] (flatBar "INFY" 1 100) [] rfl s 101000 hreplay
        (by rw [hcurve]; decide +kernel)
      exact absurd (hpoint.trans hworth) (by decide +kernel)

def buyTen : EntrySignal := { shortTen with direction := .buy }

def buyTenResult : BacktestResult where
  initialCapital := 100000
  finalCapital := 100000
  trades := [⟨"INFY", "NSE", .buy, 100, 100, 10, 60, 60, "eod", 0, 0, 0⟩]
  equityCurve := [(0, 100000), (60, 100000)]
  signalsGenerated := 1
  buySignals := 1

theorem run_buyTen : freeOfCosts.run (onceAtFirst buyTen)
    [flatBar "INFY" 0 100, flatBar "INFY" 1 100] = .ok buyTenResult := by
  have hsome : (freeOfCosts.run (onceAtFirst buyTen)
      [flatBar "INFY" 0 100, flatBar "INFY" 1 100]).toOption = some buyTenResult := by
    decide +kernel
  cases hrun : freeOfCosts.run (onceAtFirst buyTen)
      [flatBar "INFY" 0 100, flatBar "INFY" 1 100] with
  | error raised => simp [hrun, Except.toOption] at hsome
  | ok result =>
    rw [hrun] at hsome
    exact congrArg Except.ok (Option.some.inj hsome)

/-- The same shares bought are marked at what they are worth. -/
theorem equity_point_iff_buyTen : ∃ s value,
    freeOfCosts.replay (onceAtFirst buyTen) [flatBar "INFY" 0 100, flatBar "INFY" 1 100]
      (freeOfCosts.start (onceAtFirst buyTen)) = .ok s ∧
    buyTenResult.equityCurve[1]? = some (60, value) ∧
    (value = freeOfCosts.trueEquity [flatBar "INFY" 0 100, flatBar "INFY" 1 100] s ↔
      PhantomFree [flatBar "INFY" 0 100, flatBar "INFY" 1 100] (flatBar "INFY" 1 100) s) := by
  have h := (equity_point_iff freeOfCosts (onceAtFirst buyTen) _ _ run_buyTen).2
    [flatBar "INFY" 0 100] (flatBar "INFY" 1 100) [] rfl
  rwa [show (flatBar "INFY" 1 100).timestamp = 60 by decide +kernel] at h

end Backtester
end QuantEmbrace.Backtesting
