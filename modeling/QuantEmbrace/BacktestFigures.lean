import QuantEmbrace.BacktestLedger
import QuantEmbrace.Lib.EquityCurve
import Mathlib.Algebra.Order.BigOperators.Group.List
import Mathlib.Tactic.LinearCombination

/-! The figures that a backtest reports about its equity curve and its trades: the drawdown, the
daily returns and the trade statistics. -/
namespace QuantEmbrace.Backtesting
open Indicators Candles Strategies

namespace Backtester
variable {b : Backtester} {σ : Type} {strategy : BarStrategy σ} {bar : Bar}
  {s s' : BacktestState σ}

/-- The equity points alone. -/
def marks (curve : List (ℚ × ℚ)) : List ℚ := curve.map Prod.snd

def tracker (s : BacktestState σ) : EquityCurve.Tracker ℚ := ⟨s.peakValue, s.maxDdPct, s.maxDdAbs⟩

@[simp] theorem exitStep_tracker : tracker (b.exitStep bar s) = tracker s := by
  obtain h | ⟨pos, reason, price, -, -, h⟩ := exitStep_cases b bar s <;> rw [h]
  rfl

@[simp] theorem entryStep_tracker : tracker (b.entryStep bar s) = tracker s := by
  obtain h | ⟨signal, v, -, h⟩ | ⟨signal, cash, pos, -, -, -, h⟩ :=
      entryStep_cases b bar s <;>
    rw [h] <;> rfl

/-- A bar shows its own point to the tracker. -/
theorem barStep_tracker (h : b.barStep strategy bar s = .ok s') :
    tracker s' = (tracker s).see (markToMarket bar s') := by
  obtain ⟨x, signal, -, rfl⟩ := barStep_ok h
  have hkeeps : tracker s = tracker (b.entryStep bar (b.exitStep bar s)) := by simp
  rw [hkeeps]
  cases signal <;> rfl

theorem replay_tracker {bars : List Bar}
    (h : b.replay strategy bars (b.start strategy) = .ok s) :
    tracker s = EquityCurve.track b.initialCapital (marks s.equityCurve) := by
  refine replay_keeps (P := fun s =>
    tracker s = EquityCurve.track b.initialCapital (marks s.equityCurve)) ?_ rfl h
  intro bar s s' hs hstep
  rw [barStep_tracker hstep, barStep_equityCurve hstep, hs, marks, marks, List.map_append,
    List.map_singleton, EquityCurve.track_snoc]

/-- The reported drawdown is the worst fall from the highest point so far, the initial capital
included, or zero where there is none; the reported amount is that of the first point that falls
so deep; and no point that is not negative lies deeper below an earlier one. -/
theorem max_drawdown_exact (b : Backtester) (strategy : BarStrategy σ) (bars : List Bar)
    (result : BacktestResult) (h : b.run strategy bars = .ok result) :
    IsGreatest (insert 0 (EquityCurve.falls b.initialCapital (marks result.equityCurve)))
      result.maxDdPct ∧
    (0 < result.maxDdPct → ∃ pre v, pre ++ [v] <+: marks result.equityCurve ∧
      result.maxDdPct = EquityCurve.fallPct (EquityCurve.peakOf b.initialCapital (pre ++ [v])) v ∧
      result.maxDdAbs = EquityCurve.peakOf b.initialCapital (pre ++ [v]) - v ∧
      ∀ d ∈ EquityCurve.falls b.initialCapital pre, d < result.maxDdPct) ∧
    ∀ x y, [x, y].Sublist (b.initialCapital :: marks result.equityCurve) → 0 ≤ y →
      EquityCurve.fallPct x y ≤ result.maxDdPct := by
  have htracked : ∃ peak, EquityCurve.track b.initialCapital (marks result.equityCurve) =
      ⟨peak, result.maxDdPct, result.maxDdAbs⟩ := by
    by_cases hne : bars = []
    · subst hne
      cases h
      exact ⟨b.initialCapital, rfl⟩
    · obtain ⟨final, hreplay, rfl⟩ := run_ok hne h
      exact ⟨final.peakValue, (replay_tracker hreplay).symm⟩
  obtain ⟨peak, htracked⟩ := htracked
  have hgreatest := EquityCurve.worstPct_isGreatest b.initialCapital (marks result.equityCurve)
  rw [htracked] at hgreatest
  refine ⟨hgreatest, fun hpos => ?_, fun x y hxy hy => ?_⟩
  · have hfirst := EquityCurve.worstAbs_first b.initialCapital (marks result.equityCurve)
    rw [htracked] at hfirst
    exact hfirst hpos
  · have hpair := EquityCurve.fallPct_le_worstPct hxy hy
    rwa [htracked] at hpair

/-- The points at a change of date. -/
def dayOpenings (date : ℚ → ℤ) : List (ℚ × ℚ) → List (ℚ × ℚ)
  | [] => []
  | [_] => []
  | p :: q :: rest =>
    if date q.1 = date p.1 then dayOpenings date (q :: rest)
    else q :: dayOpenings date (q :: rest)

/-- The point opens a day if the one before it has another date. -/
theorem dayOpenings_snoc (date : ℚ → ℤ) (curve : List (ℚ × ℚ)) (p : ℚ × ℚ) :
    dayOpenings date (curve ++ [p]) = dayOpenings date curve ++
      let prevDay := curve.getLast?.map fun q => date q.1
      if prevDay.isSome ∧ prevDay ≠ some (date p.1) then [p] else [] := by
  induction curve with
  | nil => rfl
  | cons q curve ih =>
    cases curve with
    | nil =>
      by_cases hsame : date p.1 = date q.1
      · simp [dayOpenings, hsame]
      · simp [dayOpenings, hsame, Ne.symm hsame]
    | cons r curve =>
      simp only [List.cons_append, dayOpenings, List.getLast?_cons_cons] at ih ⊢
      rw [ih]
      split <;> rfl

/-- The daily figures of a state against its equity curve. -/
structure DailyFigures (b : Backtester) (s : BacktestState σ) : Prop where
  prevDay : s.prevDay = s.equityCurve.getLast?.map fun p => b.date p.1
  prevPortfolioValue : s.prevPortfolioValue =
    (marks (dayOpenings b.date s.equityCurve)).getLastD b.initialCapital
  dailyReturns : s.dailyReturns = EquityCurve.returns (1 / 10 ^ 9) b.initialCapital
    (marks (dayOpenings b.date s.equityCurve))

/-- The steps before the mark leave the daily figures alone. -/
theorem DailyFigures.beforeMark (h : DailyFigures b s) (hsame : s'.equityCurve = s.equityCurve ∧
    s'.prevDay = s.prevDay ∧ s'.prevPortfolioValue = s.prevPortfolioValue ∧
    s'.dailyReturns = s.dailyReturns) : DailyFigures b s' := by
  obtain ⟨hcurve, hday, hvalue, hreturns⟩ := hsame
  constructor
  · rw [hday, hcurve, h.prevDay]
  · rw [hvalue, hcurve, h.prevPortfolioValue]
  · rw [hreturns, hcurve, h.dailyReturns]

theorem exitStep_daily (h : DailyFigures b s) : DailyFigures b (b.exitStep bar s) := by
  obtain heq | ⟨pos, reason, price, -, -, heq⟩ := exitStep_cases b bar s
  · rwa [heq]
  · rw [heq]
    exact h.beforeMark ⟨rfl, rfl, rfl, rfl⟩

theorem entryStep_daily (h : DailyFigures b s) : DailyFigures b (b.entryStep bar s) := by
  obtain heq | ⟨signal, v, -, heq⟩ | ⟨signal, cash, pos, -, -, -, heq⟩ := entryStep_cases b bar s
  · rwa [heq]
  · rw [heq]
    exact h.beforeMark ⟨rfl, rfl, rfl, rfl⟩
  · rw [heq]
    exact h.beforeMark ⟨rfl, rfl, rfl, rfl⟩

/-- The mark adds a return exactly where its point opens a day. -/
theorem markStep_daily (h : DailyFigures b s) : DailyFigures b (b.markStep bar s) := by
  have hopenings : marks (dayOpenings b.date (b.markStep bar s).equityCurve) =
      marks (dayOpenings b.date s.equityCurve) ++
        if s.prevDay.isSome ∧ s.prevDay ≠ some (b.date bar.timestamp) then
          [markToMarket bar s] else [] := by
    rw [h.prevDay]
    change marks (dayOpenings b.date (s.equityCurve ++ [(bar.timestamp, markToMarket bar s)])) = _
    rw [dayOpenings_snoc, marks, List.map_append]
    dsimp only
    split <;> rfl
  constructor
  · simp [markStep]
  · rw [hopenings, markStep]
    dsimp only
    split
    · simp
    · simpa using h.prevPortfolioValue
  · rw [hopenings, markStep]
    dsimp only
    split
    · rw [EquityCurve.returns_snoc, ← h.prevPortfolioValue, ← h.dailyReturns]
    · simpa using h.dailyReturns

theorem barStep_daily (h : DailyFigures b s) (hstep : b.barStep strategy bar s = .ok s') :
    DailyFigures b s' := by
  obtain ⟨x, signal, -, rfl⟩ := barStep_ok hstep
  have hbefore : DailyFigures b (b.entryStep bar (b.exitStep bar s)) :=
    entryStep_daily (exitStep_daily h)
  refine markStep_daily (hbefore.beforeMark ?_)
  cases signal <;> exact ⟨rfl, rfl, rfl, rfl⟩

theorem replay_daily {bars : List Bar}
    (h : b.replay strategy bars (b.start strategy) = .ok s) : DailyFigures b s :=
  replay_keeps (fun _ _ _ => barStep_daily) ⟨rfl, rfl, rfl⟩ h

/-- There is one return for each change of date between successive bars. From marks at the
changes of date that are not below the least base, the returns compound from the initial capital
to the mark of the first bar of the last day. -/
theorem daily_returns_compound (b : Backtester) (strategy : BarStrategy σ) (bars : List Bar)
    (result : BacktestResult) (h : b.run strategy bars = .ok result) :
    result.dailyReturns.length = (dayOpenings b.date result.equityCurve).length ∧
    ((∀ v ∈ (b.initialCapital :: marks (dayOpenings b.date result.equityCurve)).dropLast,
        1 / 10 ^ 9 ≤ v) →
      b.initialCapital * (result.dailyReturns.map (1 + ·)).prod =
        (marks (dayOpenings b.date result.equityCurve)).getLastD b.initialCapital) := by
  have hreturns : result.dailyReturns = EquityCurve.returns (1 / 10 ^ 9) b.initialCapital
      (marks (dayOpenings b.date result.equityCurve)) := by
    by_cases hne : bars = []
    · subst hne
      cases h
      rfl
    · obtain ⟨final, hreplay, rfl⟩ := run_ok hne h
      exact (replay_daily hreplay).dailyReturns
  rw [hreturns]
  refine ⟨by simp [marks], fun hmarks => ?_⟩
  exact EquityCurve.returns_compound (by norm_num) hmarks

/-- What `_compute_trade_metrics` reports; no `profitFactor` stands for infinity. -/
structure TradeMetrics where
  totalTrades : ℕ
  totalCommission : ℚ
  totalSlippage : ℚ
  winRate : ℚ := 0
  avgWin : ℚ := 0
  avgLoss : ℚ := 0
  largestWin : ℚ := 0
  largestLoss : ℚ := 0
  profitFactor : Option ℚ := some 0
  deriving DecidableEq, Repr

def wins (trades : List TradeRecord) : List ℚ :=
  (trades.map TradeRecord.pnl).filter fun pnl => 0 < pnl

def losses (trades : List TradeRecord) : List ℚ :=
  (trades.map TradeRecord.pnl).filter fun pnl => pnl ≤ 0

/-- `_compute_trade_metrics` -/
def computeTradeMetrics (trades : List TradeRecord) : TradeMetrics :=
  let counted : TradeMetrics := {
    totalTrades := trades.length
    totalCommission := (trades.map TradeRecord.commission).sum
    totalSlippage := (trades.map TradeRecord.slippage).sum }
  if trades = [] then counted
  else
    let grossLoss := |(losses trades).sum|
    { counted with
      winRate := (wins trades).length / trades.length * 100
      avgWin := if wins trades = [] then 0 else (wins trades).sum / (wins trades).length
      avgLoss := if losses trades = [] then 0 else (losses trades).sum / (losses trades).length
      largestWin := (wins trades).max?.getD 0
      largestLoss := (losses trades).min?.getD 0
      profitFactor := if 0 < grossLoss then some ((wins trades).sum / grossLoss) else none }

/-- `total_return_pct` -/
def totalReturnPct (result : BacktestResult) : ℚ :=
  (result.finalCapital - result.initialCapital) / result.initialCapital * 100

/-- Every trade is counted on one side. -/
theorem wins_losses_perm (trades : List TradeRecord) :
    (wins trades ++ losses trades).Perm (trades.map TradeRecord.pnl) := by
  have hlosses : losses trades =
      (trades.map TradeRecord.pnl).filter fun pnl => !decide (0 < pnl) := by
    rw [losses]
    exact List.filter_congr fun pnl _ => by rw [← decide_not, decide_eq_decide, not_lt]
  rw [hlosses]
  exact List.filter_append_perm _ _

theorem wins_losses_sum (trades : List TradeRecord) :
    (wins trades).sum + (losses trades).sum = (trades.map TradeRecord.pnl).sum := by
  rw [← List.sum_append]
  exact (wins_losses_perm trades).sum_eq

theorem wins_losses_length (trades : List TradeRecord) :
    ((wins trades).length : ℚ) + (losses trades).length = trades.length := by
  have hlength := (wins_losses_perm trades).length_eq
  rw [List.length_append, List.length_map] at hlength
  exact_mod_cast hlength

theorem losses_sum_nonpos (trades : List TradeRecord) : (losses trades).sum ≤ 0 := by
  have hle : ∀ pnl ∈ losses trades, pnl ≤ 0 := fun pnl hpnl => by
    simpa using (List.mem_filter.mp hpnl).2
  simpa using List.sum_le_card_nsmul _ _ hle

/-- An average times its count is the total, on either side. -/
theorem length_mul_average (xs : List ℚ) :
    xs.length * (if xs = [] then 0 else xs.sum / xs.length) = xs.sum := by
  split
  · next hnil => simp [hnil]
  · next hsome =>
    exact mul_div_cancel₀ _ (Nat.cast_ne_zero.mpr (mt List.eq_nil_of_length_eq_zero hsome))

/-- The rates and averages weigh up to the profit of all trades. -/
theorem expectancy (trades : List TradeRecord) :
    let m := computeTradeMetrics trades
    m.totalTrades * (m.winRate * m.avgWin + (100 - m.winRate) * m.avgLoss) =
      100 * (trades.map TradeRecord.pnl).sum := by
  by_cases hnil : trades = []
  · simp [computeTradeMetrics, hnil]
  · have hpos : (trades.length : ℚ) ≠ 0 :=
      Nat.cast_ne_zero.mpr (mt List.eq_nil_of_length_eq_zero hnil)
    have hlength := wins_losses_length trades
    have hsum := wins_losses_sum trades
    have hwins := length_mul_average (wins trades)
    have hlosses := length_mul_average (losses trades)
    simp only [computeTradeMetrics, if_neg hnil]
    generalize (if wins trades = [] then (0 : ℚ) else _) = avgWin at hwins ⊢
    generalize (if losses trades = [] then (0 : ℚ) else _) = avgLoss at hlosses ⊢
    have hrate : (trades.length : ℚ) * ((wins trades).length / trades.length * 100) =
        100 * (wins trades).length := by
      field_simp
    calc (trades.length : ℚ) * ((wins trades).length / trades.length * 100 * avgWin +
          (100 - (wins trades).length / trades.length * 100) * avgLoss)
        = 100 * ((wins trades).length * avgWin +
            (trades.length - (wins trades).length) * avgLoss) := by
          linear_combination (avgWin - avgLoss) * hrate
      _ = 100 * ((wins trades).length * avgWin + (losses trades).length * avgLoss) := by
          rw [← hlength, add_sub_cancel_left]
      _ = 100 * (trades.map TradeRecord.pnl).sum := by rw [hwins, hlosses, hsum]

theorem losses_sum_eq_zero_iff (trades : List TradeRecord) :
    (losses trades).sum = 0 ↔ ∀ trade ∈ trades, 0 ≤ trade.pnl := by
  induction trades with
  | nil => simp [losses]
  | cons trade trades ih =>
    have hrest := losses_sum_nonpos trades
    rw [List.forall_mem_cons, ← ih]
    by_cases hlost : trade.pnl ≤ 0
    · have hcons : (losses (trade :: trades)).sum = trade.pnl + (losses trades).sum := by
        simp [losses, hlost]
      rw [hcons]
      constructor
      · intro hzero
        exact ⟨by linarith, by linarith⟩
      · intro ⟨hpnl, hzero⟩
        linarith
    · have hcons : losses (trade :: trades) = losses trades := by simp [losses, hlost]
      rw [hcons]
      exact ⟨fun hzero => ⟨(not_le.mp hlost).le, hzero⟩, And.right⟩

/-- The factor is infinite exactly if there are trades and none of them lost. -/
theorem profitFactor_none_iff (trades : List TradeRecord) :
    (computeTradeMetrics trades).profitFactor = none ↔
      trades ≠ [] ∧ ∀ trade ∈ trades, 0 ≤ trade.pnl := by
  rw [← losses_sum_eq_zero_iff]
  by_cases hnil : trades = []
  · simp [computeTradeMetrics, hnil]
  · simp [computeTradeMetrics, hnil]

theorem one_lt_profitFactor_iff {trades : List TradeRecord} {factor : ℚ}
    (h : (computeTradeMetrics trades).profitFactor = some factor) :
    1 < factor ↔ 0 < (trades.map TradeRecord.pnl).sum := by
  by_cases hnil : trades = []
  · subst hnil
    cases h
    simp
  · have hsum := wins_losses_sum trades
    have hlosses := losses_sum_nonpos trades
    simp only [computeTradeMetrics, if_neg hnil, abs_of_nonpos hlosses] at h
    split at h
    · next hpos =>
      rw [Option.some.injEq] at h
      rw [← h, one_lt_div hpos]
      constructor
      · intro hmore
        linarith
      · intro hmore
        linarith
    · cases h

/-- The rates and averages of the trades weigh up to the reported return; a finite profit factor
is above one exactly on a gain; and it is infinite exactly if there are trades and none lost. -/
theorem trade_metrics_reconcile (b : Backtester) (strategy : BarStrategy σ) (bars : List Bar)
    (result : BacktestResult) (hcapital : 0 < b.initialCapital)
    (h : b.run strategy bars = .ok result) :
    let m := computeTradeMetrics result.trades
    m.totalTrades * (m.winRate * m.avgWin + (100 - m.winRate) * m.avgLoss) =
      b.initialCapital * totalReturnPct result ∧
    (∀ factor, m.profitFactor = some factor → (1 < factor ↔ 0 < totalReturnPct result)) ∧
    (m.profitFactor = none ↔ result.trades ≠ [] ∧ ∀ trade ∈ result.trades, 0 ≤ trade.pnl) := by
  have hfinal : result.initialCapital = b.initialCapital ∧
      result.finalCapital = b.initialCapital + (result.trades.map TradeRecord.pnl).sum := by
    by_cases hne : bars = []
    · subst hne
      cases h
      simp
    · obtain ⟨final, hreplay, rfl⟩ := run_ok hne h
      exact ⟨rfl, finish_capital _ (replay_balanced hreplay)⟩
  obtain ⟨hinitial, hfinal⟩ := hfinal
  have hreturn : b.initialCapital * totalReturnPct result =
      100 * (result.trades.map TradeRecord.pnl).sum := by
    rw [totalReturnPct, hinitial, hfinal]
    field_simp
    ring
  refine ⟨by rw [hreturn]; exact expectancy result.trades, fun factor hfactor => ?_,
    profitFactor_none_iff result.trades⟩
  rw [one_lt_profitFactor_iff hfactor]
  constructor
  · intro hgain
    exact (mul_pos_iff_of_pos_left hcapital).mp (by linarith)
  · intro hgain
    linarith [mul_pos hcapital hgain]

/-- Ten shares bought at 100, and marked and sold at 60 a day later. -/
def fallenResult : BacktestResult where
  initialCapital := 100000
  finalCapital := 99600
  trades := [⟨"INFY", "NSE", .buy, 100, 60, 10, 60, 86400, "eod", -400, 0, 0⟩]
  equityCurve := [(0, 100000), (60, 100000), (86400, 99600)]
  signalsGenerated := 1
  buySignals := 1
  dailyReturns := [-1 / 250]
  maxDdPct := 2 / 5
  maxDdAbs := 400

theorem run_fallen : freeOfCosts.run (onceAtFirst buyTen)
    [flatBar "INFY" 0 100, flatBar "INFY" 1 100, flatBar "INFY" 1440 60] = .ok fallenResult := by
  have hsome : (freeOfCosts.run (onceAtFirst buyTen)
      [flatBar "INFY" 0 100, flatBar "INFY" 1 100, flatBar "INFY" 1440 60]).toOption =
        some fallenResult := by
    decide +kernel
  cases hrun : freeOfCosts.run (onceAtFirst buyTen)
      [flatBar "INFY" 0 100, flatBar "INFY" 1 100, flatBar "INFY" 1440 60] with
  | error raised => simp [hrun, Except.toOption] at hsome
  | ok result =>
    rw [hrun] at hsome
    exact congrArg Except.ok (Option.some.inj hsome)

theorem max_drawdown_fallen : IsGreatest
    (insert 0 (EquityCurve.falls 100000 [100000, 100000, 99600])) (2 / 5 : ℚ) :=
  (max_drawdown_exact freeOfCosts (onceAtFirst buyTen) _ _ run_fallen).1

theorem daily_returns_fallen : 100000 * ((fallenResult.dailyReturns.map (1 + ·)).prod) =
    (marks (dayOpenings freeOfCosts.date fallenResult.equityCurve)).getLastD 100000 :=
  (daily_returns_compound freeOfCosts (onceAtFirst buyTen) _ _ run_fallen).2 (by decide +kernel)

theorem trade_metrics_fallen :
    ((computeTradeMetrics fallenResult.trades).profitFactor = none ↔
      fallenResult.trades ≠ [] ∧ ∀ trade ∈ fallenResult.trades, 0 ≤ trade.pnl) :=
  (trade_metrics_reconcile freeOfCosts (onceAtFirst buyTen) _ _ (by decide +kernel)
    run_fallen).2.2

end Backtester
end QuantEmbrace.Backtesting
