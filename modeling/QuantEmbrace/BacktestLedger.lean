import QuantEmbrace.BacktestEquity
import Mathlib.Data.Finset.Card
import Mathlib.Data.Multiset.MapFold

/-! What is left at the end of a backtest: the capital against the trades, the trades against the
positions that were opened, and the bars at which the open positions are closed. -/
namespace QuantEmbrace.Backtesting
open Indicators Candles Strategies

/-- What a trade record repeats of the position it closes. -/
structure EntryData where
  symbol : String
  market : String
  direction : OrderSide
  entryPrice : ℚ
  quantity : ℤ
  entryTime : ℚ
  deriving DecidableEq, Repr

def OpenPosition.entryData (pos : OpenPosition) : EntryData :=
  ⟨pos.symbol, pos.market, pos.direction, pos.entryPrice, pos.quantity, pos.entryTime⟩

def TradeRecord.entryData (trade : TradeRecord) : EntryData :=
  ⟨trade.symbol, trade.market, trade.direction, trade.entryPrice, trade.quantity, trade.entryTime⟩

namespace Backtester
variable {b : Backtester} {σ : Type} {strategy : BarStrategy σ} {bar : Bar}
  {s s' : BacktestState σ}

theorem closePosition_entryData (pos : OpenPosition) (price : ℚ) (reason : String)
    (time cash : ℚ) :
    (b.closePosition pos price reason time cash).1.entryData = pos.entryData := by
  rw [closePosition]
  cases hdirection : pos.direction <;>
    simp [TradeRecord.entryData, OpenPosition.entryData, hdirection]

/-- The record does not depend on the cash. -/
theorem closePosition_record (pos : OpenPosition) (price : ℚ) (reason : String)
    (time cash cash' : ℚ) : (b.closePosition pos price reason time cash).1 =
      (b.closePosition pos price reason time cash').1 := by
  rw [closePosition, closePosition]
  cases pos.direction <;> rfl

/-- The record of a position that is closed at the end of the data, at that bar. -/
def closingTrade (b : Backtester) (pos : OpenPosition) (bar : Bar) : TradeRecord :=
  (b.closePosition pos bar.closePrice "eod" bar.timestamp 0).1

theorem closeAll_trades (barOf : OpenPosition → Bar) (rows : List OpenPosition) (cash : ℚ) :
    (b.closeAll barOf rows cash).1 = rows.map fun pos => b.closingTrade pos (barOf pos) := by
  induction rows generalizing cash with
  | nil => rfl
  | cons pos rows ih =>
    have hrecord : b.closingTrade pos (barOf pos) =
        (b.closePosition pos (barOf pos).closePrice "eod" (barOf pos).timestamp cash).1 :=
      closePosition_record pos _ _ _ _ _
    have hrest := ih (b.closePosition pos (barOf pos).closePrice "eod" (barOf pos).timestamp cash).2
    simp only [closeAll, List.map_cons, hrest, hrecord]

/-- What the closings leave is the cash without what the positions took, and the profit of their
trades. -/
theorem closeAll_cash (barOf : OpenPosition → Bar) (rows : List OpenPosition) (cash : ℚ) :
    (b.closeAll barOf rows cash).2 =
      cash + ((b.closeAll barOf rows cash).1.map TradeRecord.pnl).sum -
        (rows.map OpenPosition.entryCash).sum := by
  induction rows generalizing cash with
  | nil => simp [closeAll]
  | cons pos rows ih =>
    have hcash := closePosition_cash (b := b) pos (barOf pos).closePrice "eod" (barOf pos).timestamp
      cash
    have hrest := ih (b.closePosition pos (barOf pos).closePrice "eod" (barOf pos).timestamp cash).2
    simp only [closeAll, List.map_cons, List.sum_cons]
    linarith

theorem finish_capital {bars : List Bar} (last : Bar) (h : b.Balanced s) :
    (b.finish bars last s).finalCapital =
      b.initialCapital + ((b.finish bars last s).trades.map TradeRecord.pnl).sum := by
  have hclosed := closeAll_cash (b := b) (closingBar bars last s.openPositions.rows)
    s.openPositions.rows s.cash
  rw [Balanced] at h
  simp only [finish, List.map_append, List.sum_append]
  linarith

/-- The position that the entries of a bar open, if any. -/
def opened (b : Backtester) (bar : Bar) (s : BacktestState σ) : Option OpenPosition :=
  (dueSignal bar s).bind fun signal =>
    match b.openPosition signal bar s.cash with
    | .opened _ pos => some pos
    | _ => none

/-- The positions that are opened over a run, in order. -/
def openings (b : Backtester) (strategy : BarStrategy σ) :
    List Bar → BacktestState σ → List OpenPosition
  | [], _ => []
  | bar :: bars, s =>
    match b.barStep strategy bar s with
    | .error _ => []
    | .ok s' => (b.opened bar (b.exitStep bar s)).toList ++ openings b strategy bars s'

/-- All entries on record, of trades and of open positions. -/
def entries (s : BacktestState σ) : Multiset EntryData :=
  ↑(s.trades.map TradeRecord.entryData) + ↑(s.openPositions.rows.map OpenPosition.entryData)

theorem exitStep_entries : entries (b.exitStep bar s) = entries s := by
  obtain heq | ⟨pos, reason, price, hpos, -, heq⟩ := exitStep_cases b bar s
  · rw [heq]
  · have hperm := ((KeyedTable.rows_perm_erase hpos).map OpenPosition.entryData)
    rw [heq, entries, entries, Multiset.coe_add, Multiset.coe_add, Multiset.coe_eq_coe]
    refine List.Perm.trans ?_ (hperm.symm.append_left _)
    rw [List.map_append, List.map_cons, List.map_nil, closePosition_entryData, List.map_cons,
      List.append_assoc, List.singleton_append]

theorem entryStep_rows : (b.entryStep bar s).openPositions.rows =
    s.openPositions.rows ++ (b.opened bar s).toList := by
  rw [opened, entryStep]
  cases hdue : dueSignal bar s with
  | none => simp
  | some signal =>
    rw [Option.bind_some]
    dsimp only
    cases hopened : b.openPosition signal bar s.cash with
    | lookahead => simp
    | rejected => simp
    | opened cash pos =>
      obtain ⟨hfree, -, hsymbol⟩ := dueSignal_some hdue
      have hpos : pos.symbol = bar.symbol := (openPosition_opened hopened).2.1.trans hsymbol
      exact KeyedTable.rows_putNew (by rw [hpos]; exact hfree)

@[simp] theorem entryStep_trades : (b.entryStep bar s).trades = s.trades := by
  obtain h | ⟨signal, v, -, h⟩ | ⟨signal, cash, pos, -, -, -, h⟩ :=
      entryStep_cases b bar s <;>
    rw [h]

theorem opened_symbol {pos : OpenPosition} (h : pos ∈ b.opened bar s) :
    pos.symbol = bar.symbol := by
  rw [opened] at h
  cases hdue : dueSignal bar s with
  | none => simp [hdue] at h
  | some signal =>
    cases hopened : b.openPosition signal bar s.cash with
    | lookahead => simp [hdue, hopened] at h
    | rejected => simp [hdue, hopened] at h
    | opened cash p =>
      have hp : p = pos := by simpa [hdue, hopened] using h
      subst hp
      exact (openPosition_opened hopened).2.1.trans (dueSignal_some hdue).2.2

/-- A bar puts the position it opens on record, and keeps all others. -/
theorem barStep_entries (h : b.barStep strategy bar s = .ok s') : entries s' = entries s +
    ↑((b.opened bar (b.exitStep bar s)).toList.map OpenPosition.entryData) := by
  obtain ⟨x, signal, -, rfl⟩ := barStep_ok h
  have hentered : entries (b.entryStep bar (b.exitStep bar s)) = entries s +
      ↑((b.opened bar (b.exitStep bar s)).toList.map OpenPosition.entryData) := by
    have hexit : entries (b.exitStep bar s) = entries s := exitStep_entries
    rw [← hexit, entries, entries, entryStep_rows, entryStep_trades, List.map_append,
      ← Multiset.coe_add, ← Multiset.add_assoc]
  rw [← hentered]
  cases signal <;> rfl

theorem replay_entries {bars : List Bar} (h : b.replay strategy bars s = .ok s') :
    entries s' = entries s + ↑((b.openings strategy bars s).map OpenPosition.entryData) := by
  induction bars generalizing s with
  | nil =>
    cases h
    simp [openings]
  | cons bar bars ih =>
    obtain ⟨m, hstep, hrest⟩ := replay_cons_ok h
    rw [ih hrest, barStep_entries hstep, openings, hstep, List.map_append, ← Multiset.coe_add,
      Multiset.add_assoc]

/-- Each position on the list of openings was opened at a bar of the run, from the state that the
bars before it leave. -/
theorem mem_openings {bars : List Bar} {pos : OpenPosition}
    (h : pos ∈ b.openings strategy bars s) : ∃ pre bar post m, bars = pre ++ bar :: post ∧
      b.replay strategy pre s = .ok m ∧ pos ∈ b.opened bar (b.exitStep bar m) := by
  induction bars generalizing s with
  | nil => simp [openings] at h
  | cons bar bars ih =>
    rw [openings] at h
    cases hstep : b.barStep strategy bar s with
    | error raised => simp [hstep] at h
    | ok m =>
      rw [hstep] at h
      obtain hnow | hlater := List.mem_append.mp h
      · exact ⟨[], bar, bars, s, rfl, rfl, Option.mem_toList.mp hnow⟩
      · obtain ⟨pre, later, post, m', rfl, hpre, hopened⟩ := ih hlater
        refine ⟨bar :: pre, later, post, m', rfl, ?_, hopened⟩
        rw [replay, hstep]
        exact hpre

theorem start_entries (b : Backtester) (strategy : BarStrategy σ) :
    entries (b.start strategy) = 0 := rfl

/-- The last bar of a symbol. -/
def lastOwn (bars : List Bar) (symbol : String) : Option Bar :=
  bars.reverse.find? fun bar => bar.symbol = symbol

/-- The bars after the last one of a symbol, from the end back. -/
def after (bars : List Bar) (symbol : String) : List Bar :=
  bars.reverse.takeWhile fun bar => bar.symbol ≠ symbol

/-- The symbols that have bars after the last one of a symbol. -/
def laterSymbols (bars : List Bar) (symbol : String) : Finset String :=
  ((after bars symbol).map Bar.symbol).toFinset

/-- The scan keeps the bars it has. -/
theorem lastBarMap_keeps {size : ℕ} {xs : List Bar} {m : KeyedTable Bar.symbol} {symbol : String}
    {own : Bar} (h : m.get symbol = some own) :
    (lastBarMap size xs m).get symbol = some own := by
  induction xs generalizing m with
  | nil => exact h
  | cons bar xs ih =>
    rw [KeyedTable.get_eq_some_iff] at h
    have hput : (m.putNew bar).get symbol = some own :=
      KeyedTable.get_eq_some_iff.mpr ⟨KeyedTable.mem_putNew_of_mem h.1 bar, h.2⟩
    rw [lastBarMap]
    split
    · exact hput
    · exact ih hput

/-- The scan finds the last bar of a symbol exactly if the symbols before it in the scan leave
room in the map. -/
theorem lastBarMap_get {size : ℕ} {xs : List Bar} {m : KeyedTable Bar.symbol} {symbol : String}
    {own : Bar} (hroom : m.rows.length < size) (hnew : m.get symbol = none)
    (hown : xs.find? (fun bar => bar.symbol = symbol) = some own) :
    (lastBarMap size xs m).get symbol =
      if (m.rows.map Bar.symbol ++ (xs.takeWhile fun bar => bar.symbol ≠ symbol).map
        Bar.symbol).toFinset.card < size then some own else none := by
  induction xs generalizing m with
  | nil => simp at hown
  | cons bar xs ih =>
    rw [lastBarMap]
    by_cases hsymbol : bar.symbol = symbol
    · have hbar : bar = own := by simpa [hsymbol] using hown
      have hput : (m.putNew bar).get symbol = some own := by
        have hself := m.get_putNew_self bar
        rw [hsymbol, hnew, Option.none_or] at hself
        rw [hself, hbar]
      have hcard : (m.rows.map Bar.symbol).toFinset.card < size := by
        rwa [List.toFinset_card_of_nodup m.nodup, List.length_map]
      rw [List.takeWhile_cons_of_neg (by simpa using hsymbol), List.map_nil, List.append_nil,
        if_pos hcard]
      split
      · exact hput
      · exact lastBarMap_keeps hput
    · have hput : (m.putNew bar).get symbol = none :=
        (KeyedTable.get_putNew_of_ne (fun hk => hsymbol hk.symm) m).trans hnew
      have hkeys : (((m.putNew bar).rows.map Bar.symbol).toFinset) =
          insert bar.symbol (m.rows.map Bar.symbol).toFinset := KeyedTable.keys_putNew m bar
      have hlength : (m.putNew bar).rows.length ≤ m.rows.length + 1 :=
        KeyedTable.length_putNew m bar
      rw [List.takeWhile_cons_of_pos (by simpa using hsymbol), List.map_cons]
      split
      · next hfull =>
        have hcard : ((m.putNew bar).rows.map Bar.symbol).toFinset.card = size := by
          rw [List.toFinset_card_of_nodup (m.putNew bar).nodup, List.length_map, hfull]
        rw [hput, if_neg]
        rw [not_lt, ← hcard, hkeys]
        refine Finset.card_le_card fun key hkey => ?_
        simp only [Finset.mem_insert, List.mem_toFinset, List.mem_append, List.mem_cons] at hkey ⊢
        tauto
      · next hfull =>
        have hrest : xs.find? (fun bar => bar.symbol = symbol) = some own := by
          simpa [hsymbol] using hown
        rw [ih (by omega) hput hrest]
        congr 3
        rw [List.toFinset_append, hkeys]
        ext key
        simp only [Finset.mem_union, Finset.mem_insert, List.mem_toFinset, List.mem_append,
          List.mem_cons]
        tauto

/-- An open position is closed at its own last bar exactly if fewer other symbols have bars after
that one than there are open positions. -/
theorem closingBar_own {bars : List Bar} {last own : Bar} {rows : List OpenPosition}
    {pos : OpenPosition} (hlast : bars.getLast? = some last) (hpos : pos ∈ rows)
    (hown : lastOwn bars pos.symbol = some own) :
    closingBar bars last rows pos = own ↔ (laterSymbols bars pos.symbol).card < rows.length := by
  have hroom : 0 < rows.length := List.length_pos_of_mem hpos
  have hget := lastBarMap_get (m := .empty) hroom rfl hown
  rw [closingBar, hget]
  change (if (laterSymbols bars pos.symbol).card < rows.length then some own else none).getD last =
    own ↔ _
  by_cases hcard : (laterSymbols bars pos.symbol).card < rows.length
  · simp [hcard]
  · rw [if_neg hcard]
    refine iff_of_false (fun hsame => hcard ?_) hcard
    have hsymbol : own.symbol = pos.symbol := by simpa using List.find?_some hown
    have hhead : bars.reverse.head? = some last := by rw [List.head?_reverse, hlast]
    obtain ⟨rest, hrest⟩ : ∃ rest, bars.reverse = last :: rest := by
      cases hbars : bars.reverse with
      | nil => simp [hbars] at hhead
      | cons x rest =>
        rw [hbars] at hhead
        exact ⟨rest, by rw [Option.some.inj hhead]⟩
    have hlastOwn : last.symbol = pos.symbol := by
      rw [← hsymbol, ← hsame]
      rfl
    rw [laterSymbols, after, hrest, List.takeWhile_cons_of_neg (by simpa using hlastOwn)]
    exact hroom

/-- The symbol of a position that is open at the end has bars. -/
theorem lastOwn_open {bars : List Bar} {pos : OpenPosition}
    (h : b.replay strategy bars (b.start strategy) = .ok s) (hpos : pos ∈ s.openPositions.rows) :
    ∃ own, lastOwn bars pos.symbol = some own := by
  have hentry : pos.entryData ∈ entries s := by
    rw [entries, Multiset.mem_add]
    exact .inr (Multiset.mem_coe.mpr (List.mem_map_of_mem hpos))
  rw [replay_entries h, start_entries, Multiset.zero_add, Multiset.mem_coe, List.mem_map] at hentry
  obtain ⟨p, hp, hsame⟩ := hentry
  obtain ⟨pre, bar, post, m, rfl, -, hopened⟩ := mem_openings hp
  have hsymbol : bar.symbol = pos.symbol :=
    (opened_symbol hopened).symm.trans (congrArg EntryData.symbol hsame)
  rw [← Option.isSome_iff_exists, lastOwn, List.find?_isSome]
  exact ⟨bar, by simp, by simpa using hsymbol⟩

theorem finish_trades (bars : List Bar) (last : Bar) (s : BacktestState σ) :
    (b.finish bars last s).trades = s.trades ++ s.openPositions.rows.map fun pos =>
      b.closingTrade pos (closingBar bars last s.openPositions.rows pos) :=
  congrArg (s.trades ++ ·) (closeAll_trades _ _ _)

/-- The trades of a run are its openings. -/
theorem trades_perm_openings {bars : List Bar} {last : Bar}
    (h : b.replay strategy bars (b.start strategy) = .ok s) :
    ((b.finish bars last s).trades.map TradeRecord.entryData).Perm
      ((b.openings strategy bars (b.start strategy)).map OpenPosition.entryData) := by
  have hentries := replay_entries h
  rw [start_entries, Multiset.zero_add] at hentries
  rw [← Multiset.coe_eq_coe, ← hentries, finish_trades, entries, List.map_append, List.map_map,
    Multiset.coe_add]
  congr 2
  exact List.map_congr_left fun pos _ => closePosition_entryData pos _ _ _ _

/-- The final capital is the initial one and the profit of the trades; the trades are the opened
positions, one for one; and the positions left at the end are each closed at their own last bar
exactly if, for each of them, fewer symbols have bars after that one than positions are left. -/
theorem backtest_reconciles (b : Backtester) (strategy : BarStrategy σ) (bars : List Bar)
    (result : BacktestResult) (h : b.run strategy bars = .ok result) :
    result.finalCapital = b.initialCapital + (result.trades.map TradeRecord.pnl).sum ∧
    (result.trades.map TradeRecord.entryData).Perm
      ((b.openings strategy bars (b.start strategy)).map OpenPosition.entryData) ∧
    ∃ final, b.replay strategy bars (b.start strategy) = .ok final ∧
      ∀ last, bars.getLast? = some last →
        result.trades = final.trades ++ final.openPositions.rows.map (fun pos =>
          b.closingTrade pos (closingBar bars last final.openPositions.rows pos)) ∧
        ((∀ pos ∈ final.openPositions.rows,
            lastOwn bars pos.symbol = some (closingBar bars last final.openPositions.rows pos)) ↔
          ∀ pos ∈ final.openPositions.rows,
            (laterSymbols bars pos.symbol).card < final.openPositions.rows.length) := by
  by_cases hne : bars = []
  · subst hne
    cases h
    exact ⟨by simp, List.Perm.nil, _, rfl, fun last hlast => by simp at hlast⟩
  · obtain ⟨final, hreplay, rfl⟩ := run_ok hne h
    refine ⟨finish_capital _ (replay_balanced hreplay), trades_perm_openings hreplay, final,
      hreplay, fun last hlast => ?_⟩
    have hlasteq : bars.getLast hne = last := by
      rwa [List.getLast?_eq_some_getLast hne, Option.some.injEq] at hlast
    subst hlasteq
    refine ⟨finish_trades bars _ final, forall₂_congr fun pos hpos => ?_⟩
    obtain ⟨own, hown⟩ := lastOwn_open hreplay hpos
    rw [← closingBar_own hlast hpos hown, hown, Option.some.injEq, eq_comm]

/-- Ten shares of one symbol are left, and another symbol has the last bar: the scan stops at that
bar, and the shares are sold at its price and time. -/
theorem closed_at_other_symbol :
    ¬ ∀ (b : Backtester) (strategy : BarStrategy Bool) (bars : List Bar)
      (result : BacktestResult), bars.Pairwise (fun x y => x.timestamp ≤ y.timestamp) →
      b.run strategy bars = .ok result → ∀ trade ∈ result.trades, trade.exitReason = "eod" →
      ∃ own, lastOwn bars trade.symbol = some own ∧ trade.exitTime = own.timestamp ∧
        trade.exitPrice = (b.applyExecutionPrice own.closePrice (exitSide trade.direction)).1 := by
  intro h
  let bars := [flatBar "INFY" 0 100, flatBar "INFY" 1 100, flatBar "TCS" 2 3000]
  let sold : TradeRecord := ⟨"INFY", "NSE", .buy, 100, 3000, 10, 60, 120, "eod", 29000, 0, 0⟩
  have hsold : (freeOfCosts.run (onceAtFirst buyTen) bars).toOption.map
      BacktestResult.trades = some [sold] := by decide +kernel
  cases hrun : freeOfCosts.run (onceAtFirst buyTen) bars with
  | error raised => simp [hrun, Except.toOption] at hsold
  | ok result =>
    simp only [hrun, Except.toOption, Option.map_some, Option.some.injEq] at hsold
    obtain ⟨own, hown, htime, -⟩ := h freeOfCosts (onceAtFirst buyTen) bars result
      (by decide +kernel) hrun sold (by simp [hsold]) rfl
    have hlast : lastOwn bars "INFY" = some (flatBar "INFY" 1 100) := by decide +kernel
    rw [hlast, Option.some.injEq] at hown
    subst hown
    exact absurd htime (by decide +kernel)

/-- With the shares of the only symbol left, the scan reaches their last bar. -/
theorem backtest_reconciles_buyTen : buyTenResult.finalCapital =
    freeOfCosts.initialCapital + (buyTenResult.trades.map TradeRecord.pnl).sum :=
  (backtest_reconciles freeOfCosts (onceAtFirst buyTen) _ _ run_buyTen).1

end Backtester
end QuantEmbrace.Backtesting
