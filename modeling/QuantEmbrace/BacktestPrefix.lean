import QuantEmbrace.BacktestLedger

/-! The backtest does not look ahead: what it has after some bars does not depend on later ones,
and an entry follows the bar that its signal comes from. -/
namespace QuantEmbrace.Backtesting
open Indicators Candles Strategies

namespace Backtester
variable {b : Backtester} {σ : Type} {strategy : BarStrategy σ} {bar : Bar}
  {s s' : BacktestState σ}

/-- The states after each bar; the list ends where the strategy raises. -/
def trace (b : Backtester) (strategy : BarStrategy σ) :
    List Bar → BacktestState σ → List (BacktestState σ)
  | [], _ => []
  | bar :: bars, s =>
    match b.barStep strategy bar s with
    | .error _ => []
    | .ok s' => s' :: trace b strategy bars s'

theorem trace_take (bars : List Bar) (k : ℕ) (s : BacktestState σ) :
    (b.trace strategy bars s).take k = b.trace strategy (bars.take k) s := by
  induction bars generalizing k s with
  | nil => simp [trace]
  | cons bar bars ih =>
    cases k with
    | zero => simp [trace]
    | succ k =>
      rw [List.take_succ_cons, trace, trace]
      cases hstep : b.barStep strategy bar s with
      | error raised => rfl
      | ok s' =>
        dsimp only
        rw [List.take_succ_cons, ih]

/-- A state of the trace, with the bars before and after it. -/
theorem trace_get {bars : List Bar} {k : ℕ} (h : (b.trace strategy bars s)[k]? = some s') :
    k < bars.length ∧ b.replay strategy (bars.take (k + 1)) s = .ok s' := by
  induction bars generalizing k s with
  | nil => simp [trace] at h
  | cons bar bars ih =>
    rw [trace] at h
    cases hstep : b.barStep strategy bar s with
    | error raised => simp [hstep] at h
    | ok m =>
      rw [hstep] at h
      rw [List.take_succ_cons, replay, hstep]
      cases k with
      | zero =>
        cases h
        exact ⟨by simp, rfl⟩
      | succ k =>
        obtain ⟨hk, hreplay⟩ := ih h
        exact ⟨by simpa using hk, hreplay⟩

theorem trace_length {bars : List Bar} (h : b.replay strategy bars s = .ok s') :
    (b.trace strategy bars s).length = bars.length := by
  induction bars generalizing s with
  | nil => rfl
  | cons bar bars ih =>
    obtain ⟨m, hstep, hrest⟩ := replay_cons_ok h
    rw [trace, hstep]
    exact congrArg Nat.succ (ih hrest)

/-- What is reported of a state is kept and added to. -/
structure Extends (s s' : BacktestState σ) : Prop where
  trades : s.trades <+: s'.trades
  equityCurve : s.equityCurve <+: s'.equityCurve
  dailyReturns : s.dailyReturns <+: s'.dailyReturns
  rejectedOrders : s.rejectedOrders ≤ s'.rejectedOrders
  signalsGenerated : s.signalsGenerated ≤ s'.signalsGenerated

theorem Extends.refl (s : BacktestState σ) : Extends s s :=
  ⟨List.prefix_rfl, List.prefix_rfl, List.prefix_rfl, le_rfl, le_rfl⟩

theorem Extends.trans {x y z : BacktestState σ} (h : Extends x y) (h' : Extends y z) :
    Extends x z where
  trades := h.trades.trans h'.trades
  equityCurve := h.equityCurve.trans h'.equityCurve
  dailyReturns := h.dailyReturns.trans h'.dailyReturns
  rejectedOrders := h.rejectedOrders.trans h'.rejectedOrders
  signalsGenerated := h.signalsGenerated.trans h'.signalsGenerated

theorem exitStep_extends (b : Backtester) (bar : Bar) (s : BacktestState σ) :
    Extends s (b.exitStep bar s) := by
  obtain heq | ⟨pos, reason, price, -, -, heq⟩ := exitStep_cases b bar s
  · rw [heq]
    exact .refl s
  · rw [heq]
    exact { Extends.refl s with trades := List.prefix_append _ _ }

theorem entryStep_extends (b : Backtester) (bar : Bar) (s : BacktestState σ) :
    Extends s (b.entryStep bar s) := by
  obtain heq | ⟨signal, v, -, heq⟩ | ⟨signal, cash, pos, -, -, -, heq⟩ := entryStep_cases b bar s
  · rw [heq]
    exact .refl s
  · rw [heq]
    exact { Extends.refl s with rejectedOrders := Nat.le_succ _ }
  · rw [heq]
    exact { Extends.refl s with }

theorem markStep_extends (b : Backtester) (bar : Bar) (s : BacktestState σ) :
    Extends s (b.markStep bar s) where
  trades := List.prefix_rfl
  equityCurve := List.prefix_append _ _
  dailyReturns := by
    rw [markStep]
    split
    · exact List.prefix_append _ _
    · exact List.prefix_rfl
  rejectedOrders := le_rfl
  signalsGenerated := le_rfl

theorem barStep_extends (h : b.barStep strategy bar s = .ok s') : Extends s s' := by
  obtain ⟨x, signal, -, rfl⟩ := barStep_ok h
  refine ((exitStep_extends b bar s).trans (entryStep_extends b bar _)).trans
    (.trans ?_ (markStep_extends b bar _))
  cases signal with
  | none => exact { Extends.refl _ with }
  | some signal => exact { Extends.refl _ with signalsGenerated := Nat.le_succ _ }

theorem replay_extends {bars : List Bar} (h : b.replay strategy bars s = .ok s') :
    Extends s s' :=
  replay_keeps (fun _ _ _ hm hstep => hm.trans (barStep_extends hstep)) (Extends.refl s) h

/-- The signal is the strategy's answer to one of the bars, stamped with that bar. -/
def Produced (b : Backtester) (strategy : BarStrategy σ) (seen : List Bar) (signal : EntrySignal) :
    Prop :=
  ∃ before producer between m x answer, seen = before ++ producer :: between ∧
    b.replay strategy before (b.start strategy) = .ok m ∧
    strategy.onBar producer m.strategy = .ok (x, some answer) ∧
    signal = { answer with generatedAt := producer.timestamp }

theorem Produced.later {seen : List Bar} {signal : EntrySignal}
    (h : Produced b strategy seen signal) (bars : List Bar) :
    Produced b strategy (seen ++ bars) signal := by
  obtain ⟨before, producer, between, m, x, answer, rfl, hm, hanswer, hsignal⟩ := h
  exact ⟨before, producer, between ++ bars, m, x, answer, by simp, hm, hanswer, hsignal⟩

theorem exitStep_pending : (b.exitStep bar s).pendingSignals = s.pendingSignals := by
  obtain h | ⟨pos, reason, price, -, -, h⟩ := exitStep_cases b bar s <;> rw [h]

theorem entryStep_pending {signal : EntrySignal}
    (h : signal ∈ (b.entryStep bar s).pendingSignals.rows) : signal ∈ s.pendingSignals.rows := by
  obtain heq | ⟨due, v, -, heq⟩ | ⟨due, cash, pos, -, -, -, heq⟩ := entryStep_cases b bar s
  · rwa [heq] at h
  · rw [heq] at h
    exact (KeyedTable.mem_erase.mp h).1
  · rw [heq] at h
    exact (KeyedTable.mem_erase.mp h).1

/-- A signal that is pending after a bar was pending before it, or answers it. -/
theorem barStep_pending {signal : EntrySignal} (h : b.barStep strategy bar s = .ok s')
    (hpending : signal ∈ s'.pendingSignals.rows) : signal ∈ s.pendingSignals.rows ∨
      ∃ x answer, strategy.onBar bar s.strategy = .ok (x, some answer) ∧
        signal = { answer with generatedAt := bar.timestamp } := by
  obtain ⟨x, answer, hanswer, rfl⟩ := barStep_ok h
  have hkept (hmem : signal ∈ (b.entryStep bar (b.exitStep bar s)).pendingSignals.rows) :
      signal ∈ s.pendingSignals.rows := by
    have hexit : (b.exitStep bar s).pendingSignals = s.pendingSignals := exitStep_pending
    rw [← hexit]
    exact entryStep_pending hmem
  cases answer with
  | none => exact .inl (hkept hpending)
  | some answer =>
    obtain hold | hnew := KeyedTable.mem_putNew hpending
    · exact .inl (hkept (KeyedTable.mem_erase.mp hold).1)
    · exact .inr ⟨x, answer, hanswer, hnew⟩

/-- Every pending signal was produced at a bar that the run has seen. -/
theorem replay_pending {seen : List Bar}
    (h : b.replay strategy seen (b.start strategy) = .ok s) :
    ∀ signal ∈ s.pendingSignals.rows, Produced b strategy seen signal := by
  induction seen using List.reverseRecOn generalizing s with
  | nil =>
    cases h
    intro signal hsignal
    simp [start, KeyedTable.empty] at hsignal
  | append_singleton seen bar ih =>
    intro signal hsignal
    obtain ⟨m, hm, hlast⟩ := replay_append_ok h
    obtain ⟨after, hstep, hnil⟩ := replay_cons_ok hlast
    cases hnil
    obtain hold | ⟨x, answer, hanswer, heq⟩ := barStep_pending hstep hsignal
    · exact (ih hm signal hold).later [bar]
    · exact ⟨seen, bar, [], m, x, answer, rfl, hm, hanswer, heq⟩

/-- The entry of a position on a bar, for a signal that an earlier bar produced. -/
def FilledLater (b : Backtester) (strategy : BarStrategy σ) (bars : List Bar) (entry : EntryData) :
    Prop :=
  ∃ before producer between bar post m x answer cash cash' pos,
    bars = before ++ producer :: between ++ bar :: post ∧
    b.replay strategy before (b.start strategy) = .ok m ∧
    strategy.onBar producer m.strategy = .ok (x, some answer) ∧
    b.openPosition { answer with generatedAt := producer.timestamp } bar cash =
      .opened cash' pos ∧
    entry = pos.entryData ∧ entry.symbol = answer.symbol ∧ entry.symbol = bar.symbol ∧
    entry.entryTime = bar.timestamp ∧ producer.timestamp < bar.timestamp

theorem opened_filledLater {pre post : List Bar} {pos : OpenPosition}
    (hpre : b.replay strategy pre (b.start strategy) = .ok s)
    (hopened : pos ∈ b.opened bar (b.exitStep bar s)) :
    FilledLater b strategy (pre ++ bar :: post) pos.entryData := by
  have hsymbol := opened_symbol hopened
  rw [opened] at hopened
  cases hdue : dueSignal bar (b.exitStep bar s) with
  | none => simp [hdue] at hopened
  | some signal =>
    cases hopening : b.openPosition signal bar (b.exitStep bar s).cash with
    | lookahead => simp [hdue, hopening] at hopened
    | rejected => simp [hdue, hopening] at hopened
    | opened cash' p =>
      have hp : p = pos := by simpa [hdue, hopening] using hopened
      subst hp
      obtain ⟨-, hpending, -⟩ := dueSignal_some hdue
      rw [exitStep_pending, KeyedTable.get_eq_some_iff] at hpending
      obtain ⟨before, producer, between, m, x, answer, rfl, hm, hanswer, rfl⟩ :=
        replay_pending hpre signal hpending.1
      obtain ⟨hlater, hsame, htime⟩ := openPosition_opened hopening
      exact ⟨before, producer, between, bar, post, m, x, answer, _, cash', p, rfl, hm, hanswer,
        hopening, rfl, hsame, hsymbol, htime, hlater⟩

theorem openings_filledLater {bars : List Bar} {pos : OpenPosition}
    (h : pos ∈ b.openings strategy bars (b.start strategy)) :
    FilledLater b strategy bars pos.entryData := by
  obtain ⟨pre, bar, post, m, rfl, hpre, hopened⟩ := mem_openings h
  exact opened_filledLater hpre hopened

theorem trades_filledLater {bars : List Bar} {last : Bar} {trade : TradeRecord}
    (h : b.replay strategy bars (b.start strategy) = .ok s)
    (htrade : trade ∈ (b.finish bars last s).trades) :
    FilledLater b strategy bars trade.entryData := by
  have hentry := (trades_perm_openings h).mem_iff.mp (List.mem_map_of_mem htrade)
  obtain ⟨pos, hpos, hsame⟩ := List.mem_map.mp hentry
  rw [← hsame]
  exact openings_filledLater hpos

/-- A state of the trace, against the state at the end. -/
theorem trace_extends {bars : List Bar} {k : ℕ} {final : BacktestState σ}
    (h : b.replay strategy bars (b.start strategy) = .ok final)
    (hs : (b.trace strategy bars (b.start strategy))[k]? = some s) :
    Extends s final ∧ final.equityCurve.take (k + 1) = s.equityCurve := by
  obtain ⟨hk, hreplay⟩ := trace_get hs
  obtain ⟨m, hm, hrest⟩ := replay_append_ok
    (show b.replay strategy (bars.take (k + 1) ++ bars.drop (k + 1)) _ = _ by
      rwa [List.take_append_drop])
  cases hreplay.symm.trans hm
  have hextends := replay_extends hrest
  refine ⟨hextends, ?_⟩
  obtain ⟨points, hpoints, hlength⟩ := replay_equityCurve hreplay
  have hcurve : s.equityCurve.length = k + 1 := by
    rw [hpoints, List.length_append, hlength, List.length_take]
    simp [start]
    omega
  rw [← hcurve]
  exact (List.prefix_iff_eq_take.mp hextends.equityCurve).symm

/-- After any number of bars, everything a backtest has (positions, trades, equity points,
counters, the strategy) is the same on any bars that agree so far; the result adds to it; and
every trade was entered on a bar of its symbol later than the bar whose signal it follows. -/
theorem no_lookahead (b : Backtester) (strategy : BarStrategy σ) (bars : List Bar) :
    (∀ bars' k, bars.take k = bars'.take k →
      (b.trace strategy bars (b.start strategy)).take k =
        (b.trace strategy bars' (b.start strategy)).take k) ∧
    ∀ result, b.run strategy bars = .ok result →
      (b.trace strategy bars (b.start strategy)).length = bars.length ∧
      (∀ k s, (b.trace strategy bars (b.start strategy))[k]? = some s →
        result.equityCurve.take (k + 1) = s.equityCurve ∧ s.trades <+: result.trades ∧
        s.dailyReturns <+: result.dailyReturns ∧ s.rejectedOrders ≤ result.rejectedOrders ∧
        s.signalsGenerated ≤ result.signalsGenerated) ∧
      (∀ pos ∈ b.openings strategy bars (b.start strategy),
        FilledLater b strategy bars pos.entryData) ∧
      ∀ trade ∈ result.trades, FilledLater b strategy bars trade.entryData := by
  constructor
  · intro bars' k hagree
    rw [trace_take, trace_take, hagree]
  · intro result h
    by_cases hne : bars = []
    · subst hne
      cases h
      refine ⟨rfl, fun k s hs => ?_, fun pos hpos => openings_filledLater hpos,
        fun trade htrade => ?_⟩
      · simp [trace] at hs
      · simp at htrade
    · obtain ⟨final, hreplay, rfl⟩ := run_ok hne h
      refine ⟨trace_length hreplay, fun k s hs => ?_, fun pos hpos => openings_filledLater hpos,
        fun trade htrade => trades_filledLater hreplay htrade⟩
      obtain ⟨hextends, hcurve⟩ := trace_extends hreplay hs
      exact ⟨hcurve, hextends.trades.trans (List.prefix_append _ _), hextends.dailyReturns,
        hextends.rejectedOrders, hextends.signalsGenerated⟩

/-- The share bought at the second bar follows the signal of the first. -/
theorem no_lookahead_buyTen : ∀ trade ∈ buyTenResult.trades, FilledLater freeOfCosts
    (onceAtFirst buyTen) [flatBar "INFY" 0 100, flatBar "INFY" 1 100] trade.entryData :=
  ((no_lookahead freeOfCosts (onceAtFirst buyTen) _).2 _ run_buyTen).2.2.2

end Backtester
end QuantEmbrace.Backtesting
