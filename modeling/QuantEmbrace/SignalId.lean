import QuantEmbrace.EmissionGate
import QuantEmbrace.EntryBlock
import QuantEmbrace.Lib.IsoFormat

/-! The identifier of a signal: the text that is hashed, and where its time comes from on the tick
path and on the candle path. -/
namespace QuantEmbrace.Strategies
open Indicators RiskCheck Candles IsoFormat

/-- A signal as it is published. -/
structure TimedSignal extends Signal where
  generatedAt : DateTime
  deriving DecidableEq, Repr

/-- `Direction.value` -/
def directionValue : OrderSide → String
  | .buy => "BUY"
  | .sell => "SELL"

/-- `f"{x:.4f}"` -/
def fixed4 (x : ℚ) : List Char :=
  let n := (roundHalfEven (x * 10 ^ 4)).natAbs
  (if x < 0 then ['-'] else []) ++ (Nat.toDigits 10 (n / 10000) ++ '.' :: pad 4 (n % 10000))

namespace TimedSignal
variable (s : TimedSignal)

/-- The five fields that are joined, and hashed. -/
def idFields : List (List Char) :=
  [s.strategyName.toList, s.symbol.toList, (directionValue s.direction).toList,
    fixed4 s.priceAtSignal, s.generatedAt.aware.isoformat]

def idText : List Char := List.intercalate ['|'] s.idFields

/-- `_make_deterministic_signal_id`; `sha256` answers in hexadecimal digits. -/
def deterministicId (sha256 : List Char → List Char) : List Char := (sha256 s.idText).take 32

end TimedSignal

theorem roundHalfEven_nonneg {x : ℚ} (h : 0 ≤ x) : 0 ≤ roundHalfEven x := by
  have hfloor : 0 ≤ ⌊x⌋ := Int.floor_nonneg.mpr h
  rw [roundHalfEven]
  split
  · exact hfloor
  · split
    · omega
    · split <;> omega

theorem roundHalfEven_nonpos {x : ℚ} (h : x < 0) : roundHalfEven x ≤ 0 := by
  have hfloor : ⌊x⌋ < 0 := Int.floor_lt.mpr (by exact_mod_cast h)
  rw [roundHalfEven]
  split
  · omega
  · split
    · omega
    · split <;> omega

theorem not_mem_toDigits {c : Char} (h : c.isDigit = false) (n : ℕ) : c ∉ Nat.toDigits 10 n :=
  fun hc => by
    rw [Nat.isDigit_of_mem_toDigits (by decide) (by decide) hc] at h
    cases h

theorem not_mem_fixed4 {c : Char} (hdigit : c.isDigit = false) (hsign : c ≠ '-') (hpoint : c ≠ '.')
    (x : ℚ) : c ∉ fixed4 x := by
  rw [fixed4]
  split <;> simp [not_mem_toDigits hdigit, not_mem_pad hdigit, hsign, hpoint]

theorem cons_ne_toDigits {c : Char} (h : c.isDigit = false) (n : ℕ) (s t : List Char) :
    c :: s ≠ Nat.toDigits 10 n ++ t := by
  obtain ⟨d, ds, hds⟩ := List.exists_cons_of_ne_nil (Nat.toDigits_ne_nil (n := n) (b := 10))
  have hmem := not_mem_toDigits h n
  rw [hds] at hmem ⊢
  rintro ⟨⟩
  simp at hmem

/-- Four decimals are what the text of a price shows. -/
theorem fixed4_inj {x y : ℚ} (h : fixed4 x = fixed4 y) : roundTo 4 x = roundTo 4 y := by
  have hdigits : ∀ {m n : ℕ}, Nat.toDigits 10 (m / 10000) ++ '.' :: pad 4 (m % 10000) =
      Nat.toDigits 10 (n / 10000) ++ '.' :: pad 4 (n % 10000) → m = n := by
    intro m n heq
    have hpoint : '.' ∉ Nat.toDigits 10 (m / 10000) := not_mem_toDigits (by decide) _
    have hpad : '.' ∉ pad 4 (m % 10000) := not_mem_pad (by decide) _ _
    obtain ⟨hwhole, -, hparts⟩ := (List.append_cons_inj_of_notMem hpoint hpad).mp heq
    have hwhole := congrArg (Nat.ofDigitChars 10 · 0) hwhole
    simp only [Nat.ofDigitChars_ten_toDigits] at hwhole
    have hparts := pad_inj (by omega) (by omega) hparts
    omega
  have hnat : (roundHalfEven (x * 10 ^ 4)).natAbs = (roundHalfEven (y * 10 ^ 4)).natAbs ∧
      (x < 0 ↔ y < 0) := by
    rw [fixed4, fixed4] at h
    by_cases hx : x < 0
    · by_cases hy : y < 0
      · rw [if_pos hx, if_pos hy] at h
        exact ⟨hdigits (List.append_cancel_left h), by simp [hx, hy]⟩
      · rw [if_pos hx, if_neg hy] at h
        exact absurd h (cons_ne_toDigits (by decide) _ _ _)
    · by_cases hy : y < 0
      · rw [if_neg hx, if_pos hy] at h
        exact absurd h.symm (cons_ne_toDigits (by decide) _ _ _)
      · rw [if_neg hx, if_neg hy] at h
        exact ⟨hdigits h, by simp [hx, hy]⟩
  have hround : roundHalfEven (x * 10 ^ 4) = roundHalfEven (y * 10 ^ 4) := by
    by_cases hx : x < 0
    · have hnegx := roundHalfEven_nonpos (x := x * 10 ^ 4) (by linarith)
      have hnegy := roundHalfEven_nonpos (x := y * 10 ^ 4) (by linarith [hnat.2.mp hx])
      omega
    · have hy : ¬ y < 0 := fun hy => hx (hnat.2.mpr hy)
      have hposx := roundHalfEven_nonneg (x := x * 10 ^ 4) (by linarith)
      have hposy := roundHalfEven_nonneg (x := y * 10 ^ 4) (by linarith)
      omega
  rw [roundTo, roundTo, hround]

theorem directionValue_injective : Function.Injective directionValue := by
  intro d d' h
  cases d <;> cases d' <;> first | rfl | exact absurd h (by decide)

/-- A name or a symbol without the separator. -/
def Unseparated (text : String) : Prop := '|' ∉ text.toList

instance (text : String) : Decidable (Unseparated text) := instDecidableNot

namespace TimedSignal

theorem idFields_unseparated {s : TimedSignal} (hname : Unseparated s.strategyName)
    (hsymbol : Unseparated s.symbol) : ∀ w ∈ s.idFields, '|' ∉ w := by
  have hdirection : '|' ∉ (directionValue s.direction).toList := by
    cases s.direction <;> decide
  have hprice := not_mem_fixed4 (c := '|') (by decide) (by decide) (by decide) s.priceAtSignal
  have htime := DateTime.not_mem_isoformat (c := '|') (by decide) (by decide) s.generatedAt.aware
  simp only [idFields, List.forall_mem_cons, List.not_mem_nil, false_imp_iff, implies_true,
    and_true]
  exact ⟨hname, hsymbol, hdirection, hprice, htime⟩

/-- Some hash tells two texts apart. -/
theorem exists_deterministicId_ne {s s' : TimedSignal} (h : s.idText ≠ s'.idText) :
    ∃ sha256, s.deterministicId sha256 ≠ s'.deterministicId sha256 := by
  refine ⟨fun text => if text = s.idText then ['0'] else [], ?_⟩
  rw [deterministicId, deterministicId, if_pos rfl, if_neg (Ne.symm h)]
  decide

/-- One text belongs to one strategy, symbol, direction, price to four decimals and time. -/
theorem idText_inj {s s' : TimedSignal} (hname : Unseparated s.strategyName)
    (hsymbol : Unseparated s.symbol) (hname' : Unseparated s'.strategyName)
    (hsymbol' : Unseparated s'.symbol) (h : s.idText = s'.idText) :
    s.strategyName = s'.strategyName ∧ s.symbol = s'.symbol ∧ s.direction = s'.direction ∧
      roundTo 4 s.priceAtSignal = roundTo 4 s'.priceAtSignal ∧
      s.generatedAt.aware = s'.generatedAt.aware := by
  have hfields := intercalate_inj (idFields_unseparated hname hsymbol)
    (idFields_unseparated hname' hsymbol') (by simp [idFields]) (by simp [idFields]) h
  simp only [idFields, List.cons.injEq, and_true] at hfields
  obtain ⟨hname, hsymbol, hdirection, hprice, htime⟩ := hfields
  exact ⟨String.toList_inj.mp hname, String.toList_inj.mp hsymbol,
    directionValue_injective (String.toList_inj.mp hdirection), fixed4_inj hprice,
    DateTime.isoformat_injective htime⟩

end TimedSignal

/-- A tick as it comes from the topic, or from the retry topic. -/
structure Tick where
  symbol : String
  price : ℚ
  volume : ℤ
  timestamp : DateTime
  deriving DecidableEq, Repr

/-- A signal as a strategy constructs it, with the time it passes to the constructor, if any. -/
structure Draft extends Signal where
  givenTime : Option DateTime
  deriving DecidableEq, Repr

/-- `Signal(...)`: the default of `generated_at` is the clock. -/
def Draft.construct (utcNow : DateTime) (d : Draft) : TimedSignal :=
  ⟨d.toSignal, d.givenTime.getD utcNow⟩

/-- A strategy that is fed ticks: what `on_tick` and `generate_signal` make of one. A signal that
was constructed at an earlier tick has its time. -/
structure TickStrategy (σ : Type*) where
  symbols : List String
  respond : Tick → σ → σ × Except PyError (Option Draft)

/-- One processing of an input: the runner's gate, the clocks, and what else may hold a signal
back. -/
structure Processing where
  gate : Gate
  began : Moment
  ended : Moment
  utcNow : DateTime
  suppressSignals : Bool
  entryBlocked : Bool

namespace TickStrategy
variable {σ : Type*} (s : TickStrategy σ)

/-- `process_tick` for one runner, up to the signal that is published. -/
def processTick (p : Processing) (tick : Tick) (x : σ) : Option TimedSignal :=
  if tick.symbol ∉ s.symbols then none
  else if p.suppressSignals = true ∨ p.entryBlocked = true then none
  else
    match (s.respond tick x).2 with
    | .ok (some draft) =>
      let signal := draft.construct p.utcNow
      (p.gate.dispatch p.began p.ended (.ok (some signal.toSignal))).returned.map fun passed =>
        { signal with toSignal := passed }
    | _ => none

/-- Any two processings of the tick in that state publish under one identifier. -/
def IdsAgree (tick : Tick) (x : σ) : Prop :=
  ∀ (sha256 : List Char → List Char) (p p' : Processing) (signal signal' : TimedSignal),
    s.processTick p tick x = some signal → s.processTick p' tick x = some signal' →
    signal.deterministicId sha256 = signal'.deterministicId sha256

/-- The signal of the tick, if there is one, has a time of its own. -/
def GivesTime (tick : Tick) (x : σ) : Prop :=
  tick.symbol ∈ s.symbols → ∀ draft, (s.respond tick x).2 = .ok (some draft) →
    draft.givenTime.isSome = true

variable {s} {tick : Tick} {x : σ} {p : Processing} {signal : TimedSignal}

/-- What is published is the draft, with the flag and the time put in. -/
theorem processTick_signal (h : s.processTick p tick x = some signal) :
    tick.symbol ∈ s.symbols ∧ ∃ draft, (s.respond tick x).2 = .ok (some draft) ∧ ∃ flag,
      signal = ⟨{ draft.toSignal with paperTrade := flag }, draft.givenTime.getD p.utcNow⟩ := by
  rw [processTick] at h
  split at h
  · cases h
  · next hwatched =>
    split at h
    · cases h
    · split at h
      · next draft hdraft =>
        obtain ⟨passed, hpassed, rfl⟩ := Option.map_eq_some_iff.mp h
        obtain ⟨flag, rfl⟩ := Gate.dispatch_returned_eq hpassed
        exact ⟨not_not.mp hwatched, draft, hdraft, flag, rfl⟩
      · cases h

/-- The UTC clock at some second of one minute. -/
def clockAt (second : Fin 60) : DateTime := ⟨2026, 1, 5, 9, 20, second, 0, some utc, by decide⟩

/-- An unhindered processing at that time. -/
def plainly (utcNow : DateTime) : Processing where
  gate := { config := {}, capDate := 0 }
  began := ⟨0, 0⟩
  ended := ⟨0, 0⟩
  utcNow := utcNow
  suppressSignals := false
  entryBlocked := false

theorem processTick_plainly {draft : Draft} (hwatched : tick.symbol ∈ s.symbols)
    (hdraft : (s.respond tick x).2 = .ok (some draft)) (utcNow : DateTime) :
    s.processTick (plainly utcNow) tick x =
      some ⟨{ draft.toSignal with paperTrade := true }, draft.givenTime.getD utcNow⟩ := by
  rw [processTick, if_neg (not_not.mpr hwatched), hdraft]
  rfl

/-- The text shows the time, whatever the other fields are. -/
theorem idText_time {signal : Signal} {t u : DateTime}
    (h : TimedSignal.idText ⟨signal, t⟩ = TimedSignal.idText ⟨signal, u⟩) : t.aware = u.aware := by
  simp only [TimedSignal.idText, TimedSignal.idFields, List.intercalate_cons_cons,
    List.intercalate_singleton] at h
  simpa using DateTime.isoformat_injective (by simpa using h)

theorem idsAgree_iff : s.IdsAgree tick x ↔ s.GivesTime tick x := by
  constructor
  · intro hagree hwatched draft hdraft
    by_contra hnone
    have htime : draft.givenTime = none := by simpa using hnone
    have hpublished := processTick_plainly hwatched hdraft
    rw [htime] at hpublished
    obtain ⟨sha256, hne⟩ := @TimedSignal.exists_deterministicId_ne
      ⟨{ draft.toSignal with paperTrade := true }, clockAt 0⟩
      ⟨{ draft.toSignal with paperTrade := true }, clockAt 1⟩
      fun htext => absurd (idText_time htext) (by decide)
    exact hne (hagree sha256 _ _ _ _ (hpublished (clockAt 0)) (hpublished (clockAt 1)))
  · intro hgives sha256 p p' signal signal' h h'
    obtain ⟨hwatched, draft, hdraft, flag, rfl⟩ := processTick_signal h
    obtain ⟨-, draft', hdraft', flag', rfl⟩ := processTick_signal h'
    rw [hdraft] at hdraft'
    cases hdraft'
    obtain ⟨t, ht⟩ := Option.isSome_iff_exists.mp (hgives hwatched draft hdraft)
    rw [ht]
    rfl

end TickStrategy

namespace Scalp1mStrategy
variable {p : Scalp1mStrategy} {bar : Bar} {now now' : ℚ} {r : ScalpRolling}

/-- The time is looked at by the filter of stale candles only. -/
theorem filters_eq {c : Crossing} {v v' : ℚ × ℚ} (h : p.filters ⟨bar, now⟩ r c = some v)
    (h' : p.filters ⟨bar, now'⟩ r c = some v') : v = v' := by
  obtain ⟨_, -, h⟩ := Option.bind_eq_some_iff.mp h
  obtain ⟨_, -, h'⟩ := Option.bind_eq_some_iff.mp h'
  exact Option.some.inj (h.symm.trans h')

theorem candidate_eq {v v' : OrderSide × Outcome} (h : p.candidate ⟨bar, now⟩ r = some v)
    (h' : p.candidate ⟨bar, now'⟩ r = some v') : v = v' := by
  simp only [candidate, Option.bind_eq_bind, Option.bind_eq_some_iff] at h h'
  obtain ⟨_, _, ⟨c, direction⟩, hcross, ⟨atr, confidence⟩, hfilters, h⟩ := h
  obtain ⟨_, _, crossed', hcross', filtered', hfilters', h'⟩ := h'
  rw [hcross] at hcross'
  cases hcross'
  cases filters_eq hfilters hfilters'
  exact Option.some.inj (h.symm.trans h')

/-- What a signal of a bar comes from. -/
theorem onBar_signal {e : Dispatch} {x : Session SignalCount ScalpRolling} {signal : Signal}
    (h : Outcome.signal (p.onBar e x).2 = some signal) : ∃ direction,
      p.candidate e (p.append e.bar x.rolling) = some (direction, .ok (some signal)) := by
  rw [onBar] at h
  split at h
  · cases h
  · next direction outcome hcandidate =>
    split at h
    · cases h
    · split at h
      · cases h
      · next produced =>
        cases h
        exact ⟨direction, hcandidate⟩

end Scalp1mStrategy

/-- A bar that gives a signal at two times gives the same one. -/
theorem Registered.onBar_signal_eq (r : Registered) (bar : Bar) (now now' : ℚ)
    (x : Session r.Daily r.Rolling) {signal signal' : Signal}
    (h : Outcome.signal (r.strategy.onBar ⟨bar, now⟩ x).2 = some signal)
    (h' : Outcome.signal (r.strategy.onBar ⟨bar, now'⟩ x).2 = some signal') :
    signal = signal' := by
  cases r with
  | scalp1m p =>
    obtain ⟨direction, hcandidate⟩ := Scalp1mStrategy.onBar_signal h
    obtain ⟨direction', hcandidate'⟩ := Scalp1mStrategy.onBar_signal h'
    cases Scalp1mStrategy.candidate_eq hcandidate hcandidate'
    rfl
  | momentum p => exact Option.some.inj (h.symm.trans h')
  | orb p => exact Option.some.inj (h.symm.trans h')
  | vwapReversion p sqrt => exact Option.some.inj (h.symm.trans h')
  | intradayTrend15m p => exact Option.some.inj (h.symm.trans h')
  | preCloseMomentum p => exact Option.some.inj (h.symm.trans h')

namespace Engine
variable {ι : Type*} {reg : ι → Registered}

/-- A candle at one runner: the signal is stamped with the close time of its candle, as the
`datetime` of that time. -/
def candleSignal (datetime : ℚ → DateTime) (s : Engine reg) (candle : CandleResult) (poll : ℚ)
    (blocked : ι → Bool) (now : Moment) (i : ι) : Option TimedSignal :=
  (s.published ⟨.candle ⟨candle.toBar, poll⟩, blocked, now⟩ i).map fun signal =>
    ⟨signal, datetime candle.candleCloseTime⟩

/-- Two services, one of them perhaps the other after a restart, in which the strategy is in the
same state: whatever they publish for the candle has one identifier. -/
def CandleIdsAgree (reg : ι → Registered) (i : ι) (candle : CandleResult) : Prop :=
  ∀ (sha256 : List Char → List Char) (datetime : ℚ → DateTime) (config config' : ι → StrategyConfig)
    (today today' : ℤ) (arrivals arrivals' : List (Arrival ι)) (poll poll' : ℚ)
    (blocked blocked' : ι → Bool) (now now' : Moment) (signal signal' : TimedSignal),
    ((start reg config today).run arrivals i).strategy =
      ((start reg config' today').run arrivals' i).strategy →
    ((start reg config today).run arrivals).candleSignal datetime candle poll blocked now i =
      some signal →
    ((start reg config' today').run arrivals').candleSignal datetime candle poll' blocked' now' i =
      some signal' →
    signal.deterministicId sha256 = signal'.deterministicId sha256

theorem candleIdsAgree (reg : ι → Registered) (i : ι) (candle : CandleResult) :
    CandleIdsAgree reg i candle := by
  intro sha256 datetime config config' today today' arrivals arrivals' poll poll' blocked blocked'
    now now' signal signal' hstate h h'
  have hsettled := settled_run (s := start reg config today) (i := i)
    (Runner.settled_start (reg i) (config i) today) arrivals
  have hsettled' := settled_run (s := start reg config' today') (i := i)
    (Runner.settled_start (reg i) (config' i) today') arrivals'
  obtain ⟨published, hpublished, rfl⟩ := Option.map_eq_some_iff.mp h
  obtain ⟨published', hpublished', rfl⟩ := Option.map_eq_some_iff.mp h'
  obtain ⟨-, _, produced, ⟨⟩, hproduced, rfl⟩ := hsettled.process_signal hpublished
  obtain ⟨-, _, produced', ⟨⟩, hproduced', rfl⟩ := hsettled'.process_signal hpublished'
  rw [← hstate] at hproduced'
  rw [(reg i).onBar_signal_eq _ _ _ _ hproduced hproduced']
  rfl

end Engine

/-- Signals that differ in one of the five fields do not share a text. -/
def TextsSeparate : Prop :=
  ∀ signal signal' : TimedSignal,
    Unseparated signal.strategyName → Unseparated signal.symbol →
    Unseparated signal'.strategyName → Unseparated signal'.symbol →
    signal.idText = signal'.idText →
    signal.strategyName = signal'.strategyName ∧ signal.symbol = signal'.symbol ∧
      signal.direction = signal'.direction ∧
      roundTo 4 signal.priceAtSignal = roundTo 4 signal'.priceAtSignal ∧
      signal.generatedAt.aware = signal'.generatedAt.aware

/-- A candle is published under one identifier however often it is processed, and different
signals have different texts; a tick is published under one identifier exactly if the strategy
gives its signal a time. -/
theorem signal_id_replayed {σ ι : Type*} (s : TickStrategy σ) (tick : Tick) (x : σ)
    (reg : ι → Registered) (i : ι) (candle : CandleResult) :
    (s.IdsAgree tick x ↔ s.GivesTime tick x) ∧ Engine.CandleIdsAgree reg i candle ∧
      TextsSeparate :=
  ⟨TickStrategy.idsAgree_iff, Engine.candleIdsAgree reg i candle,
    fun _ _ hname hsymbol hname' hsymbol' => TimedSignal.idText_inj hname hsymbol hname' hsymbol'⟩

/-- A strategy that buys at every tick of INFY, and leaves the time to the constructor. -/
def buyEveryTick : TickStrategy Unit where
  symbols := ["INFY"]
  respond tick x := (x, .ok (some {
    symbol := tick.symbol
    market := "NSE"
    direction := .buy
    quantity := 10
    confidence := 7 / 10
    strategyName := "momentum"
    priceAtSignal := tick.price
    stopLoss := tick.price - 2
    takeProfit := tick.price + 4
    metadata := []
    givenTime := none }))

def infyTick : Tick := ⟨"INFY", 100, 10, TickStrategy.clockAt 0⟩

/-- One tick, redelivered a second later, is published under two identifiers. -/
theorem redelivered_tick_two_ids : ∃ signal signal' : TimedSignal,
    buyEveryTick.processTick (TickStrategy.plainly (TickStrategy.clockAt 0)) infyTick () =
      some signal ∧
    buyEveryTick.processTick (TickStrategy.plainly (TickStrategy.clockAt 1)) infyTick () =
      some signal' ∧
    signal.idText ≠ signal'.idText ∧ ¬ buyEveryTick.IdsAgree infyTick () := by
  have hpublished := @TickStrategy.processTick_plainly _ buyEveryTick infyTick () _ (by decide) rfl
  refine ⟨_, _, hpublished (TickStrategy.clockAt 0), hpublished (TickStrategy.clockAt 1),
    fun htext => absurd (TickStrategy.idText_time htext) (by decide), fun hagree => ?_⟩
  exact absurd (TickStrategy.idsAgree_iff.mp hagree (by decide) _ rfl) (by decide)

end QuantEmbrace.Strategies
