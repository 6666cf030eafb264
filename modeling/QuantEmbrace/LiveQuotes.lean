import QuantEmbrace.RiskContext
import QuantEmbrace.SignalId

/-! The spread of a quote on its way from the poller to the spread gate: an order book becomes one
number, and the gate sees only that. -/
namespace QuantEmbrace.LiveQuotes
open RiskCheck Indicators

/-- A field of a response: not there, a number, or what `float` raises an error on. -/
inductive Figure where
  | absent
  | number (q : ℚ)
  | bad
  deriving DecidableEq, Repr

namespace Figure

/-- `float(data.get(key, 0))` -/
def orZero : Figure → Option ℚ
  | .absent => some 0
  | .number q => some q
  | .bad => none

/-- `float(level[key])` -/
def required : Figure → Option ℚ
  | .number q => some q
  | .absent | .bad => none

end Figure

/-- The prices of the two sides, best first. -/
structure Depth where
  buy : List Figure
  sell : List Figure
  deriving DecidableEq, Repr

/-- What a response has for one instrument. A depth of none is no dictionary; one that is missing
has two empty sides. -/
structure QuoteData where
  lastPrice : Figure
  depth : Option Depth
  lowerCircuitLimit : Figure := .absent
  upperCircuitLimit : Figure := .absent
  volume : Figure := .absent
  deriving DecidableEq, Repr

structure QuoteSnapshot where
  instrument : String
  ltp : ℚ
  bid : ℚ
  ask : ℚ
  circuitLower : ℚ
  circuitUpper : ℚ
  volume : ℤ
  capturedAtUtc : ℚ
  deriving DecidableEq, Repr

/-- `spread_bps`, as `__init__` sets it -/
def QuoteSnapshot.spreadBps (snap : QuoteSnapshot) : Option ℚ :=
  let mid := if 0 < snap.bid + snap.ask then (snap.bid + snap.ask) / 2 else snap.ltp
  if 0 < mid then some (roundTo 2 ((snap.ask - snap.bid) / mid * 10000)) else none

/-- The price of a side; an empty one has the price zero. -/
def sidePrice : List Figure → Option ℚ
  | [] => some 0
  | level :: _ => level.required

/-- The body of the loop of `_poll_cycle`; an instrument with a parse error is left out. -/
def snapshotOf (capturedAtUtc : ℚ) (instrument : String) (data : QuoteData) :
    Option QuoteSnapshot := do
  let depth ← data.depth
  let ltp ← data.lastPrice.orZero
  let bid ← sidePrice depth.buy
  let ask ← sidePrice depth.sell
  let circuitLower ← data.lowerCircuitLimit.orZero
  let circuitUpper ← data.upperCircuitLimit.orZero
  let volume ← data.volume.orZero
  return {
    instrument := instrument
    ltp := ltp
    bid := bid
    ask := ask
    circuitLower := circuitLower
    circuitUpper := circuitUpper
    volume := truncated volume
    capturedAtUtc := capturedAtUtc }

/-- A row of the prices table that the poller writes. -/
structure QuoteRow where
  bid : ℚ
  ask : ℚ
  ltp : ℚ
  volume : ℤ
  capturedAt : ℚ
  spreadBps : Option ℚ
  deriving DecidableEq, Repr

def rowOf (snap : QuoteSnapshot) : QuoteRow where
  bid := snap.bid
  ask := snap.ask
  ltp := snap.ltp
  volume := snap.volume
  capturedAt := snap.capturedAtUtc
  spreadBps := snap.spreadBps

/-- What the risk engine asks for of a row. -/
def QuoteRow.projected (row : QuoteRow) : QuoteItem := ⟨row.spreadBps, .parsed row.capturedAt⟩

def quotePk (market symbol : String) : String := "QUOTE#" ++ market ++ "#" ++ symbol

/-- The row of an instrument, in capitals; one without a colon has none. -/
def instrumentPk (instrument : String) : Option String :=
  match instrument.toList.dropWhile (· ≠ ':') with
  | [] => none
  | _ :: symbol => some (quotePk (String.ofList (instrument.toList.takeWhile (· ≠ ':'))).toUpper
      (String.ofList symbol).toUpper)

abbrev PricesTable : Type := String → Option QuoteRow

/-- `_put_one` -/
def putOne (table : PricesTable) (p : String × QuoteSnapshot) : PricesTable :=
  match instrumentPk p.1 with
  | none => table
  | some pk => Function.update table pk (some (rowOf p.2))

def newQuotes (capturedAt : String → ℚ) (response : List (String × QuoteData)) :
    List (String × QuoteSnapshot) :=
  response.filterMap fun q => (snapshotOf (capturedAt q.1) q.1 q.2).map (Prod.mk q.1)

/-- One cycle: the response, the clock at each instrument, and the puts that come through, in
their own order. -/
structure PollCycle where
  response : List (String × QuoteData)
  capturedAt : String → ℚ
  landed : List (String × QuoteSnapshot)
  landed_subperm : landed.Subperm (newQuotes capturedAt response)

def PollCycle.write (c : PollCycle) (table : PricesTable) : PricesTable :=
  c.landed.foldl putOne table

def tableAfter (cycles : List PollCycle) : PricesTable :=
  cycles.foldl (fun table c => c.write table) fun _ => none

/-- The read for a signal, whose market and symbol are taken as they are. -/
def readQuote (table : PricesTable) (fails : Bool) (s : Signal) : ItemRead QuoteItem :=
  if fails then .failed
  else (table (quotePk s.market s.symbol)).elim .missing fun row => .item row.projected

structure SpreadGateValidator where
  maxSpreadBps : ℚ
  overrides : String → Option ℚ

namespace SpreadGateValidator
variable (v : SpreadGateValidator)

/-- `_threshold` -/
def threshold (symbol : String) : ℚ := (v.overrides symbol).getD v.maxSpreadBps

def validate (s : Signal) (liveSpreadBps : Option ℚ) : RiskValidationResult :=
  let name := "spread_gate_validator"
  match liveSpreadBps with
  | none => riskDataUnavailableResult s name "STALE_SPREAD_DATA"
  | some spread =>
    if v.threshold s.symbol < spread then ⟨false, name, "Spread exceeds max"⟩
    else ⟨true, name, "Spread within threshold"⟩

/-- The gate of the risk engine is the one without overrides. -/
theorem validate_of_config (cfg : RiskConfig) :
    SpreadGate.validate cfg =
      (SpreadGateValidator.mk cfg.maxSpreadBps fun _ => none).validate := rfl

/-- What the gate says to a signal, by the quote that the builder of its context reads. -/
def approves (s : Signal) (r : ContextReads) (quote : ItemRead QuoteItem) : Bool :=
  (v.validate s (RiskContextBuilder.fetchLiveSpreadBps { r with quote := quote }).1).approved

end SpreadGateValidator

/-- The spread of a book around its mid price, in basis points as they are stored. -/
def bookSpread (bid ask : ℚ) : ℚ := roundTo 2 ((ask - bid) / ((bid + ask) / 2) * 10000)

section Books
variable {data : QuoteData} {threshold : ℚ}

/-- The best price of a side, if the side has a level with a price. -/
def bestPrice (side : Depth → List Figure) (data : QuoteData) : Option ℚ := do
  (← (side (← data.depth)).head?).required

def priceOrZero (side : Depth → List Figure) (data : QuoteData) : ℚ :=
  (bestPrice side data).getD 0

/-- Both sides have a positive price, they do not cross, and they are close enough. -/
def SoundBook (data : QuoteData) (threshold : ℚ) : Prop :=
  ∃ bid ask, bestPrice Depth.buy data = some bid ∧ bestPrice Depth.sell data = some ask ∧
    0 < bid ∧ 0 < ask ∧ bid ≤ ask ∧ bookSpread bid ask ≤ threshold

/-- The number tells a book that is not sound from one that is. Where a price of zero stands for
an empty side, that is only so for a missing bid, or for an instrument without any trade. -/
structure Tells (bid ask ltp threshold : ℚ) : Prop where
  book : 0 < bid + ask → (0 < bid ∧ bid ≤ ask) ∨ (bid ≤ 0 ∧ threshold < bookSpread bid ask)
  empty : bid + ask ≤ 0 → 0 < ltp → threshold < roundTo 2 ((ask - bid) / ltp * 10000)

/-- `Tells`, of the prices of a quote. -/
def QuoteTells (data : QuoteData) (threshold : ℚ) : Prop :=
  Tells (priceOrZero Depth.buy data) (priceOrZero Depth.sell data) (data.lastPrice.orZero.getD 0)
    threshold

theorem roundTo_nonpos {x : ℚ} (h : x ≤ 0) : roundTo 2 x ≤ 0 := by
  have hrounded : roundHalfEven (x * 10 ^ 2) ≤ 0 := by
    obtain h | rfl := h.lt_or_eq
    · exact Strategies.roundHalfEven_nonpos (by linarith)
    · decide +kernel
  exact div_nonpos_of_nonpos_of_nonneg (by exact_mod_cast hrounded) (by norm_num)

theorem roundTo_eq_self {x : ℚ} {n : ℤ} (h : x * 10 ^ 2 = n) : roundTo 2 x = x := by
  rw [roundTo, h, roundHalfEven, Int.floor_intCast, sub_self, if_pos (by norm_num), ← h]
  norm_num

/-- A crossed book has a spread that no threshold is below. -/
theorem bookSpread_crossed {bid ask : ℚ} (hsum : 0 < bid + ask) (hcrossed : ask < bid) :
    bookSpread bid ask ≤ 0 := by
  have hratio : (ask - bid) / ((bid + ask) / 2) ≤ 0 :=
    div_nonpos_of_nonpos_of_nonneg (by linarith) (by linarith)
  exact roundTo_nonpos (by linarith)

theorem bookSpread_ask_only {ask : ℚ} (h : 0 < ask) : bookSpread 0 ask = 20000 := by
  have hratio : (ask - 0) / ((0 + ask) / 2) * 10000 = 20000 := by
    field_simp
    ring
  rw [bookSpread, hratio]
  exact roundTo_eq_self (n := 2000000) (by norm_num)

section Spreads
variable {snap : QuoteSnapshot}

theorem spreadBps_of_pos (hsum : 0 < snap.bid + snap.ask) :
    snap.spreadBps = some (bookSpread snap.bid snap.ask) := by
  rw [QuoteSnapshot.spreadBps, if_pos hsum]
  exact if_pos (by linarith)

theorem spreadBps_of_nonpos (hsum : ¬ 0 < snap.bid + snap.ask) :
    snap.spreadBps = if 0 < snap.ltp then
      some (roundTo 2 ((snap.ask - snap.bid) / snap.ltp * 10000)) else none := by
  rw [QuoteSnapshot.spreadBps, if_neg hsum]

theorem tells_iff_of_pos (hthreshold : 0 ≤ threshold) (hsum : 0 < snap.bid + snap.ask) :
    (bookSpread snap.bid snap.ask ≤ threshold →
      0 < snap.bid ∧ 0 < snap.ask ∧ snap.bid ≤ snap.ask ∧
        bookSpread snap.bid snap.ask ≤ threshold) ↔
      Tells snap.bid snap.ask snap.ltp threshold := by
  constructor
  · intro h
    refine ⟨fun _ => ?_, fun hempty => absurd hsum (not_lt.mpr hempty)⟩
    obtain hle | hgt := le_or_gt (bookSpread snap.bid snap.ask) threshold
    · obtain ⟨hbid, -, hcross, -⟩ := h hle
      exact .inl ⟨hbid, hcross⟩
    · obtain hbid | hbid := lt_or_ge 0 snap.bid
      · -- a crossed book has no spread that is too wide
        refine .inl ⟨hbid, not_lt.mp fun hcrossed => ?_⟩
        exact absurd (bookSpread_crossed hsum hcrossed) (by linarith)
      · exact .inr ⟨hbid, hgt⟩
  · intro h hle
    obtain ⟨hbid, hcross⟩ | ⟨-, hgt⟩ := h.book hsum
    · exact ⟨hbid, by linarith, hcross, hle⟩
    · exact absurd hle (not_le.mpr hgt)

theorem tells_iff_of_nonpos (hsum : ¬ 0 < snap.bid + snap.ask) :
    Tells snap.bid snap.ask snap.ltp threshold ↔
      (0 < snap.ltp → threshold < roundTo 2 ((snap.ask - snap.bid) / snap.ltp * 10000)) :=
  ⟨fun h => h.empty (not_lt.mp hsum), fun h => ⟨fun hpos => absurd hpos hsum, fun _ => h⟩⟩

theorem tells_iff (hthreshold : 0 ≤ threshold) :
    (∀ spread, snap.spreadBps = some spread → spread ≤ threshold →
      0 < snap.bid ∧ 0 < snap.ask ∧ snap.bid ≤ snap.ask ∧
        bookSpread snap.bid snap.ask ≤ threshold) ↔
      Tells snap.bid snap.ask snap.ltp threshold := by
  by_cases hsum : 0 < snap.bid + snap.ask
  · rw [spreadBps_of_pos hsum, ← tells_iff_of_pos hthreshold hsum]
    simp only [Option.some.injEq, forall_eq']
  · have hunsound : ¬ (0 < snap.bid ∧ 0 < snap.ask ∧ snap.bid ≤ snap.ask ∧
        bookSpread snap.bid snap.ask ≤ threshold) := by
      rintro ⟨hbid, hask, -⟩
      exact hsum (by linarith)
    rw [spreadBps_of_nonpos hsum, tells_iff_of_nonpos hsum]
    by_cases htraded : 0 < snap.ltp
    · rw [if_pos htraded]
      simp only [Option.some.injEq, forall_eq', hunsound, htraded, true_imp_iff, imp_false, not_le]
    · rw [if_neg htraded]
      refine iff_of_true ?_ fun h => absurd h htraded
      rintro _ ⟨⟩

end Spreads

/-- Without negative prices: a gate can only go by the number where the book is a proper one, or
where there is no bid and the threshold is below that spread, or where nothing is there at all. -/
theorem tells_nonneg {bid ask ltp : ℚ} (hthreshold : 0 ≤ threshold) (hbid : 0 ≤ bid)
    (hask : 0 ≤ ask) : Tells bid ask ltp threshold ↔
      (0 < bid ∧ bid ≤ ask) ∨ (bid = 0 ∧ 0 < ask ∧ threshold < 20000) ∨
        (bid = 0 ∧ ask = 0 ∧ ltp ≤ 0) := by
  obtain hbid | rfl := hbid.lt_or_eq
  · have hsum : 0 < bid + ask := by linarith
    constructor
    · intro h
      obtain h | ⟨hno, -⟩ := h.book hsum
      · exact .inl h
      · exact absurd hbid (not_lt.mpr hno)
    · rintro (h | ⟨hno, -⟩ | ⟨hno, -⟩)
      · exact ⟨fun _ => .inl h, fun hempty => absurd hsum (not_lt.mpr hempty)⟩
      · exact absurd hno hbid.ne'
      · exact absurd hno hbid.ne'
  · obtain hask | rfl := hask.lt_or_eq
    · constructor
      · intro h
        obtain ⟨hno, -⟩ | ⟨-, hwide⟩ := h.book (by linarith)
        · exact absurd hno (lt_irrefl 0)
        · rw [bookSpread_ask_only hask] at hwide
          exact .inr (.inl ⟨rfl, hask, hwide⟩)
      · rintro (⟨hno, -⟩ | ⟨-, -, hwide⟩ | ⟨-, hno, -⟩)
        · exact absurd hno (lt_irrefl 0)
        · rw [← bookSpread_ask_only hask] at hwide
          exact ⟨fun _ => .inr ⟨le_rfl, hwide⟩, fun hempty => absurd hask (by linarith)⟩
        · exact absurd hno hask.ne'
    · have hzero : roundTo 2 ((0 - 0) / ltp * 10000) = 0 := by
        rw [sub_zero, zero_div, zero_mul]
        exact roundTo_eq_self (n := 0) (by norm_num)
      constructor
      · intro h
        refine .inr (.inr ⟨rfl, rfl, not_lt.mp fun htraded => ?_⟩)
        have hwide := h.empty (by norm_num) htraded
        rw [hzero] at hwide
        exact absurd hthreshold (not_le.mpr hwide)
      · rintro (⟨hno, -⟩ | ⟨-, hno, -⟩ | ⟨-, -, hnone⟩)
        · exact absurd hno (lt_irrefl 0)
        · exact absurd hno (lt_irrefl 0)
        · exact ⟨fun hsum => absurd hsum (by norm_num), fun _ h => absurd h (not_lt.mpr hnone)⟩

theorem sidePrice_eq {levels : List Figure} {price : ℚ} (h : sidePrice levels = some price) :
    (levels.head?.bind Figure.required).getD 0 = price := by
  cases levels with
  | nil => exact Option.some.inj h
  | cons level rest => exact congrArg (Option.getD · 0) h

/-- The prices of a snapshot are those of its quote. -/
theorem prices_of_snapshot {capturedAt : ℚ} {instrument : String} {snap : QuoteSnapshot}
    (h : snapshotOf capturedAt instrument data = some snap) :
    snap.bid = priceOrZero Depth.buy data ∧ snap.ask = priceOrZero Depth.sell data ∧
      snap.ltp = data.lastPrice.orZero.getD 0 ∧ snap.capturedAtUtc = capturedAt := by
  simp only [snapshotOf, Option.bind_eq_bind, Option.bind_eq_some_iff] at h
  obtain ⟨depth, hdepth, ltp, hltp, bid, hbid, ask, hask, lower, -, upper, -, volume, -, h⟩ := h
  cases h
  refine ⟨?_, ?_, ?_, rfl⟩
  · rw [priceOrZero, bestPrice, hdepth]
    exact (sidePrice_eq hbid).symm
  · rw [priceOrZero, bestPrice, hdepth]
    exact (sidePrice_eq hask).symm
  · rw [hltp]
    rfl

/-- A positive price is that of a level. -/
theorem bestPrice_of_pos {side : Depth → List Figure} (h : 0 < priceOrZero side data) :
    bestPrice side data = some (priceOrZero side data) := by
  rw [priceOrZero] at h ⊢
  cases hbest : bestPrice side data with
  | none =>
    rw [hbest] at h
    exact absurd h (lt_irrefl 0)
  | some price => rfl

theorem soundBook_iff : SoundBook data threshold ↔
    0 < priceOrZero Depth.buy data ∧ 0 < priceOrZero Depth.sell data ∧
      priceOrZero Depth.buy data ≤ priceOrZero Depth.sell data ∧
      bookSpread (priceOrZero Depth.buy data) (priceOrZero Depth.sell data) ≤ threshold := by
  constructor
  · rintro ⟨bid, ask, hbid, hask, h⟩
    rw [priceOrZero, priceOrZero, hbid, hask]
    exact h
  · intro h
    exact ⟨_, _, bestPrice_of_pos h.1, bestPrice_of_pos h.2.1, h⟩

end Books

section Gate
variable {v : SpreadGateValidator} {s : Signal} {r : ContextReads}

theorem approves_missing {quote : ItemRead QuoteItem} (hlive : s.paperTrade = false)
    (h : quote = .failed ∨ quote = .missing) : v.approves s r quote = false := by
  have hnone : (RiskContextBuilder.fetchLiveSpreadBps { r with quote := quote }).1 = none := by
    unfold RiskContextBuilder.fetchLiveSpreadBps
    obtain rfl | rfl := h <;> cases r.dynamo <;> rfl
  rw [SpreadGateValidator.approves, hnone]
  exact (riskDataUnavailableResult_approved s _ _).trans hlive

/-- All that the gate knows of a quote is the age of its row and one number. -/
theorem approves_row {row : QuoteRow} (hlive : s.paperTrade = false) :
    v.approves s r (.item row.projected) = true ↔
      (r.dynamo = true ∧ r.now - row.capturedAt ≤ 30) ∧
        ∃ spread, row.spreadBps = some spread ∧ spread ≤ v.threshold s.symbol := by
  have hmissing : (v.validate s none).approved = false :=
    (riskDataUnavailableResult_approved s _ _).trans hlive
  rw [SpreadGateValidator.approves]
  unfold RiskContextBuilder.fetchLiveSpreadBps
  cases hdynamo : r.dynamo with
  | false => simp [hmissing]
  | true =>
    cases hspread : row.spreadBps with
    | none => simp [QuoteRow.projected, hspread, hmissing]
    | some spread =>
      by_cases hold : 30 < r.now - row.capturedAt
      · simp only [QuoteRow.projected, hspread]
        simp [hold, hmissing, not_le.mpr hold]
      · by_cases hwide : v.threshold s.symbol < spread
        · simp [QuoteRow.projected, hspread, hold, SpreadGateValidator.validate, hwide]
        · simp [QuoteRow.projected, hspread, hold, SpreadGateValidator.validate, hwide,
            not_lt.mp hwide, not_lt.mp hold]

/-- A live signal is approved by a fresh row for a sound book only, just when the number tells. -/
theorem approves_sound_iff {capturedAt : ℚ} {instrument : String} {data : QuoteData}
    {snap : QuoteSnapshot} (hlive : s.paperTrade = false)
    (hthreshold : 0 ≤ v.threshold s.symbol)
    (hsnap : snapshotOf capturedAt instrument data = some snap) :
    (v.approves s r (.item (rowOf snap).projected) = true →
        SoundBook data (v.threshold s.symbol)) ↔
      (r.dynamo = true ∧ r.now - capturedAt ≤ 30 →
        QuoteTells data (v.threshold s.symbol)) := by
  obtain ⟨hbid, hask, hltp, hcaptured⟩ := prices_of_snapshot hsnap
  have htells := @tells_iff (v.threshold s.symbol) snap hthreshold
  rw [hbid, hask, hltp] at htells
  rw [approves_row hlive, QuoteTells, ← htells, soundBook_iff, and_imp,
    show (rowOf snap).capturedAt = capturedAt from hcaptured]
  refine imp_congr_right fun _ => ?_
  rw [exists_imp]
  exact forall_congr' fun spread => and_imp

end Gate

section Runs

/-- The row is of a quote in the response of the cycle. -/
def WrittenBy (c : PollCycle) (pk : String) (row : QuoteRow) : Prop :=
  ∃ q ∈ c.response, instrumentPk q.1 = some pk ∧
    ∃ snap, snapshotOf (c.capturedAt q.1) q.1 q.2 = some snap ∧ row = rowOf snap

variable {pk : String} {row : QuoteRow} {table : PricesTable}

theorem putOne_row {p : String × QuoteSnapshot} (h : putOne table p pk = some row) :
    (instrumentPk p.1 = some pk ∧ row = rowOf p.2) ∨ table pk = some row := by
  rw [putOne] at h
  cases hpk : instrumentPk p.1 with
  | none =>
    rw [hpk] at h
    exact .inr h
  | some own =>
    rw [hpk] at h
    dsimp only at h
    by_cases hown : pk = own
    · rw [hown, Function.update_self] at h
      exact .inl ⟨congrArg some hown.symm, (Option.some.inj h).symm⟩
    · exact .inr ((Function.update_of_ne hown _ _).symm.trans h)

theorem puts_row {puts : List (String × QuoteSnapshot)}
    (h : puts.foldl putOne table pk = some row) :
    (∃ p ∈ puts, instrumentPk p.1 = some pk ∧ row = rowOf p.2) ∨ table pk = some row := by
  induction puts generalizing table with
  | nil => exact .inr h
  | cons p rest ih =>
    obtain ⟨p', hp', hrow⟩ | h := ih h
    · exact .inl ⟨p', List.mem_cons_of_mem _ hp', hrow⟩
    · obtain hrow | h := putOne_row h
      · exact .inl ⟨p, List.mem_cons_self, hrow⟩
      · exact .inr h

theorem write_row {c : PollCycle} (h : c.write table pk = some row) :
    WrittenBy c pk row ∨ table pk = some row := by
  obtain ⟨p, hp, hpk, rfl⟩ | h := puts_row h
  · obtain ⟨q, hq, hquote⟩ := List.mem_filterMap.mp (c.landed_subperm.subset hp)
    obtain ⟨snap, hsnap, rfl⟩ := Option.map_eq_some_iff.mp hquote
    exact .inl ⟨q, hq, hpk, snap, hsnap, rfl⟩
  · exact .inr h

/-- Every row of the table comes from a quote, whichever puts come through and in what order. -/
theorem row_of_run {cycles : List PollCycle} (h : tableAfter cycles pk = some row) :
    ∃ c ∈ cycles, WrittenBy c pk row := by
  induction cycles using List.reverseRecOn with
  | nil => cases h
  | append_singleton cycles c ih =>
    rw [tableAfter, List.foldl_append] at h
    obtain hrow | h := write_row h
    · exact ⟨c, List.mem_append_right _ List.mem_cons_self, hrow⟩
    · obtain ⟨c', hc', hrow⟩ := ih h
      exact ⟨c', List.mem_append_left _ hc', hrow⟩

theorem read_of_approved {v : SpreadGateValidator} {s : Signal} {r : ContextReads} {fails : Bool}
    (hlive : s.paperTrade = false) (h : v.approves s r (readQuote table fails s) = true) :
    ∃ row, table (quotePk s.market s.symbol) = some row ∧
      v.approves s r (.item row.projected) = true := by
  rw [readQuote] at h
  cases fails with
  | true =>
    rw [if_pos rfl, approves_missing hlive (.inl rfl)] at h
    cases h
  | false =>
    rw [if_neg Bool.false_ne_true] at h
    cases hrow : table (quotePk s.market s.symbol) with
    | none =>
      rw [hrow, Option.elim_none, approves_missing hlive (.inr rfl)] at h
      cases h
    | some row =>
      rw [hrow] at h
      exact ⟨row, rfl, h⟩

/-- What an approval says about the book of one quote, and about that of the quote which a run has
left in the table. -/
theorem spread_gate_iff (v : SpreadGateValidator) (s : Signal) (r : ContextReads)
    (hlive : s.paperTrade = false) (hthreshold : 0 ≤ v.threshold s.symbol) :
    (∀ capturedAt instrument data snap, snapshotOf capturedAt instrument data = some snap →
      ((v.approves s r (.item (rowOf snap).projected) = true →
          SoundBook data (v.threshold s.symbol)) ↔
        (r.dynamo = true ∧ r.now - capturedAt ≤ 30 →
          QuoteTells data (v.threshold s.symbol)))) ∧
    (∀ bid ask ltp, 0 ≤ bid → 0 ≤ ask → (Tells bid ask ltp (v.threshold s.symbol) ↔
      (0 < bid ∧ bid ≤ ask) ∨ (bid = 0 ∧ 0 < ask ∧ v.threshold s.symbol < 20000) ∨
        (bid = 0 ∧ ask = 0 ∧ ltp ≤ 0))) ∧
    ∀ cycles : List PollCycle,
      (∀ c ∈ cycles, ∀ q ∈ c.response, instrumentPk q.1 = some (quotePk s.market s.symbol) →
        QuoteTells q.2 (v.threshold s.symbol)) →
      ∀ fails, v.approves s r (readQuote (tableAfter cycles) fails s) = true →
        ∃ c ∈ cycles, ∃ q ∈ c.response, ∃ snap,
          snapshotOf (c.capturedAt q.1) q.1 q.2 = some snap ∧
          tableAfter cycles (quotePk s.market s.symbol) = some (rowOf snap) ∧
          SoundBook q.2 (v.threshold s.symbol) := by
  refine ⟨fun _ _ _ _ => approves_sound_iff hlive hthreshold,
    fun _ _ _ => tells_nonneg hthreshold, fun cycles htells fails happroved => ?_⟩
  obtain ⟨row, hrow, happroved⟩ := read_of_approved hlive happroved
  obtain ⟨c, hc, q, hq, hpk, snap, hsnap, rfl⟩ := row_of_run hrow
  exact ⟨c, hc, q, hq, snap, hsnap, hrow,
    (approves_sound_iff hlive hthreshold hsnap).mpr (fun _ => htells c hc q hq hpk) happroved⟩

end Runs

section Circuit

def gate50 : SpreadGateValidator := ⟨50, fun _ => none⟩

def liveBuy : Signal where
  signalId := "S1"
  symbol := "INFY"
  market := "NSE"
  direction := .buy
  quantity := 2
  confidence := 1
  strategyName := "momentum"
  generatedAt := 100
  priceAtSignal := 1500

def freshReads : ContextReads where
  now := 101
  position := .missing
  pending _ := some []
  adv := .missing
  quote := .missing
  nav := .missing
  snapshot := .missing
  exposureScan := []

def narrowQuote : QuoteData where
  lastPrice := .number 1500
  depth := some ⟨[.number 1499], [.number 1501]⟩

theorem spread_gate_iff_narrow : SoundBook narrowQuote (gate50.threshold "INFY") := by
  have htells : QuoteTells narrowQuote (gate50.threshold "INFY") :=
    ⟨fun _ => .inl (by decide +kernel), fun h => absurd h (by decide +kernel)⟩
  exact ((spread_gate_iff gate50 liveBuy freshReads rfl (by decide +kernel)).1 100 "NSE:INFY"
    narrowQuote _ rfl).mpr (fun _ => htells) (by decide +kernel)

/-- At its upper limit there is nobody left to buy from. -/
def limitUp : QuoteData where
  lastPrice := .number 1650
  depth := some ⟨[.number 1650, .number 1649], []⟩
  lowerCircuitLimit := .number 1350
  upperCircuitLimit := .number 1650
  volume := .number 50000

def limitUpCycle : PollCycle where
  response := [("NSE:INFY", limitUp)]
  capturedAt _ := 100
  landed := newQuotes (fun _ => 100) [("NSE:INFY", limitUp)]
  landed_subperm := .refl _

theorem one_sided_book_approved :
    gate50.approves liveBuy freshReads (readQuote (tableAfter [limitUpCycle]) false liveBuy) =
        true ∧
      ∀ threshold, ¬ SoundBook limitUp threshold := by
  refine ⟨by decide +kernel, ?_⟩
  rintro threshold ⟨bid, ask, -, hask, -⟩
  cases hask

end Circuit

end QuantEmbrace.LiveQuotes
