import QuantEmbrace.CandleStream
import QuantEmbrace.Lib.IsoFormat
import QuantEmbrace.Lib.SmoothedMean

/-! The technical features of a window of candles, on exact rationals. What the source calls NaN
is `none`; a division by data is checked, the periods are positive constants. -/
namespace QuantEmbrace.Features
open IsoFormat Candles Smoothing

/-- What Python raises inside the engine. -/
inductive EngineError where
  | valueError (text : String)
  | indexError
  | zeroDivisionError
  deriving DecidableEq, Repr

structure Candle extends Ohlcv where
  instrument : String
  market : String
  interval : String
  dt : Option DateTime
  deriving DecidableEq, Repr

structure FeatureSet where
  symbol : String
  market : String
  interval : String
  candleTime : Option DateTime
  candleCount : ℕ
  computedAt : DateTime
  rsi14 : Option ℚ
  ema9 : Option ℚ
  ema21 : Option ℚ
  vwap : Option ℚ
  atr14 : Option ℚ
  adx14 : Option ℚ
  macd : Option ℚ
  macdSignal : Option ℚ
  macdHist : Option ℚ
  volumeRatio : Option ℚ
  schemaVersion : ℕ := 1
  deriving DecidableEq, Repr

def ema9Min : ℕ := 9
def ema21Min : ℕ := 21
def rsiMin : ℕ := 15
def atrMin : ℕ := 15
def adxMin : ℕ := 28
def macdMin : ℕ := 35

def rsiPeriod : ℕ := 14
def atrPeriod : ℕ := 14
def adxPeriod : ℕ := 14
def emaFast : ℕ := 12
def emaSlow : ℕ := 26
def macdSignalPeriod : ℕ := 9

def divide (a b : ℚ) : Except EngineError ℚ :=
  if b = 0 then .error .zeroDivisionError else .ok (a / b)

theorem divide_of_ne {a b : ℚ} (h : b ≠ 0) : divide a b = .ok (a / b) := if_neg h

def canonicalInterval (kiteInterval : String) : String :=
  match kiteInterval with
  | "minute" => "1m"
  | "3minute" => "3m"
  | "5minute" => "5m"
  | "10minute" => "10m"
  | "15minute" => "15m"
  | "30minute" => "30m"
  | "60minute" => "60m"
  | "day" => "1d"
  | other => other

def computeVwap (candles : List Candle) : Except EngineError (Option ℚ) := do
  let cumulativeTpVol :=
    (candles.map fun c => (c.high + c.low + c.closePrice) / 3 * (c.volume : ℚ)).sum
  let cumulativeVol := (candles.map fun c => (c.volume : ℚ)).sum
  if cumulativeVol = 0 then return none
  else return some (← divide cumulativeTpVol cumulativeVol)

/-- `_ema_series`: the seed is the mean of the first `period` values. -/
def emaSeries (values : List ℚ) (period : ℕ) : List (Option ℚ) :=
  if values.length < period then List.replicate values.length none
  else
    let alpha : ℚ := 2 / (period + 1)
    let seedSma := (values.take period).sum / period
    List.replicate (period - 1) none ++
      ((values.drop period).scanl (fun prev v => v * alpha + prev * (1 - alpha)) seedSma).map some

def computeEma (closes : List ℚ) (period : ℕ) : Except EngineError (Option ℚ) :=
  match (emaSeries closes period).getLast? with
  | none => .error .indexError
  | some last => .ok last

/-- The seed and Wilder's smoothing in the loops of `_compute_rsi` and `_compute_atr`. -/
def wilderAverage (values : List ℚ) (period : ℕ) : ℚ :=
  (values.drop period).foldl (fun avg v => (avg * (period - 1) + v) / period)
    ((values.take period).sum / period)

def priceDeltas (closes : List ℚ) : List ℚ :=
  List.zipWith (fun prev c => c - prev) closes closes.tail

def computeRsi (closes : List ℚ) (period : ℕ) : Except EngineError (Option ℚ) := do
  if closes.length < period + 1 then return none
  else
    let avgGain := wilderAverage ((priceDeltas closes).map fun d => max d 0) period
    let avgLoss := wilderAverage ((priceDeltas closes).map fun d => max (-d) 0) period
    if avgLoss = 0 then return some 100
    else
      let rs ← divide avgGain avgLoss
      return some (100 - (← divide 100 (1 + rs)))

def trueRange (high low prevClose : ℚ) : ℚ :=
  max (max (high - low) |high - prevClose|) |low - prevClose|

/-- The true ranges of all candles but the first. -/
def trueRanges (highs lows closes : List ℚ) : List ℚ :=
  List.zipWith3 trueRange highs.tail lows.tail closes

def computeAtr (highs lows closes : List ℚ) (period : ℕ) : Option ℚ :=
  if closes.length < period + 1 then none
  else some (wilderAverage (trueRanges highs lows closes) period)

/-- `_wilder_smooth`: the seed is the sum of the first `period` values. -/
def wilderSmooth (values : List ℚ) (period : ℕ) : List (Option ℚ) :=
  if values.length < period then List.replicate values.length none
  else
    List.replicate (period - 1) none ++
      ((values.drop period).scanl (fun prev v => prev - prev / (period : ℚ) + v)
        (values.take period).sum).map some

def upMoves (highs : List ℚ) : List ℚ := List.zipWith (fun prev h => h - prev) highs highs.tail

def downMoves (lows : List ℚ) : List ℚ := List.zipWith (fun prev l => prev - l) lows lows.tail

def plusDms (highs lows : List ℚ) : List ℚ :=
  List.zipWith (fun up down => if down < up ∧ 0 < up then up else 0) (upMoves highs)
    (downMoves lows)

def minusDms (highs lows : List ℚ) : List ℚ :=
  List.zipWith (fun up down => if up < down ∧ 0 < down then down else 0) (upMoves highs)
    (downMoves lows)

/-- The smoothed movements and the smoothed true range at one candle. -/
structure Smoothed where
  plus : ℚ
  minus : ℚ
  tr : ℚ
  deriving DecidableEq, Repr

/-- What the loop over the smoothed values gets through to: an entry with a NaN or a true range of
zero is passed over. -/
def valid (plus minus tr : Option ℚ) : Option Smoothed := do
  let sp ← plus
  let sm ← minus
  let st ← tr
  if st = 0 then none else return ⟨sp, sm, st⟩

def dx (s : Smoothed) : Except EngineError ℚ := do
  let plusDi ← divide (100 * s.plus) s.tr
  let minusDi ← divide (100 * s.minus) s.tr
  let denom := plusDi + minusDi
  if denom = 0 then return 0 else divide (100 * |plusDi - minusDi|) denom

/-- The entries that have a DX, from the first that has all its sums. -/
def dxEntries (highs lows closes : List ℚ) (period : ℕ) : List Smoothed :=
  ((List.zipWith3 valid (wilderSmooth (plusDms highs lows) period)
    (wilderSmooth (minusDms highs lows) period)
    (wilderSmooth (trueRanges highs lows closes) period)).drop (period - 1)).filterMap id

/-- The last entry of a series that is not NaN. -/
def lastValid (series : List (Option ℚ)) : Option ℚ := series.reverse.findSome? id

def computeAdx (highs lows closes : List ℚ) (period : ℕ) : Except EngineError (Option ℚ) := do
  if closes.length < 2 * period then return none
  else
    let dxList ← (dxEntries highs lows closes period).mapM dx
    if dxList.length < period then return none
    else return (lastValid (wilderSmooth dxList period)).map fun v => v / period

structure Macd where
  line : ℚ
  signal : ℚ
  hist : ℚ
  deriving DecidableEq, Repr

/-- The values of the MACD line, where both averages are defined. -/
def macdValues (closes : List ℚ) (fast slow : ℕ) : List ℚ :=
  ((List.zipWith (fun ef es : Option ℚ => do return (← ef) - (← es)) (emaSeries closes fast)
    (emaSeries closes slow)).drop (slow - 1)).filterMap id

def computeMacd (closes : List ℚ) (fast slow signal : ℕ) : Except EngineError (Option Macd) :=
  if closes.length < slow + signal then .ok none
  else
    let values := macdValues closes fast slow
    if values.length < signal then .ok none
    else
      match values.getLast?, (emaSeries values signal).getLast? with
      | some lastMacd, some (some lastSig) => .ok (some ⟨lastMacd, lastSig, lastMacd - lastSig⟩)
      | some _, some none => .ok none
      | _, _ => .error .indexError

/-- A feature for which a number of candles is needed. -/
def whenEnough (n least : ℕ) {α : Type} (f : Except EngineError (Option α)) :
    Except EngineError (Option α) :=
  if least ≤ n then f else .ok none

def volumeRatio (volume : ℤ) (adv20d : Option ℚ) : Except EngineError (Option ℚ) :=
  match adv20d with
  | none => .ok none
  | some adv => if 0 < adv then (divide volume adv).map some else .ok none

def compute (now : DateTime) (candles : List Candle) (adv20d : Option ℚ) :
    Except EngineError FeatureSet :=
  match candles.getLast? with
  | none => .error (.valueError "FeatureEngine.compute() requires at least one candle")
  | some last => do
    let n := candles.length
    let closes := candles.map fun c => c.closePrice
    let highs := candles.map fun c => c.high
    let lows := candles.map fun c => c.low
    let vwap ← whenEnough n 1 (computeVwap candles)
    let ema9 ← whenEnough n ema9Min (computeEma closes ema9Min)
    let ema21 ← whenEnough n ema21Min (computeEma closes ema21Min)
    let rsi14 ← whenEnough n rsiMin (computeRsi closes rsiPeriod)
    let atr14 ← whenEnough n atrMin (.ok (computeAtr highs lows closes atrPeriod))
    let adx14 ← whenEnough n adxMin (computeAdx highs lows closes adxPeriod)
    let macd ← whenEnough n macdMin (computeMacd closes emaFast emaSlow macdSignalPeriod)
    let ratio ← volumeRatio last.volume adv20d
    return {
      symbol := last.instrument
      market := last.market
      interval := canonicalInterval last.interval
      candleTime := last.dt.map DateTime.aware
      candleCount := n
      computedAt := now
      rsi14 := rsi14
      ema9 := ema9
      ema21 := ema21
      vwap := vwap
      atr14 := atr14
      adx14 := adx14
      macd := macd.map Macd.line
      macdSignal := macd.map Macd.signal
      macdHist := macd.map Macd.hist
      volumeRatio := ratio }

section ZipWith3
variable {α β γ δ : Type*} {f : α → β → γ → δ}

theorem mem_zipWith3 {as : List α} {bs : List β} {cs : List γ} {x : δ}
    (h : x ∈ List.zipWith3 f as bs cs) : ∃ a ∈ as, ∃ b ∈ bs, ∃ c ∈ cs, f a b c = x := by
  induction as generalizing bs cs with
  | nil => cases h
  | cons a as ih =>
    cases bs with
    | nil => cases h
    | cons b bs =>
      cases cs with
      | nil => cases h
      | cons c cs =>
        obtain rfl | h := List.mem_cons.mp h
        · exact ⟨a, List.mem_cons_self, b, List.mem_cons_self, c, List.mem_cons_self, rfl⟩
        · obtain ⟨a', ha, b', hb, c', hc, hx⟩ := ih h
          exact ⟨a', List.mem_cons_of_mem a ha, b', List.mem_cons_of_mem b hb, c',
            List.mem_cons_of_mem c hc, hx⟩

theorem length_zipWith3 (as : List α) (bs : List β) (cs : List γ) :
    (List.zipWith3 f as bs cs).length = min as.length (min bs.length cs.length) := by
  induction as generalizing bs cs with
  | nil => exact (Nat.zero_min _).symm
  | cons a as ih =>
    cases bs with
    | nil => simp [List.zipWith3]
    | cons b bs =>
      cases cs with
      | nil => simp [List.zipWith3]
      | cons c cs =>
        rw [List.zipWith3, List.length_cons, ih]
        simp only [List.length_cons]
        omega

/-- Three lists that start with as many entries that do not count. -/
theorem drop_zipWith3_replicate (m : ℕ) (a : α) (b : β) (c : γ) (as : List α) (bs : List β)
    (cs : List γ) : (List.zipWith3 f (List.replicate m a ++ as) (List.replicate m b ++ bs)
      (List.replicate m c ++ cs)).drop m = List.zipWith3 f as bs cs := by
  induction m with
  | zero => rfl
  | succ m ih =>
    simp only [List.replicate_succ, List.cons_append, List.zipWith3, List.drop_succ_cons]
    exact ih

end ZipWith3

theorem trueRange_nonneg (high low prevClose : ℚ) : 0 ≤ trueRange high low prevClose :=
  (abs_nonneg _).trans (le_max_right _ _)

theorem trueRanges_nonneg {highs lows closes : List ℚ} :
    ∀ tr ∈ trueRanges highs lows closes, 0 ≤ tr := by
  intro tr h
  obtain ⟨a, -, b, -, c, -, rfl⟩ := mem_zipWith3 h
  exact trueRange_nonneg a b c

theorem plusDms_nonneg {highs lows : List ℚ} : ∀ v ∈ plusDms highs lows, 0 ≤ v := by
  intro v h
  have h : v ∈ List.zipWith _ _ _ := h
  obtain ⟨i, hi, rfl⟩ := List.mem_iff_getElem.mp h
  rw [List.getElem_zipWith]
  split
  · next hup => exact hup.2.le
  · exact le_rfl

theorem minusDms_nonneg {highs lows : List ℚ} : ∀ v ∈ minusDms highs lows, 0 ≤ v := by
  intro v h
  have h : v ∈ List.zipWith _ _ _ := h
  obtain ⟨i, hi, rfl⟩ := List.mem_iff_getElem.mp h
  rw [List.getElem_zipWith]
  split
  · next hdown => exact hdown.2.le
  · exact le_rfl

section Sums
variable {period : ℕ} {values : List ℚ}

/-- The sums that `_wilder_smooth` computes, without the entries before the first of them. -/
def runningSums (values : List ℚ) (period : ℕ) : List ℚ :=
  (values.drop period).scanl (fun prev v => prev - prev / (period : ℚ) + v)
    (values.take period).sum

theorem wilderSmooth_eq (hle : period ≤ values.length) : wilderSmooth values period =
    List.replicate (period - 1) none ++ (runningSums values period).map some :=
  if_neg (not_lt.mpr hle)

theorem length_runningSums (values : List ℚ) (period : ℕ) :
    (runningSums values period).length = values.length - period + 1 := by
  rw [runningSums, List.length_scanl, List.length_drop]

theorem weight_mem (hp : 0 < period) : 0 < 1 / (period : ℚ) ∧ 1 / (period : ℚ) ≤ 1 := by
  have hpos : (1 : ℚ) ≤ period := by exact_mod_cast hp
  exact ⟨by positivity, (div_le_one (by linarith)).mpr hpos⟩

theorem scanl_nonneg {seed : ℚ} (hp : 0 < period) (hvalues : ∀ v ∈ values, 0 ≤ v)
    (hseed : 0 ≤ seed) :
    ∀ x ∈ values.scanl (fun prev v => prev - prev / (period : ℚ) + v) seed, 0 ≤ x := by
  induction values generalizing seed with
  | nil =>
    intro x hx
    rw [List.scanl_nil, List.mem_singleton] at hx
    rwa [hx]
  | cons v values ih =>
    obtain ⟨hv, hvalues⟩ := List.forall_mem_cons.mp hvalues
    have hle : seed / period ≤ seed := div_le_self hseed (by exact_mod_cast hp)
    rw [List.scanl_cons, List.forall_mem_cons]
    exact ⟨hseed, ih hvalues (by linarith)⟩

theorem runningSums_nonneg (hp : 0 < period) (hvalues : ∀ v ∈ values, 0 ≤ v) :
    ∀ x ∈ runningSums values period, 0 ≤ x :=
  scanl_nonneg hp (fun v hv => hvalues v (List.mem_of_mem_drop hv))
    (List.sum_nonneg fun v hv => hvalues v (List.mem_of_mem_take hv))

/-- Both loops of the source that keep an average smooth by one over the period. -/
theorem wilderAverage_eq (hp : 0 < period) (values : List ℚ) :
    wilderAverage values period = seeded (1 / (period : ℚ)) period values := by
  have hne : (period : ℚ) ≠ 0 := Nat.cast_ne_zero.mpr hp.ne'
  rw [wilderAverage]
  refine foldl_eq_smooth (fun x v => ?_) _ _
  field_simp
  ring

end Sums

/-- The smoothed movements and true ranges from the first candle that has all its sums. -/
def smoothed (highs lows closes : List ℚ) (period : ℕ) : List Smoothed :=
  List.zipWith3 Smoothed.mk (runningSums (plusDms highs lows) period)
    (runningSums (minusDms highs lows) period) (runningSums (trueRanges highs lows closes) period)

structure Smoothed.Nonneg (s : Smoothed) : Prop where
  plus : 0 ≤ s.plus
  minus : 0 ≤ s.minus
  tr : 0 ≤ s.tr

theorem smoothed_nonneg {highs lows closes : List ℚ} {period : ℕ} (hp : 0 < period) :
    ∀ s ∈ smoothed highs lows closes period, s.Nonneg := by
  intro s hs
  obtain ⟨a, ha, b, hb, c, hc, rfl⟩ := mem_zipWith3 hs
  exact ⟨runningSums_nonneg hp plusDms_nonneg a ha, runningSums_nonneg hp minusDms_nonneg b hb,
    runningSums_nonneg hp trueRanges_nonneg c hc⟩

theorem filterMap_valid (as bs cs : List ℚ) :
    (List.zipWith3 valid (as.map some) (bs.map some) (cs.map some)).filterMap id =
      (List.zipWith3 Smoothed.mk as bs cs).filter fun s => s.tr ≠ 0 := by
  induction as generalizing bs cs with
  | nil => rfl
  | cons a as ih =>
    cases bs with
    | nil => rfl
    | cons b bs =>
      cases cs with
      | nil => rfl
      | cons c cs =>
        simp only [List.map_cons, List.zipWith3]
        by_cases hc : c = 0
        · have hskip : valid (some a) (some b) (some c) = none := if_pos hc
          rw [hskip, List.filterMap_cons_none (f := id) rfl,
            List.filter_cons_of_neg (by simpa using hc), ih]
        · have hkeep : valid (some a) (some b) (some c) = some ⟨a, b, c⟩ := if_neg hc
          rw [hkeep, List.filterMap_cons_some (f := id) rfl,
            List.filter_cons_of_pos (by simpa using hc), ih]

/-- The bars of a window: as many highs and lows as closes. -/
structure SameLength (highs lows closes : List ℚ) : Prop where
  highs : highs.length = closes.length
  lows : lows.length = closes.length

section Adx
variable {highs lows closes : List ℚ} {period : ℕ}

theorem SameLength.length_trueRanges (h : SameLength highs lows closes) :
    (trueRanges highs lows closes).length = closes.length - 1 := by
  rw [trueRanges, length_zipWith3, List.length_tail, List.length_tail, h.highs, h.lows]
  omega

theorem SameLength.length_plusDms (h : SameLength highs lows closes) :
    (plusDms highs lows).length = closes.length - 1 := by
  simp only [plusDms, upMoves, downMoves, List.length_zipWith, List.length_tail, h.highs, h.lows]
  omega

theorem SameLength.length_minusDms (h : SameLength highs lows closes) :
    (minusDms highs lows).length = closes.length - 1 := by
  simp only [minusDms, upMoves, downMoves, List.length_zipWith, List.length_tail, h.highs, h.lows]
  omega

theorem SameLength.length_smoothed (h : SameLength highs lows closes)
    (hlong : period < closes.length) :
    (smoothed highs lows closes period).length = closes.length - period := by
  rw [smoothed, length_zipWith3, length_runningSums, length_runningSums, length_runningSums,
    h.length_plusDms, h.length_minusDms, h.length_trueRanges]
  omega

/-- The loop takes up the smoothed entries whose true range is not zero. -/
theorem SameLength.dxEntries_eq (h : SameLength highs lows closes)
    (hlong : period < closes.length) : dxEntries highs lows closes period =
      (smoothed highs lows closes period).filter fun s => s.tr ≠ 0 := by
  have hle : period ≤ closes.length - 1 := by omega
  rw [dxEntries, wilderSmooth_eq (by rwa [h.length_plusDms]),
    wilderSmooth_eq (by rwa [h.length_minusDms]), wilderSmooth_eq (by rwa [h.length_trueRanges]),
    drop_zipWith3_replicate, filterMap_valid]
  rfl

/-- What `dx` gives where its divisions are possible. -/
def Smoothed.dxValue (s : Smoothed) : ℚ :=
  let plusDi := 100 * s.plus / s.tr
  let minusDi := 100 * s.minus / s.tr
  if plusDi + minusDi = 0 then 0 else 100 * |plusDi - minusDi| / (plusDi + minusDi)

theorem dx_eq {s : Smoothed} (h : s.tr ≠ 0) : dx s = .ok s.dxValue := by
  rw [dx, divide_of_ne h, divide_of_ne h, Smoothed.dxValue]
  change (if _ then _ else _) = _
  split
  · rfl
  · next hne => exact divide_of_ne hne

theorem Smoothed.Nonneg.dxValue_mem {s : Smoothed} (h : s.Nonneg) :
    0 ≤ s.dxValue ∧ s.dxValue ≤ 100 := by
  have hplus : 0 ≤ 100 * s.plus / s.tr := div_nonneg (mul_nonneg (by norm_num) h.plus) h.tr
  have hminus : 0 ≤ 100 * s.minus / s.tr := div_nonneg (mul_nonneg (by norm_num) h.minus) h.tr
  rw [dxValue]
  split
  · norm_num
  · next hne =>
    have hpos : 0 < 100 * s.plus / s.tr + 100 * s.minus / s.tr :=
      lt_of_le_of_ne (add_nonneg hplus hminus) (Ne.symm hne)
    have habs : |100 * s.plus / s.tr - 100 * s.minus / s.tr| ≤
        100 * s.plus / s.tr + 100 * s.minus / s.tr :=
      abs_sub_le_iff.mpr ⟨by linarith, by linarith⟩
    refine ⟨div_nonneg (mul_nonneg (by norm_num) (abs_nonneg _)) hpos.le, ?_⟩
    rw [div_le_iff₀ hpos]
    exact mul_le_mul_of_nonneg_left habs (by norm_num)

/-- The values in `dx_list`. -/
def dxValues (highs lows closes : List ℚ) (period : ℕ) : List ℚ :=
  (dxEntries highs lows closes period).map Smoothed.dxValue

theorem mapM_dx {entries : List Smoothed} (h : ∀ s ∈ entries, s.tr ≠ 0) :
    entries.mapM dx = .ok (entries.map Smoothed.dxValue) := by
  induction entries with
  | nil => rfl
  | cons s entries ih =>
    obtain ⟨hs, hrest⟩ := List.forall_mem_cons.mp h
    rw [List.mapM_cons, dx_eq hs, ih hrest]
    rfl

theorem lastValid_concat (series : List (Option ℚ)) (v : ℚ) :
    lastValid (series ++ [some v]) = some v := by
  rw [lastValid, List.reverse_append]
  rfl

/-- The last smoothed sum is the smoothed mean times the period. -/
theorem lastValid_wilderSmooth (hp : 0 < period) {values : List ℚ}
    (hle : period ≤ values.length) :
    (lastValid (wilderSmooth values period)).map (fun v => v / (period : ℚ)) =
      some (seeded (1 / (period : ℚ)) period values) := by
  have hne : (period : ℚ) ≠ 0 := Nat.cast_ne_zero.mpr hp.ne'
  have hlast : (runningSums values period).getLast? = some ((values.drop period).foldl
      (fun prev v => prev - prev / (period : ℚ) + v) (values.take period).sum) :=
    List.getLast?_scanl
  obtain ⟨init, hinit⟩ := List.getLast?_eq_some_iff.mp hlast
  rw [wilderSmooth_eq hle, hinit, List.map_append, ← List.append_assoc, List.map_singleton,
    lastValid_concat, Option.map_some, sum_smooth hne, seeded]

/-- The ADX of the engine: no division fails, and the mean of the DX values is smoothed. -/
theorem SameLength.computeAdx_eq (h : SameLength highs lows closes) (hp : 0 < period) :
    computeAdx highs lows closes period = .ok
      (if closes.length < 2 * period then none
      else if (dxValues highs lows closes period).length < period then none
      else some (seeded (1 / (period : ℚ)) period (dxValues highs lows closes period))) := by
  rw [computeAdx]
  by_cases hshort : closes.length < 2 * period
  · rw [if_pos hshort, if_pos hshort]
    rfl
  · have hentries : ∀ s ∈ dxEntries highs lows closes period, s.tr ≠ 0 := by
      intro s hs
      rw [h.dxEntries_eq (by omega)] at hs
      simpa using List.of_mem_filter hs
    rw [if_neg hshort, if_neg hshort, mapM_dx hentries]
    change (if (dxValues highs lows closes period).length < period then _ else _) = _
    split
    · rfl
    · next hlong =>
      have hlast := lastValid_wilderSmooth hp (not_lt.mp hlong)
      rw [dxValues] at *
      rw [hlast]
      rfl

end Adx

end QuantEmbrace.Features
