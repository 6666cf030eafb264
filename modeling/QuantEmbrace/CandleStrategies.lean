import QuantEmbrace.StrategyBase

/-! VWAP reversion, pre-close momentum and the fifteen-minute trend. -/
namespace QuantEmbrace.Strategies
open Indicators RiskCheck Candles

/-- The price lists that several strategies keep. -/
structure PriceBuffers where
  highs : List ℚ := []
  lows : List ℚ := []
  closes : List ℚ := []
  deriving DecidableEq, Repr

def PriceBuffers.append (n : ℕ) (bar : Bar) (b : PriceBuffers) : PriceBuffers where
  highs := push n b.highs bar.high
  lows := push n b.lows bar.low
  closes := push n b.closes bar.closePrice

/-- `none` also for a range that is not positive, as every caller asks. -/
def PriceBuffers.positiveAtr (period : ℕ) (b : PriceBuffers) : Option ℚ :=
  (atrWilder b.highs b.lows b.closes period).filter fun atr => 0 < atr

theorem PriceBuffers.length_append_le (n : ℕ) (bar : Bar) (b : PriceBuffers) :
    (b.append n bar).closes.length ≤ b.closes.length + 1 :=
  length_push_le n b.closes bar.closePrice

theorem PriceBuffers.positiveAtr_short {n period : ℕ} {bar : Bar} {b : PriceBuffers}
    (h : b.closes.length < period) : (b.append n bar).positiveAtr period = none := by
  have hatr : atrWilder (b.append n bar).highs (b.append n bar).lows (b.append n bar).closes
      period = none := atrWilder_short ((b.length_append_le n bar).trans h)
  rw [positiveAtr, hatr]
  rfl

/-- The intraday lists of a VWAP. -/
structure VwapLists where
  highs : List ℚ := []
  lows : List ℚ := []
  closes : List ℚ := []
  volumes : List ℤ := []
  deriving DecidableEq, Repr

def VwapLists.append (bar : Bar) (l : VwapLists) : VwapLists where
  highs := l.highs ++ [bar.high]
  lows := l.lows ++ [bar.low]
  closes := l.closes ++ [bar.closePrice]
  volumes := l.volumes ++ [bar.volume]

def istMarketOpen : ℤ := 9 * 60 + 15

/-- A BUY below the line or a SELL above it. -/
def wrongSide (direction : OrderSide) (price line : ℚ) : Bool :=
  match direction with
  | .buy => decide (price < line)
  | .sell => decide (line < price)

structure VWAPReversionStrategy where
  name : String := "vwap_reversion"
  symbols : List String := []
  market : String := "NSE"
  bandStd : ℚ := 2
  atrPeriod : ℕ := 14
  atrStopMult : ℚ := 1
  minConf : ℚ := 60 / 100
  cooldown : ℕ := 5
  minWickRatio : ℚ := 4 / 10
  nav : ℚ := 1000000
  paper : Bool := true
  deriving DecidableEq, Repr

structure VwapRolling where
  atr : PriceBuffers := {}
  barsSinceSignal : ℕ
  deriving DecidableEq, Repr

namespace VWAPReversionStrategy
variable (p : VWAPReversionStrategy) (sqrt : ℚ → Except PyError ℚ)

/-- `_emit` -/
def emit (bar : Bar) (direction : OrderSide) (bands : VwapBands) (atr confidence : ℚ) :
    Option Signal :=
  let price := bar.closePrice
  let stopDist := max (p.atrStopMult * atr) (|bands.upper - bands.lower| / 2)
  if stopDist ≤ 0 then none
  else
    let sizing := sizePosition price stopDist p.nav confidence
    if sizing.Rejects then none
    else some {
      symbol := bar.symbol
      market := p.market
      direction
      quantity := sizing.qty
      confidence := roundTo 4 confidence
      strategyName := p.name
      priceAtSignal := price
      stopLoss := roundTo 4 (stopSide direction price stopDist)
      takeProfit := roundTo 4 bands.vwap
      metadata :=
        [("vwap", .number (roundTo 4 bands.vwap)),
          ("upper_band", .number (roundTo 4 bands.upper)),
          ("lower_band", .number (roundTo 4 bands.lower)),
          ("band_std", .number p.bandStd),
          ("atr", .number (roundTo 4 atr)),
          ("stop_distance", .number (roundTo 4 stopDist)),
          ("paper_trade", .flag p.paper),
          ("strategy_version", .text "vwap_rev_v1")] ++ sizing.toMetadata }

/-- The rejection candle: `deviation` over `width` standard deviations outside the band, with a
long enough wick. -/
def rejection (bar : Bar) (direction : OrderSide) (bands : VwapBands)
    (atr wick deviation width : ℚ) : Option Signal :=
  let wickRatio := wick / (bar.high - bar.low)
  if wickRatio < p.minWickRatio then none
  else
    let deviationStd := if width ≠ 0 then deviation / width else 0
    let confidence := min 1 (1 / 2 + deviationStd * (1 / 4) + wickRatio * (1 / 4))
    if confidence < p.minConf then none else p.emit bar direction bands atr confidence

/-- The signal at a bar that is past the gates. -/
def reversal (bar : Bar) (intraday : VwapLists) (buffers : PriceBuffers) : Outcome := do
  match ← vwapBands sqrt intraday.highs intraday.lows intraday.closes intraday.volumes
      p.bandStd with
  | none => return none
  | some bands =>
    match buffers.positiveAtr p.atrPeriod with
    | none => return none
    | some atr =>
      if bar.high - bar.low ≤ 0 then return none
      else if bar.closePrice < bands.lower then
        return p.rejection bar .buy bands atr (bar.closePrice - bar.low)
          (bands.vwap - bar.closePrice) (bands.vwap - bands.lower)
      else if bands.upper < bar.closePrice then
        return p.rejection bar .sell bands atr (bar.high - bar.closePrice)
          (bar.closePrice - bands.vwap) (bands.upper - bands.vwap)
      else return none

/-- The lists are emptied by a bar before the open, and any later bar is added. -/
def accumulate (bar : Bar) (l : VwapLists) : VwapLists :=
  if istMin bar.timestamp < istMarketOpen then {} else l.append bar

/-- 09:30 to 14:30 IST -/
def InHours (bar : Bar) : Prop :=
  9 * 60 + 30 ≤ istMin bar.timestamp ∧ istMin bar.timestamp < 14 * 60 + 30

instance (bar : Bar) : Decidable (InHours bar) := instDecidableAnd

def onBar (e : Dispatch) (x : Session VwapLists VwapRolling) :
    Session VwapLists VwapRolling × Outcome :=
  let d := accumulate e.bar x.daily
  let r : VwapRolling := ⟨x.rolling.atr.append 60 e.bar, x.rolling.barsSinceSignal + 1⟩
  if ¬ InHours e.bar ∨ d.closes.length < 5 ∨ r.barsSinceSignal < p.cooldown then
    (⟨d, r⟩, .ok none)
  else
    match p.reversal sqrt e.bar d r.atr with
    | .ok (some signal) => (⟨d, { r with barsSinceSignal := 0 }⟩, .ok (some signal))
    | quiet => (⟨d, r⟩, quiet)

def strategy : Strategy VwapLists VwapRolling where
  name := p.name
  symbols := p.symbols
  candleInterval := "minute"
  fresh := ⟨{}, { barsSinceSignal := p.cooldown }⟩
  onBar := p.onBar sqrt
  onTick _ x := x
  resetDaily x := ⟨{}, { x.rolling with barsSinceSignal := p.cooldown }⟩

theorem onBar_atr (e : Dispatch) (x : Session VwapLists VwapRolling) :
    (p.onBar sqrt e x).1.rolling.atr = x.rolling.atr.append 60 e.bar := by
  rw [onBar]
  split
  · rfl
  · split <;> rfl

theorem length_closes_le (e : Dispatch) (x : Session VwapLists VwapRolling) :
    (p.onBar sqrt e x).1.rolling.atr.closes.length ≤ x.rolling.atr.closes.length + 1 := by
  rw [onBar_atr]
  exact PriceBuffers.length_append_le _ _ _

/-- Nothing is signalled out of hours. -/
theorem onBar_quiet (e : Dispatch) (x : Session VwapLists VwapRolling) (h : ¬ InHours e.bar) :
    (p.onBar sqrt e x).2 = .ok none := by
  rw [onBar, if_pos (.inl h)]

theorem onBar_short (e : Dispatch) (x : Session VwapLists VwapRolling)
    (h : x.rolling.atr.closes.length < p.atrPeriod) :
    Outcome.signal (p.onBar sqrt e x).2 = none := by
  have hquiet : Outcome.signal (p.reversal sqrt e.bar (accumulate e.bar x.daily)
      (x.rolling.atr.append 60 e.bar)) = none := by
    rw [reversal, PriceBuffers.positiveAtr_short h]
    obtain raised | _ | bands := vwapBands sqrt _ _ _ _ p.bandStd <;> rfl
  rw [onBar]
  split
  · rfl
  · split
    · next signal hsome =>
      rw [hsome] at hquiet
      cases hquiet
    · next quiet _ => exact hquiet

end VWAPReversionStrategy

structure PreCloseMomentumStrategy where
  name : String := "preclose_momentum"
  symbols : List String := []
  market : String := "NSE"
  lookback : ℕ := 6
  minBias : ℚ := 60 / 100
  maxAtrPct : ℚ := 2 / 100
  atrPeriod : ℕ := 14
  atrStopMult : ℚ := 1
  tpPct : ℚ := 5 / 1000
  nav : ℚ := 1000000
  paper : Bool := true
  deriving DecidableEq, Repr

structure PreCloseDaily where
  vwap : VwapLists := {}
  signalFired : Bool := false
  deriving DecidableEq, Repr

structure PreCloseRolling extends PriceBuffers where
  opens : List ℚ := []
  deriving DecidableEq, Repr

namespace PreCloseMomentumStrategy
variable (p : PreCloseMomentumStrategy)

def bufferSize : ℕ := max (p.lookback + 2) (p.atrPeriod * 2)

def append (bar : Bar) (r : PreCloseRolling) : PreCloseRolling where
  toPriceBuffers := r.toPriceBuffers.append p.bufferSize bar
  opens := push p.bufferSize r.opens bar.openPrice

/-- `_compute_bias`; `none` is the pair of `None` and 0. -/
def computeBias (closes opens : List ℚ) : Option (OrderSide × ℚ) :=
  match closes.head?, closes.getLast?, opens.getLast? with
  | some first, some last, some lastOpen =>
    if closes.length < 2 then none
    else
      let n : ℚ := closes.length
      let bullBars : ℚ := (List.zip closes opens).countP fun b => b.2 < b.1
      let totalReturn := if 0 < first then (last - first) / first else 0
      let momentumMag := min (3 / 10) (|totalReturn| * 100)
      if 0 < totalReturn then
        if last ≤ lastOpen then none
        else some (.buy, min 1 (bullBars / n * (7 / 10) + momentumMag))
      else if totalReturn < 0 then
        if lastOpen < last then none
        else some (.sell, min 1 ((n - bullBars) / n * (7 / 10) + momentumMag))
      else none
  | _, _, _ => none

/-- The signal at a bar that is past the gates. -/
def preClose (bar : Bar) (lists : VwapLists) (r : PreCloseRolling) : Outcome :=
  if r.closes.length < p.lookback then .ok none
  else
    match r.positiveAtr p.atrPeriod with
    | none => .ok none
    | some atr =>
      let price := bar.closePrice
      if price = 0 then .error .zeroDivisionError
      else if p.maxAtrPct < atr / price then .ok none
      else
        match computeBias (lastN p.lookback r.closes) (lastN p.lookback r.opens) with
        | none => .ok none
        | some (direction, biasScore) =>
          let vwapV := vwap lists.highs lists.lows lists.closes lists.volumes
          if biasScore < p.minBias ∨ vwapV.any (wrongSide direction price) = true then .ok none
          else
            let stopDist := p.atrStopMult * atr
            let tpDist := max (price * p.tpPct) (stopDist * (3 / 2))
            let confidence := min 1 (1 / 2 + (biasScore - p.minBias))
            let sizing := sizePosition price stopDist p.nav confidence
            if sizing.Rejects then .ok none
            else .ok <| some {
              symbol := bar.symbol
              market := p.market
              direction
              quantity := sizing.qty
              confidence := roundTo 4 confidence
              strategyName := p.name
              priceAtSignal := price
              stopLoss := roundTo 4 (stopSide direction price stopDist)
              takeProfit := roundTo 4 (profitSide direction price tpDist)
              metadata :=
                [("bias_score", .number (roundTo 4 biasScore)),
                  ("atr", .number (roundTo 4 atr)),
                  ("vwap", vwapV.elim .null fun v => .number (roundTo 4 v)),
                  ("stop_distance", .number (roundTo 4 stopDist)),
                  ("must_close_by", .text "15:10 IST"),
                  ("paper_trade", .flag p.paper),
                  ("strategy_version", .text "preclose_mom_v1")] ++ sizing.toMetadata }

/-- 14:45 to 15:10 IST -/
def InHours (bar : Bar) : Prop :=
  14 * 60 + 45 ≤ istMin bar.timestamp ∧ istMin bar.timestamp < 15 * 60 + 10

instance (bar : Bar) : Decidable (InHours bar) := instDecidableAnd

/-- Bars at or after the open are added, and none is ever dropped. -/
def accumulate (bar : Bar) (l : VwapLists) : VwapLists :=
  if istMarketOpen ≤ istMin bar.timestamp then l.append bar else l

def onBar (e : Dispatch) (x : Session PreCloseDaily PreCloseRolling) :
    Session PreCloseDaily PreCloseRolling × Outcome :=
  let r := p.append e.bar x.rolling
  let d := { x.daily with vwap := accumulate e.bar x.daily.vwap }
  if ¬ InHours e.bar ∨ d.signalFired = true then (⟨d, r⟩, .ok none)
  else
    match p.preClose e.bar d.vwap r with
    | .ok (some signal) => (⟨{ d with signalFired := true }, r⟩, .ok (some signal))
    | quiet => (⟨d, r⟩, quiet)

def strategy : Strategy PreCloseDaily PreCloseRolling where
  name := p.name
  symbols := p.symbols
  candleInterval := "5minute"
  fresh := ⟨{}, {}⟩
  onBar := p.onBar
  onTick _ x := x
  resetDaily x := { x with daily := {} }

theorem onBar_rolling (e : Dispatch) (x : Session PreCloseDaily PreCloseRolling) :
    (p.onBar e x).1.rolling = p.append e.bar x.rolling := by
  rw [onBar]
  split
  · rfl
  · split <;> rfl

theorem length_closes_le (e : Dispatch) (x : Session PreCloseDaily PreCloseRolling) :
    (p.onBar e x).1.rolling.closes.length ≤ x.rolling.closes.length + 1 := by
  rw [onBar_rolling]
  exact PriceBuffers.length_append_le _ _ _

/-- Nothing is signalled out of hours. -/
theorem onBar_quiet (e : Dispatch) (x : Session PreCloseDaily PreCloseRolling)
    (h : ¬ InHours e.bar) : (p.onBar e x).2 = .ok none := by
  rw [onBar, if_pos (.inl h)]

theorem onBar_short (e : Dispatch) (x : Session PreCloseDaily PreCloseRolling)
    (h : x.rolling.closes.length < p.atrPeriod) : (p.onBar e x).2 = .ok none := by
  have hatr : (p.append e.bar x.rolling).positiveAtr p.atrPeriod = none :=
    PriceBuffers.positiveAtr_short h
  have hquiet : ∀ lists, p.preClose e.bar lists (p.append e.bar x.rolling) = .ok none := by
    intro lists
    rw [preClose, hatr, ite_self]
  rw [onBar]
  simp only [hquiet, ite_self]

end PreCloseMomentumStrategy

/-- Two moving averages at the last two bars. -/
structure Crossing where
  fastNow : ℚ
  slowNow : ℚ
  fastPrev : ℚ
  slowPrev : ℚ
  deriving DecidableEq, Repr

/-- `none` where any of the four is NaN. -/
def crossing (closes : List ℚ) (fast slow : ℕ) : Option Crossing := do
  let fastSeries := emaSeries closes fast
  let slowSeries := emaSeries closes slow
  return ⟨← lastValue fastSeries, ← lastValue slowSeries, ← prevValue fastSeries,
    ← prevValue slowSeries⟩

/-- The side of a cross at the last bar. -/
def Crossing.direction (c : Crossing) : Option OrderSide :=
  let aboveNow := decide (c.slowNow < c.fastNow)
  let abovePrev := decide (c.slowPrev < c.fastPrev)
  if aboveNow = abovePrev then none else if aboveNow then some .buy else some .sell

structure IntradayTrend15mStrategy where
  name : String := "intraday_trend_15m"
  symbols : List String := []
  market : String := "NSE"
  fast : ℕ := 9
  slow : ℕ := 21
  trend : ℕ := 50
  adxPeriod : ℕ := 14
  adxThresh : ℚ := 25
  atrPeriod : ℕ := 14
  atrStopMult : ℚ := 3 / 2
  rr : ℚ := 5 / 2
  minBars : ℕ := 4
  minConf : ℚ := 65 / 100
  nav : ℚ := 1000000
  paper : Bool := true
  deriving DecidableEq, Repr

structure TrendDaily where
  signalFiredToday : Finset OrderSide := ∅
  barCount : ℕ := 0
  deriving DecidableEq

namespace IntradayTrend15mStrategy
variable (p : IntradayTrend15mStrategy)

/-- `_build` -/
def build (bar : Bar) (direction : OrderSide) (fastEma slowEma trendEma atr adxV confidence : ℚ) :
    Option Signal :=
  let price := bar.closePrice
  let stopDist := p.atrStopMult * atr
  let sizing := sizePosition price stopDist p.nav confidence
  if sizing.Rejects then none
  else some {
    symbol := bar.symbol
    market := p.market
    direction
    quantity := sizing.qty
    confidence := roundTo 4 confidence
    strategyName := p.name
    priceAtSignal := price
    stopLoss := roundTo 4 (stopSide direction price stopDist)
    takeProfit := roundTo 4 (profitSide direction price (stopDist * p.rr))
    metadata :=
      [("fast_ema", .number (roundTo 4 fastEma)),
        ("slow_ema", .number (roundTo 4 slowEma)),
        ("trend_ema", .number (roundTo 4 trendEma)),
        ("adx", .number (roundTo 2 adxV)),
        ("atr", .number (roundTo 4 atr)),
        ("rr_ratio", .number p.rr),
        ("paper_trade", .flag p.paper),
        ("strategy_version", .text "trend_15m_v1")] ++ sizing.toMetadata }

/-- The side that is marked as fired, and the signal, which sizing may withhold. -/
def entry (bar : Bar) (buffers : PriceBuffers) (fired : Finset OrderSide) :
    Option (OrderSide × Option Signal) := do
  guard (p.trend + 2 ≤ buffers.closes.length)
  let c ← crossing buffers.closes p.fast p.slow
  let trendEma ← lastValue (emaSeries buffers.closes p.trend)
  let direction ← c.direction
  guard (direction ∉ fired)
  guard (wrongSide direction bar.closePrice trendEma = false)
  let atr ← buffers.positiveAtr p.atrPeriod
  let adxV ← adx buffers.highs buffers.lows buffers.closes p.adxPeriod
  guard (p.adxThresh ≤ adxV)
  let confEma := min (4 / 10) (|c.fastNow - c.slowNow| / (atr * 2))
  let confAdx := min (4 / 10) ((adxV - p.adxThresh) / 50)
  let confidence := min 1 (2 / 10 + confEma + confAdx)
  guard (p.minConf ≤ confidence)
  return (direction, p.build bar direction c.fastNow c.slowNow trendEma atr adxV confidence)

/-- 09:30 to 14:15 IST -/
def InHours (bar : Bar) : Prop :=
  9 * 60 + 30 ≤ istMin bar.timestamp ∧ istMin bar.timestamp < 14 * 60 + 15

instance (bar : Bar) : Decidable (InHours bar) := instDecidableAnd

def onBar (e : Dispatch) (x : Session TrendDaily PriceBuffers) :
    Session TrendDaily PriceBuffers × Outcome :=
  let r := x.rolling.append (max p.trend p.adxPeriod * 3) e.bar
  let d := { x.daily with barCount := x.daily.barCount + 1 }
  if ¬ InHours e.bar ∨ d.barCount < p.minBars ∨ d.signalFiredToday = {.buy, .sell} then
    (⟨d, r⟩, .ok none)
  else
    match p.entry e.bar r d.signalFiredToday with
    | none => (⟨d, r⟩, .ok none)
    | some (direction, signal) =>
      (⟨{ d with signalFiredToday := insert direction d.signalFiredToday }, r⟩, .ok signal)

def strategy : Strategy TrendDaily PriceBuffers where
  name := p.name
  symbols := p.symbols
  candleInterval := "15minute"
  fresh := ⟨{}, {}⟩
  onBar := p.onBar
  onTick _ x := x
  resetDaily x := { x with daily := {} }

theorem onBar_rolling (e : Dispatch) (x : Session TrendDaily PriceBuffers) :
    (p.onBar e x).1.rolling = x.rolling.append (max p.trend p.adxPeriod * 3) e.bar := by
  rw [onBar]
  split
  · rfl
  · split <;> rfl

theorem length_closes_le (e : Dispatch) (x : Session TrendDaily PriceBuffers) :
    (p.onBar e x).1.rolling.closes.length ≤ x.rolling.closes.length + 1 := by
  rw [onBar_rolling]
  exact PriceBuffers.length_append_le _ _ _

/-- Nothing is signalled out of hours. -/
theorem onBar_quiet (e : Dispatch) (x : Session TrendDaily PriceBuffers) (h : ¬ InHours e.bar) :
    (p.onBar e x).2 = .ok none := by
  rw [onBar, if_pos (.inl h)]

theorem onBar_short (e : Dispatch) (x : Session TrendDaily PriceBuffers)
    (h : x.rolling.closes.length ≤ p.trend) : (p.onBar e x).2 = .ok none := by
  have hnone : ∀ fired, p.entry e.bar
      (x.rolling.append (max p.trend p.adxPeriod * 3) e.bar) fired = none := by
    intro fired
    have hlen := x.rolling.length_append_le (max p.trend p.adxPeriod * 3) e.bar
    have hshort : ¬ p.trend + 2 ≤
        (x.rolling.append (max p.trend p.adxPeriod * 3) e.bar).closes.length := by omega
    rw [entry, guard, if_neg hshort]
    rfl
  rw [onBar]
  simp only [hnone, ite_self]

end IntradayTrend15mStrategy

end QuantEmbrace.Strategies
