import QuantEmbrace.CandleStrategies
import QuantEmbrace.OrbStrategy
import Mathlib.Data.List.Sort

/-! The one-minute scalp strategy, the tick-fed momentum strategy, and what the service
registers. -/
namespace QuantEmbrace.Strategies
open Indicators RiskCheck Candles

structure Scalp1mStrategy where
  name : String := "scalp_1m"
  symbols : List String := []
  market : String := "NSE"
  fast : ℕ := 9
  slow : ℕ := 21
  atrPeriod : ℕ := 14
  atrStopMult : ℚ := 1 / 2
  rr : ℚ := 3 / 2
  volMult : ℚ := 3 / 2
  minBodyPct : ℚ := 3 / 10
  minConf : ℚ := 55 / 100
  maxSig : ℕ := 3
  minStopPct : ℚ := 15 / 10000
  minTargetPct : ℚ := 25 / 10000
  minSpreadMult : ℚ := 3
  minTickMult : ℚ := 5
  maxSpreadPct : ℚ := 8 / 10000
  minNetEdgePct : ℚ := 12 / 100
  rejectIfSpreadUnavailable : Bool := true
  rejectIfLtpStale : Bool := true
  nav : ℚ := 1000000
  paper : Bool := true
  deriving DecidableEq, Repr

def tickSizeNse : ℚ := 5 / 100
def costRoundtripPct : ℚ := 15 / 100
def maxCandleAgeSeconds : ℚ := 120

/-- `_signal_count[symbol]` -/
structure SignalCount where
  buy : ℕ := 0
  sell : ℕ := 0
  deriving DecidableEq, Repr

namespace SignalCount
variable (c : SignalCount)

def get : OrderSide → ℕ
  | .buy => c.buy
  | .sell => c.sell

def increment : OrderSide → SignalCount
  | .buy => { c with buy := c.buy + 1 }
  | .sell => { c with sell := c.sell + 1 }

end SignalCount

structure ScalpRolling extends PriceBuffers where
  volumes : List ℤ := []
  barRanges : List ℚ := []
  deriving DecidableEq, Repr

inductive StopSource where
  | atr
  | spreadFloor
  | tickFloor
  | pctFloor
  deriving DecidableEq, Repr

def StopSource.text : StopSource → String
  | atr => "ATR"
  | spreadFloor => "SPREAD_FLOOR"
  | tickFloor => "TICK_FLOOR"
  | pctFloor => "PCT_FLOOR"

/-- `max(candidates, key=lambda x: x[0])`: the first of the largest. -/
def firstMax (best : ℚ × StopSource) : List (ℚ × StopSource) → ℚ × StopSource
  | [] => best
  | x :: rest => firstMax (if best.1 < x.1 then x else best) rest

structure ScalpStopResult where
  stopDistance : ℚ
  stopDistanceSource : StopSource
  tpDistance : ℚ
  tpDistanceSource : String
  atrStopDistance : ℚ
  spreadFloorDistance : ℚ
  tickFloorDistance : ℚ
  pctFloorDistance : ℚ
  spreadEstimate : ℚ
  netExpectedEdgePct : ℚ
  deriving DecidableEq, Repr

/-- `_estimate_spread`: a tenth of the median of the last five ranges, at least 5 bps. -/
def estimateSpread (price : ℚ) (recentRanges : List ℚ) : ℚ :=
  let sample := (lastN 5 recentRanges).insertionSort (· ≤ ·)
  let medianRange := (sample[sample.length / 2]?).getD 0
  max (medianRange * (1 / 10)) (price * (5 / 10000))

namespace Scalp1mStrategy
variable (p : Scalp1mStrategy)

/-- `_compute_stop_floor`; it divides by the price. -/
def computeStopFloor (price atr : ℚ) (recentRanges : List ℚ) : Except PyError ScalpStopResult :=
  let spreadEst := estimateSpread price recentRanges
  let atrDist := p.atrStopMult * atr
  let spreadDist := p.minSpreadMult * spreadEst
  let tickDist := p.minTickMult * tickSizeNse
  let pctDist := p.minStopPct * price
  let stop := firstMax (atrDist, .atr)
    [(spreadDist, .spreadFloor), (tickDist, .tickFloor), (pctDist, .pctFloor)]
  let rrTp := stop.1 * p.rr
  let pctTp := p.minTargetPct * price
  let tp := if pctTp ≤ rrTp then (rrTp, "RR") else (pctTp, "PCT_FLOOR")
  if price = 0 then .error .zeroDivisionError
  else .ok {
    stopDistance := stop.1
    stopDistanceSource := stop.2
    tpDistance := tp.1
    tpDistanceSource := tp.2
    atrStopDistance := atrDist
    spreadFloorDistance := spreadDist
    tickFloorDistance := tickDist
    pctFloorDistance := pctDist
    spreadEstimate := spreadEst
    netExpectedEdgePct := tp.1 / price * 100 - costRoundtripPct }

/-- `_check_viability` -/
def Viable (price : ℚ) (result : ScalpStopResult) : Prop :=
  result.spreadEstimate / price * 100 ≤ p.maxSpreadPct * 100 ∧
    2 * result.spreadEstimate ≤ result.tpDistance ∧
    p.minNetEdgePct ≤ result.netExpectedEdgePct

instance (price : ℚ) (result : ScalpStopResult) : Decidable (p.Viable price result) :=
  instDecidableAnd

/-- `_build_signal` -/
def buildSignal (bar : Bar) (direction : OrderSide) (fastEma slowEma atr confidence : ℚ)
    (recentRanges : List ℚ) : Outcome := do
  let price := bar.closePrice
  let floor ← p.computeStopFloor price atr recentRanges
  let sizing := sizePosition price floor.stopDistance p.nav confidence
  if ¬ p.Viable price floor ∨ sizing.Rejects then return none
  else return some {
    symbol := bar.symbol
    market := p.market
    direction
    quantity := sizing.qty
    confidence := roundTo 4 confidence
    strategyName := p.name
    priceAtSignal := price
    stopLoss := roundTo 4 (stopSide direction price floor.stopDistance)
    takeProfit := roundTo 4 (profitSide direction price floor.tpDistance)
    metadata :=
      [("fast_ema", .number (roundTo 4 fastEma)),
        ("slow_ema", .number (roundTo 4 slowEma)),
        ("ema_spread", .number (roundTo 4 |fastEma - slowEma|)),
        ("atr", .number (roundTo 4 atr)),
        ("bar_volume", .number bar.volume),
        ("stop_distance", .number (roundTo 4 floor.stopDistance)),
        ("stop_distance_source", .text floor.stopDistanceSource.text),
        ("atr_stop_distance", .number (roundTo 4 floor.atrStopDistance)),
        ("spread_floor_distance", .number (roundTo 4 floor.spreadFloorDistance)),
        ("tick_floor_distance", .number (roundTo 4 floor.tickFloorDistance)),
        ("pct_floor_distance", .number (roundTo 4 floor.pctFloorDistance)),
        ("tp_distance", .number (roundTo 4 floor.tpDistance)),
        ("tp_distance_source", .text floor.tpDistanceSource),
        ("spread_estimate", .number (roundTo 4 floor.spreadEstimate)),
        ("net_expected_edge_pct", .number (roundTo 3 floor.netExpectedEdgePct)),
        ("rr_ratio", .number p.rr),
        ("paper_trade", .flag p.paper),
        ("strategy_version", .text "scalp_1m_v2")] ++ sizing.toMetadata }

def append (bar : Bar) (r : ScalpRolling) : ScalpRolling where
  toPriceBuffers := r.toPriceBuffers.append (p.slow * 3) bar
  volumes := push 20 r.volumes bar.volume
  barRanges := push 10 r.barRanges (bar.high - bar.low)

/-- The cross at the last bar, if there are bars enough. -/
def cross (r : ScalpRolling) : Option (Crossing × OrderSide) := do
  guard (p.slow + 2 ≤ r.closes.length)
  let c ← crossing r.closes p.fast p.slow
  let direction ← c.direction
  return (c, direction)

/-- The filters between the daily cap and the signal: staleness, volume, ATR, body, confidence
and the bar's own range. They leave the ATR and the confidence. -/
def filters (e : Dispatch) (r : ScalpRolling) (c : Crossing) : Option (ℚ × ℚ) := do
  guard (p.rejectIfLtpStale = true → e.now - e.bar.timestamp ≤ maxCandleAgeSeconds)
  let avgVol := averageVolume r.volumes
  guard (0 < avgVol → p.volMult * avgVol ≤ e.bar.volume)
  let atr ← r.positiveAtr p.atrPeriod
  guard (p.minBodyPct * atr ≤ |e.bar.closePrice - e.bar.openPrice|)
  let confidence := min 1 (1 / 2 + |c.fastNow - c.slowNow| / (atr * 2))
  guard (p.minConf ≤ confidence)
  guard (p.rejectIfSpreadUnavailable = true → 0 < e.bar.high - e.bar.low)
  return (atr, confidence)

/-- 09:30 to 14:45 IST -/
def InHours (bar : Bar) : Prop :=
  9 * 60 + 30 ≤ istMin bar.timestamp ∧ istMin bar.timestamp < 14 * 60 + 45

instance (bar : Bar) : Decidable (InHours bar) := instDecidableAnd

/-- The cross that passes all filters, and the signal that is built at it. -/
def candidate (e : Dispatch) (r : ScalpRolling) : Option (OrderSide × Outcome) := do
  guard (InHours e.bar)
  let (c, direction) ← p.cross r
  let (atr, confidence) ← p.filters e r c
  return (direction,
    p.buildSignal e.bar direction c.fastNow c.slowNow atr confidence r.barRanges)

/-- A candidate below the daily cap is counted, whether or not a signal comes of it, unless
building the signal raises. -/
def onBar (e : Dispatch) (x : Session SignalCount ScalpRolling) :
    Session SignalCount ScalpRolling × Outcome :=
  let r := p.append e.bar x.rolling
  match p.candidate e r with
  | none => (⟨x.daily, r⟩, .ok none)
  | some (direction, outcome) =>
    if p.maxSig ≤ x.daily.get direction then (⟨x.daily, r⟩, .ok none)
    else
      match outcome with
      | .error raised => (⟨x.daily, r⟩, .error raised)
      | .ok signal => (⟨x.daily.increment direction, r⟩, .ok signal)

def strategy : Strategy SignalCount ScalpRolling where
  name := p.name
  symbols := p.symbols
  candleInterval := "minute"
  fresh := ⟨{}, {}⟩
  onBar := p.onBar
  onTick _ x := x
  resetDaily x := { x with daily := {} }

theorem onBar_rolling (e : Dispatch) (x : Session SignalCount ScalpRolling) :
    (p.onBar e x).1.rolling = p.append e.bar x.rolling := by
  rw [onBar]
  split
  · rfl
  · split
    · rfl
    · split <;> rfl

theorem length_closes_le (e : Dispatch) (x : Session SignalCount ScalpRolling) :
    (p.onBar e x).1.rolling.closes.length ≤ x.rolling.closes.length + 1 := by
  rw [onBar_rolling]
  exact PriceBuffers.length_append_le _ _ _

/-- Nothing is signalled out of hours. -/
theorem onBar_quiet (e : Dispatch) (x : Session SignalCount ScalpRolling) (h : ¬ InHours e.bar) :
    (p.onBar e x).2 = .ok none := by
  have hnone : p.candidate e (p.append e.bar x.rolling) = none := by
    rw [candidate, guard, if_neg h]
    rfl
  rw [onBar, hnone]

theorem onBar_short (e : Dispatch) (x : Session SignalCount ScalpRolling)
    (h : x.rolling.closes.length ≤ p.slow) : (p.onBar e x).2 = .ok none := by
  have hnone : p.cross (p.append e.bar x.rolling) = none := by
    have hlen : (p.append e.bar x.rolling).closes.length ≤ x.rolling.closes.length + 1 :=
      PriceBuffers.length_append_le _ _ _
    have hshort : ¬ p.slow + 2 ≤ (p.append e.bar x.rolling).closes.length := by omega
    rw [cross, guard, if_neg hshort]
    rfl
  have hcand : p.candidate e (p.append e.bar x.rolling) = none := by
    rw [candidate, hnone]
    by_cases hhours : InHours e.bar <;> simp [hhours]
  rw [onBar, hcand]

end Scalp1mStrategy

structure MomentumStrategy where
  name : String := "momentum_v2"
  symbols : List String := []
  market : String := "NSE"
  shortWindow : ℕ := 10
  longWindow : ℕ := 50
  atrPeriod : ℕ := 14
  atrStopMult : ℚ := 2
  atrTpMult : ℚ := 3
  minConfidence : ℚ := 55 / 100
  nav : ℚ := 1000000
  deriving DecidableEq, Repr

/-- The dictionaries at one symbol; `none` is a missing key. -/
structure MomentumRolling where
  closes : Option (List ℚ) := none
  trueRanges : Option (List ℚ) := none
  prevClose : Option ℚ := none
  prevShortAboveLong : Option Bool := none
  deriving DecidableEq, Repr

namespace MomentumStrategy
variable (p : MomentumStrategy)

/-- `_compute_confidence` -/
def computeConfidence (shortMa longMa atr price : ℚ) : ℚ :=
  if price ≤ 0 ∨ atr ≤ 0 then 0
  else max 0 (min 1 (|shortMa - longMa| / price / max (atr / price) (1 / 10 ^ 9)))

/-- `_build_signal`; it divides by the stop distance. -/
def buildSignal (bar : Bar) (direction : OrderSide) (confidence atr shortMa longMa : ℚ) :
    Except PyError Signal :=
  let price := bar.closePrice
  let stopDistance := p.atrStopMult * atr
  let tpDistance := p.atrTpMult * atr
  let sizing := sizePosition price stopDistance p.nav confidence
  if stopDistance = 0 then .error .zeroDivisionError
  else .ok {
    symbol := bar.symbol
    market := p.market
    direction
    quantity := if 0 < sizing.qty ∧ sizing.rejectedIfExceedsCap = false then sizing.qty else 1
    confidence
    strategyName := p.name
    priceAtSignal := price
    stopLoss := stopSide direction price stopDistance
    takeProfit := profitSide direction price tpDistance
    metadata :=
      [("short_ma", .number (roundTo 4 shortMa)),
        ("long_ma", .number (roundTo 4 longMa)),
        ("atr", .number (roundTo 4 atr)),
        ("atr_stop_mult", .number p.atrStopMult),
        ("atr_tp_mult", .number p.atrTpMult),
        ("stop_distance", .number (roundTo 4 stopDistance)),
        ("risk_reward_ratio", .number (roundTo 2 (tpDistance / stopDistance)))]
      ++ sizing.toMetadata }

/-- `_update_buffers`: both buffers are created where the closes are missing, so that a tick
before the first bar leaves a symbol without true ranges. -/
def updateBuffers (bar : Bar) (r : MomentumRolling) : MomentumRolling × Option (List ℚ × List ℚ) :=
  let closes := push p.longWindow (r.closes.getD []) bar.closePrice
  match if r.closes.isNone then some [] else r.trueRanges with
  | none => ({ r with closes := some closes }, none)
  | some ranges =>
    let prevClose := r.prevClose.getD bar.closePrice
    let trs := push (p.atrPeriod * 3) ranges (trueRange bar.high bar.low prevClose)
    ({ r with
        closes := some closes
        trueRanges := some trs
        prevClose := some bar.closePrice }, some (closes, trs))

/-- The averages and the ATR of a bar that has enough history. -/
def measures (closes trs : List ℚ) : Option (ℚ × ℚ × ℚ) := do
  guard (max p.longWindow p.atrPeriod ≤ closes.length ∧ p.atrPeriod ≤ trs.length)
  let shortMa ← sma closes p.shortWindow
  let longMa ← sma closes p.longWindow
  let atr := wilder p.atrPeriod trs
  guard (0 < atr)
  return (shortMa, longMa, atr)

def onBar (e : Dispatch) (x : Session Unit MomentumRolling) :
    Session Unit MomentumRolling × Outcome :=
  match p.updateBuffers e.bar x.rolling with
  | (r, none) => (⟨(), r⟩, .error .keyError)
  | (r, some (closes, trs)) =>
    match p.measures closes trs with
    | none => (⟨(), r⟩, .ok none)
    | some (shortMa, longMa, atr) =>
      let above := decide (longMa < shortMa)
      let crossed := r.prevShortAboveLong = some (!above)
      let confidence := computeConfidence shortMa longMa atr e.bar.closePrice
      if crossed ∧ p.minConfidence ≤ confidence then
        match p.buildSignal e.bar (if above then .buy else .sell) confidence atr shortMa longMa with
        | .error raised => (⟨(), r⟩, .error raised)
        | .ok signal => (⟨(), { r with prevShortAboveLong := some above }⟩, .ok (some signal))
      else (⟨(), { r with prevShortAboveLong := some above }⟩, .ok none)

/-- `on_tick`: the price is added to the closes. -/
def onTick (price : ℚ) (x : Session Unit MomentumRolling) : Session Unit MomentumRolling :=
  { x with rolling := { x.rolling with
      closes := some (push p.longWindow (x.rolling.closes.getD []) price) } }

def strategy : Strategy Unit MomentumRolling where
  name := p.name
  symbols := p.symbols
  candleInterval := "minute"
  fresh := ⟨(), {}⟩
  onBar := p.onBar
  onTick := p.onTick
  resetDaily x := x

theorem updateBuffers_closes {bar : Bar} {r r' : MomentumRolling} {closes trs : List ℚ}
    (h : p.updateBuffers bar r = (r', some (closes, trs))) :
    closes = push p.longWindow (r.closes.getD []) bar.closePrice := by
  rw [updateBuffers] at h
  split at h <;> cases h
  rfl

theorem onBar_closes (e : Dispatch) (x : Session Unit MomentumRolling) :
    (p.onBar e x).1.rolling.closes =
      some (push p.longWindow (x.rolling.closes.getD []) e.bar.closePrice) := by
  have hupdate : (p.updateBuffers e.bar x.rolling).1.closes =
      some (push p.longWindow (x.rolling.closes.getD []) e.bar.closePrice) := by
    rw [updateBuffers]
    split <;> rfl
  rw [← hupdate, onBar]
  split
  · next heq => rw [heq]
  · next heq =>
    rw [heq]
    split
    · rfl
    · dsimp only
      split
      · split <;> rfl
      · rfl

theorem length_closes_le (e : Dispatch) (x : Session Unit MomentumRolling) :
    ((p.onBar e x).1.rolling.closes.getD []).length ≤ (x.rolling.closes.getD []).length + 1 := by
  rw [onBar_closes]
  exact length_push_le _ _ _

theorem onBar_short (e : Dispatch) (x : Session Unit MomentumRolling)
    (h : (x.rolling.closes.getD []).length + 1 < max p.longWindow p.atrPeriod) :
    Outcome.signal (p.onBar e x).2 = none := by
  rw [onBar]
  split
  · rfl
  · next r closes trs hupdate =>
    have hlen := length_push_le p.longWindow (x.rolling.closes.getD []) e.bar.closePrice
    rw [← updateBuffers_closes p hupdate] at hlen
    have hshort : ¬ (max p.longWindow p.atrPeriod ≤ closes.length ∧ p.atrPeriod ≤ trs.length) :=
      fun hlong => by omega
    have hnone : p.measures closes trs = none := by
      rw [measures, guard, if_neg hshort]
      rfl
    rw [hnone]
    rfl

end MomentumStrategy

/-- A strategy as the service registers it; `sqrt` is `math.sqrt`. -/
inductive Registered where
  | momentum (p : MomentumStrategy)
  | orb (p : ORBStrategy)
  | scalp1m (p : Scalp1mStrategy)
  | vwapReversion (p : VWAPReversionStrategy) (sqrt : ℚ → Except PyError ℚ)
  | intradayTrend15m (p : IntradayTrend15mStrategy)
  | preCloseMomentum (p : PreCloseMomentumStrategy)

namespace Registered

def Daily : Registered → Type
  | momentum _ => Unit
  | orb _ => OrbDaily
  | scalp1m _ => SignalCount
  | vwapReversion _ _ => VwapLists
  | intradayTrend15m _ => TrendDaily
  | preCloseMomentum _ => PreCloseDaily

def Rolling : Registered → Type
  | momentum _ => MomentumRolling
  | orb _ => OrbRolling
  | scalp1m _ => ScalpRolling
  | vwapReversion _ _ => VwapRolling
  | intradayTrend15m _ => PriceBuffers
  | preCloseMomentum _ => PreCloseRolling

def strategy : (r : Registered) → Strategy r.Daily r.Rolling
  | momentum p => p.strategy
  | orb p => p.strategy
  | scalp1m p => p.strategy
  | vwapReversion p sqrt => p.strategy sqrt
  | intradayTrend15m p => p.strategy
  | preCloseMomentum p => p.strategy

end Registered

end QuantEmbrace.Strategies
