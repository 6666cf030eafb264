import QuantEmbrace.RiskValidators
import Mathlib.Data.List.Defs

/-! The numeric helpers that the strategies share: moving averages, true range, VWAP, ADX and
the sizing of positions, on exact rationals. What the source calls NaN is `none`. -/
namespace QuantEmbrace.Indicators
open RiskCheck

/-- What Python raises inside a strategy. -/
inductive PyError where
  | zeroDivisionError
  | valueError
  | keyError
  deriving DecidableEq, Repr

section Buffers
variable {α : Type*}

/-- `values[-n:]` for a positive `n` -/
def lastN (n : ℕ) (values : List α) : List α := values.drop (values.length - n)

/-- `append` of a `deque(maxlen=n)` -/
def push (n : ℕ) (buffer : List α) (x : α) : List α := lastN n (buffer ++ [x])

theorem length_push_le (n : ℕ) (buffer : List α) (x : α) :
    (push n buffer x).length ≤ buffer.length + 1 := by
  rw [push, lastN, List.length_drop, List.length_append]
  exact Nat.sub_le _ _

/-- The last of the last values and one more are the last of all. -/
theorem push_lastN (n : ℕ) (values : List α) (x : α) :
    push n (lastN n values) x = lastN n (values ++ [x]) := by
  simp only [push, lastN, List.length_append, List.length_drop, List.length_singleton]
  rw [← List.drop_append_of_le_length (Nat.sub_le _ _), List.drop_drop]
  congr 1
  omega

end Buffers

/-- `series[-1]` and `series[-2]` -/
def lastValue (series : List (Option ℚ)) : Option ℚ := series.getLast?.join
def prevValue (series : List (Option ℚ)) : Option ℚ := lastValue series.dropLast

def average (values : List ℚ) (n : ℕ) : ℚ := values.sum / n

def sma (values : List ℚ) (window : ℕ) : Option ℚ :=
  if values.length < window then none else some (average (lastN window values) window)

def emaSeries (values : List ℚ) (period : ℕ) : List (Option ℚ) :=
  if values.length < period then List.replicate values.length none
  else
    let k : ℚ := 2 / (period + 1)
    let seed := average (values.take period) period
    List.replicate (period - 1) none ++
      ((values.drop period).scanl (fun current v => v * k + current * (1 - k)) seed).map some

def trueRange (high low prevClose : ℚ) : ℚ :=
  max (high - low) (max |high - prevClose| |low - prevClose|)

/-- The true ranges of all bars but the first. -/
def trueRanges (highs lows closes : List ℚ) : List ℚ :=
  List.zipWith3 trueRange highs.tail lows.tail closes

/-- The mean of the first `period` values, then Wilder's smoothing over the others. -/
def wilder (period : ℕ) (values : List ℚ) : ℚ :=
  (values.drop period).foldl (fun current v => ((period - 1) * current + v) / period)
    (average (values.take period) period)

def atrWilder (highs lows closes : List ℚ) (period : ℕ) : Option ℚ :=
  if closes.length < period + 1 then none
  else some (wilder period (trueRanges highs lows closes))

theorem atrWilder_short {highs lows closes : List ℚ} {period : ℕ} (h : closes.length ≤ period) :
    atrWilder highs lows closes period = none :=
  if_pos (Nat.lt_succ_of_le h)

def typicalPrice (high low close : ℚ) : ℚ := (high + low + close) / 3

/-- The terms of a sum that is weighted by volume. -/
def weighted (values : List ℚ) (volumes : List ℤ) : List ℚ :=
  List.zipWith (fun x (v : ℤ) => x * v) values volumes

/-- The volume summed in the loop of `vwap`. -/
def totalVolume (prices : List ℚ) (volumes : List ℤ) : ℚ :=
  (weighted (prices.map fun _ => 1) volumes).sum

def vwap (highs lows closes : List ℚ) (volumes : List ℤ) : Option ℚ :=
  let prices := List.zipWith3 typicalPrice highs lows closes
  let total := totalVolume prices volumes
  if 0 < total then some ((weighted prices volumes).sum / total) else none

/-- VWAP, upper and lower band. -/
structure VwapBands where
  vwap : ℚ
  upper : ℚ
  lower : ℚ
  deriving DecidableEq, Repr

/-- `vwap_bands`; `math.sqrt` may raise. -/
def vwapBands (sqrt : ℚ → Except PyError ℚ) (highs lows closes : List ℚ) (volumes : List ℤ)
    (nStd : ℚ) : Except PyError (Option VwapBands) :=
  match vwap highs lows closes volumes with
  | none => .ok none
  | some value =>
    let total : ℚ := (volumes.sum : ℤ)
    if total = 0 then .ok (some ⟨value, value, value⟩)
    else do
      let prices := List.zipWith3 typicalPrice highs lows closes
      let variance := (weighted (prices.map fun tp => (tp - value) ^ 2) volumes).sum
      let std ← sqrt (variance / total)
      return some ⟨value, value + nStd * std, value - nStd * std⟩

/-- `_wilder_smooth` -/
def wilderSmooth (period : ℕ) (data : List ℚ) : List ℚ :=
  (data.drop period).scanl (fun current v => current - current / period + v)
    (data.take period).sum

/-- One entry of `dx_list`. -/
def directionalIndex (tr plus minus : ℚ) : ℚ :=
  if tr = 0 then 0
  else
    let plusDi := 100 * plus / tr
    let minusDi := 100 * minus / tr
    let denom := plusDi + minusDi
    if 0 < denom then 100 * |plusDi - minusDi| / denom else 0

def adx (highs lows closes : List ℚ) (period : ℕ) : Option ℚ :=
  if closes.length < period * 2 then none
  else
    let ups := List.zipWith (fun h h' => h' - h) highs highs.tail
    let downs := List.zipWith (fun l l' => l - l') lows lows.tail
    let plusDm := List.zipWith (fun up down => if down < up ∧ 0 < up then up else 0) ups downs
    let minusDm := List.zipWith (fun up down => if up < down ∧ 0 < down then down else 0) ups downs
    let trs := trueRanges highs lows closes
    if trs.length < period then none
    else
      let dxs := List.zipWith3 directionalIndex (wilderSmooth period trs)
        (wilderSmooth period plusDm) (wilderSmooth period minusDm)
      if dxs.length < period then none else some (wilder period dxs)

/-- Half-even rounding, as `round` does it. -/
def roundHalfEven (x : ℚ) : ℤ :=
  let f := ⌊x⌋
  if x - f < 1 / 2 then f
  else if 1 / 2 < x - f then f + 1
  else if f % 2 = 0 then f else f + 1

/-- `round(x, digits)` -/
def roundTo (digits : ℕ) (x : ℚ) : ℚ := roundHalfEven (x * 10 ^ digits) / 10 ^ digits

inductive SizingReason where
  | invalidInputs
  | riskStopFloorOne
  | riskStop
  | targetNotional
  | hardCap
  deriving DecidableEq, Repr

def SizingReason.text : SizingReason → String
  | invalidInputs => "invalid_inputs"
  | riskStopFloorOne => "risk_stop_floor_one"
  | riskStop => "risk_stop"
  | targetNotional => "target_notional"
  | hardCap => "hard_cap"

structure SizingResult where
  qty : ℤ
  navUsed : ℚ
  targetNotional : ℚ
  maxAllowedNotional : ℚ
  sizingReason : SizingReason
  rejectedIfExceedsCap : Bool
  deriving DecidableEq, Repr

namespace SizingResult
variable (r : SizingResult)

def toMetadata : List (String × MetaValue) :=
  [("nav_used", .number r.navUsed),
    ("target_notional", .number (roundTo 2 r.targetNotional)),
    ("max_allowed_notional", .number (roundTo 2 r.maxAllowedNotional)),
    ("sizing_reason", .text r.sizingReason.text),
    ("rejected_if_exceeds_cap", .flag r.rejectedIfExceedsCap)]

/-- The callers emit no signal. -/
def Rejects : Prop := r.qty = 0 ∨ r.rejectedIfExceedsCap = true

instance : Decidable r.Rejects := instDecidableOr

end SizingResult

def targetPctDefault : ℚ := 25 / 1000
def targetPctHighConv : ℚ := 5 / 100
def hardCapPct : ℚ := 5 / 100
def maxLossPct : ℚ := 25 / 10000
def highConvictionThreshold : ℚ := 8 / 10

/-- `size_position` with its default percentages. -/
def sizePosition (price stopDistance nav confidence : ℚ) : SizingResult :=
  let maxAllowed := nav * hardCapPct
  if price ≤ 0 ∨ stopDistance ≤ 0 ∨ nav ≤ 0 then
    ⟨0, nav, 0, maxAllowed, .invalidInputs, false⟩
  else
    let targetPct :=
      if highConvictionThreshold ≤ confidence then targetPctHighConv else targetPctDefault
    let targetNotional := nav * targetPct
    let qtyByTarget := ⌊targetNotional / price⌋
    let qtyByHardCap := ⌊maxAllowed / price⌋
    let qtyByRiskStop := ⌊nav * maxLossPct / stopDistance⌋
    let raw := min qtyByTarget (min qtyByHardCap qtyByRiskStop)
    let qty := max 1 raw
    let reason : SizingReason :=
      if raw ≤ 0 then .riskStopFloorOne
      else if raw = qtyByRiskStop ∧ qtyByRiskStop < qtyByTarget then .riskStop
      else if raw = qtyByTarget ∧ qtyByTarget ≤ qtyByHardCap then .targetNotional
      else .hardCap
    ⟨qty, nav, roundTo 2 targetNotional, roundTo 2 maxAllowed, reason,
      decide (maxAllowed < qty * price)⟩

end QuantEmbrace.Indicators
