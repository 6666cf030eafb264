import QuantEmbrace.DailySessions
import QuantEmbrace.SignalId
import Mathlib.Data.List.ReduceOption

/-! The stop and the target of a signal as it is published, strategy by strategy: how far they
are from the price, and what is left of that after rounding to four decimals. -/
namespace QuantEmbrace.Strategies
open Indicators RiskCheck Candles GuardedRun

theorem abs_roundHalfEven_sub_le (x : ℚ) : |(roundHalfEven x : ℚ) - x| ≤ 1 / 2 := by
  have hlow := Int.floor_le x
  have hhigh := Int.lt_floor_add_one x
  rw [roundHalfEven, abs_le]
  split
  · constructor <;> linarith
  · split
    · push_cast
      constructor <;> linarith
    · split
      · constructor <;> linarith
      · push_cast
        constructor <;> linarith

/-- Four decimals move a level by at most half a unit of the last one. -/
theorem abs_roundTo_four_sub_le (x : ℚ) : |roundTo 4 x - x| ≤ 1 / 20000 := by
  have h := abs_le.mp (abs_roundHalfEven_sub_le (x * 10 ^ 4))
  rw [roundTo, abs_le]
  constructor <;> linarith

theorem one_le_qty {price stopDistance nav confidence : ℚ}
    (h : (sizePosition price stopDistance nav confidence).qty ≠ 0) :
    1 ≤ (sizePosition price stopDistance nav confidence).qty := by
  rw [sizePosition] at h ⊢
  split
  · next hinvalid => simp [hinvalid] at h
  · exact le_max_left 1 _

theorem Outcome.eq_of_signal {outcome : Outcome} {signal : Signal}
    (h : outcome.signal = some signal) : outcome = .ok (some signal) := by
  cases outcome with
  | error raised => cases h
  | ok produced => exact congrArg Except.ok h

/-- The stop on one side of the price, the target on the other, and both above zero. -/
def Signal.LevelsAround (signal : Signal) : OrderSide → Prop
  | .buy => 0 < signal.stopLoss ∧ signal.stopLoss < signal.priceAtSignal ∧
      signal.priceAtSignal < signal.takeProfit
  | .sell => 0 < signal.takeProfit ∧ signal.takeProfit < signal.priceAtSignal ∧
      signal.priceAtSignal < signal.stopLoss

instance (signal : Signal) : DecidablePred signal.LevelsAround
  | .buy => instDecidableAnd
  | .sell => instDecidableAnd

def Coherent (signal : Signal) : Prop :=
  1 ≤ signal.quantity ∧ signal.LevelsAround signal.direction

instance : DecidablePred Coherent := fun _ => instDecidableAnd

/-- How far from the price the stop and the target are meant to be. -/
structure Distances where
  stop : ℚ
  target : ℚ
  deriving DecidableEq, Repr

/-- The signal has its levels at these distances, each on its side, as they are published. -/
structure Published (publish : ℚ → ℚ) (price : ℚ) (d : Distances) (signal : Signal) : Prop where
  priceAtSignal : signal.priceAtSignal = price
  quantity : 1 ≤ signal.quantity
  stopLoss : signal.stopLoss = publish (stopSide signal.direction price d.stop)
  takeProfit : signal.takeProfit = publish (profitSide signal.direction price d.target)

/-- What a strategy makes of a grant of the sizer: a signal with these levels on that side. -/
structure Built (sizing : SizingResult) (price confidence stop target : ℚ)
    (direction : OrderSide) (signal : Signal) : Prop where
  direction : signal.direction = direction
  confidence : signal.confidence = roundTo 4 confidence
  accepted : ¬ sizing.Rejects
  quantity : signal.quantity = sizing.qty
  priceAtSignal : signal.priceAtSignal = price
  stopLoss : signal.stopLoss = roundTo 4 stop
  takeProfit : signal.takeProfit = roundTo 4 target

theorem Built.one_le {price stopDistance nav confidence stop target : ℚ} {direction : OrderSide}
    {signal : Signal} (h : Built (sizePosition price stopDistance nav confidence) price confidence
      stop target direction signal) : 1 ≤ signal.quantity := by
  rw [h.quantity]
  exact one_le_qty fun hzero => h.accepted (.inl hzero)

theorem Built.published {price nav confidence : ℚ} {d : Distances} {direction : OrderSide}
    {signal : Signal} (h : Built (sizePosition price d.stop nav confidence) price confidence
      (stopSide direction price d.stop) (profitSide direction price d.target) direction signal) :
    Published (roundTo 4) price d signal := by
  refine ⟨h.priceAtSignal, h.one_le, ?_, ?_⟩
  · rw [h.stopLoss, h.direction]
  · rw [h.takeProfit, h.direction]

/-- The level that is below the price. -/
def Distances.lowerLevel (price : ℚ) (d : Distances) : OrderSide → ℚ
  | .buy => price - d.stop
  | .sell => price - d.target

/-- The distances are larger than `half`, and the lower level is higher than that. -/
def Distances.HasRoom (half price : ℚ) (direction : OrderSide) (d : Distances) : Prop :=
  half < d.stop ∧ half < d.target ∧ half < d.lowerLevel price direction

instance (half price : ℚ) (direction : OrderSide) (d : Distances) :
    Decidable (d.HasRoom half price direction) := instDecidableAnd

/-- Levels that are moved by less than the room they have stay coherent. -/
theorem Published.coherent {publish : ℚ → ℚ} {half price : ℚ} {d : Distances} {signal : Signal}
    (h : Published publish price d signal) (hpublish : ∀ x, |publish x - x| ≤ half)
    (hroom : d.HasRoom half price signal.direction) : Coherent signal := by
  refine ⟨h.quantity, ?_⟩
  obtain ⟨hstop, htarget, hlower⟩ := hroom
  have hstopLoss := h.stopLoss
  have htakeProfit := h.takeProfit
  cases hdirection : signal.direction with
  | buy =>
    rw [hdirection] at hlower hstopLoss htakeProfit
    rw [Signal.LevelsAround, hstopLoss, htakeProfit, h.priceAtSignal]
    dsimp only [stopSide, profitSide, Distances.lowerLevel] at hlower ⊢
    have hstopped := abs_le.mp (hpublish (price - d.stop))
    have htaken := abs_le.mp (hpublish (price + d.target))
    refine ⟨?_, ?_, ?_⟩ <;> linarith
  | sell =>
    rw [hdirection] at hlower hstopLoss htakeProfit
    rw [Signal.LevelsAround, hstopLoss, htakeProfit, h.priceAtSignal]
    dsimp only [stopSide, profitSide, Distances.lowerLevel] at hlower ⊢
    have hstopped := abs_le.mp (hpublish (price + d.stop))
    have htaken := abs_le.mp (hpublish (price - d.target))
    refine ⟨?_, ?_, ?_⟩ <;> linarith

/-- Prices of a bar that fit together. -/
def ValidBar (bar : Bar) : Prop :=
  0 < bar.low ∧ bar.low ≤ bar.openPrice ∧ bar.low ≤ bar.closePrice ∧
    bar.openPrice ≤ bar.high ∧ bar.closePrice ≤ bar.high ∧ 0 ≤ bar.volume

instance (bar : Bar) : Decidable (ValidBar bar) := instDecidableAnd

namespace ORBStrategy
variable {p : ORBStrategy} {bar : Bar} {direction : OrderSide} {orHigh orLow atr : ℚ}
  {signal : Signal}

/-- The stop before rounding: no further than the ATR allows, and no further than the middle of
the range. -/
def stopLevel (p : ORBStrategy) (price orHigh orLow atr : ℚ) : OrderSide → ℚ
  | .buy => max (price - p.atrStopMult * atr) ((orHigh + orLow) / 2)
  | .sell => min (price + p.atrStopMult * atr) ((orHigh + orLow) / 2)

/-- The distances of a breakout of the range on that side. -/
def breakoutDistances (p : ORBStrategy) (price orHigh orLow atr : ℚ) (direction : OrderSide) :
    Distances :=
  let stop := |price - p.stopLevel price orHigh orLow atr direction|
  ⟨stop, stop * p.rrRatio⟩

def distances (p : ORBStrategy) (e : Dispatch) (x : Session OrbDaily OrbRolling)
    (direction : OrderSide) : Option Distances := do
  let orHigh ← x.daily.orHigh
  let orLow ← x.daily.orLow
  let atr ← p.atr (p.append e.bar x.rolling)
  return p.breakoutDistances e.bar.closePrice orHigh orLow atr direction

/-- The close is past the middle of the range. -/
def PastMiddle (price orHigh orLow : ℚ) : OrderSide → Prop
  | .buy => (orHigh + orLow) / 2 < price
  | .sell => price < (orHigh + orLow) / 2

/-- The close is past the range on that side. -/
def PastRange (price orHigh orLow : ℚ) : OrderSide → Prop
  | .buy => orHigh < price
  | .sell => price < orLow

theorem buildSignal_built (h : p.buildSignal bar direction orHigh orLow atr = some signal) :
    ∃ confidence, Built (sizePosition bar.closePrice
      (p.breakoutDistances bar.closePrice orHigh orLow atr direction).stop p.nav confidence)
      bar.closePrice confidence (p.stopLevel bar.closePrice orHigh orLow atr direction)
      (profitSide direction bar.closePrice
        (p.breakoutDistances bar.closePrice orHigh orLow atr direction).target)
      direction signal := by
  cases direction
  all_goals
    rw [buildSignal.eq_def] at h
    dsimp only at h
    split at h
    · cases h
    · split at h
      · cases h
      · split at h
        · cases h
        · next hsized =>
          cases h
          exact ⟨_, rfl, rfl, hsized, rfl, rfl, rfl, rfl⟩

theorem buildSignal_published (hmult : 0 ≤ p.atrStopMult) (hatr : 0 < atr)
    (hpast : PastMiddle bar.closePrice orHigh orLow direction)
    (h : p.buildSignal bar direction orHigh orLow atr = some signal) :
    signal.direction = direction ∧ Published (roundTo 4) bar.closePrice
      (p.breakoutDistances bar.closePrice orHigh orLow atr direction) signal := by
  have hatr := mul_nonneg hmult hatr.le
  have hside : p.stopLevel bar.closePrice orHigh orLow atr direction =
      stopSide direction bar.closePrice
        |bar.closePrice - p.stopLevel bar.closePrice orHigh orLow atr direction| := by
    cases direction with
    | buy =>
      have hpast : (orHigh + orLow) / 2 < bar.closePrice := hpast
      have hbelow : p.stopLevel bar.closePrice orHigh orLow atr .buy ≤ bar.closePrice :=
        max_le (by linarith) hpast.le
      rw [stopSide, abs_of_nonneg (by linarith)]
      ring
    | sell =>
      have hpast : bar.closePrice < (orHigh + orLow) / 2 := hpast
      have habove : bar.closePrice ≤ p.stopLevel bar.closePrice orHigh orLow atr .sell :=
        le_min (by linarith) hpast.le
      rw [stopSide, abs_of_nonpos (by linarith)]
      ring
  obtain ⟨confidence, hbuilt⟩ := buildSignal_built h
  rw [hside] at hbuilt
  exact ⟨hbuilt.direction, hbuilt.published⟩

/-- A range that does not lie upside down. -/
def Upright (d : OrbDaily) : Prop :=
  ∀ high low, d.orHigh = some high → d.orLow = some low → low ≤ high

/-- A breakout is built from a range and an ATR that is positive, past the range on its side. -/
theorem breakout_builds {r : OrbRolling} {d : OrbDaily}
    (h : p.breakout bar r d = some (direction, signal)) :
    ∃ orHigh orLow atr, d.orHigh = some orHigh ∧ d.orLow = some orLow ∧ p.atr r = some atr ∧
      0 < atr ∧ PastRange bar.closePrice orHigh orLow direction ∧
      p.buildSignal bar direction orHigh orLow atr = some signal := by
  rw [breakout] at h
  split at h
  · next orHigh orLow atr hhigh hlow hatr =>
    refine ⟨orHigh, orLow, atr, hhigh, hlow, hatr, ?_⟩
    dsimp only at h
    split at h
    · cases h
    · split at h
      · cases h
      · next hpos =>
        split at h
        · next habove =>
          obtain ⟨built, hbuilt, ⟨⟩⟩ := Option.map_eq_some_iff.mp h
          exact ⟨not_le.mp hpos, habove.1, hbuilt⟩
        · split at h
          · next hbelow =>
            obtain ⟨built, hbuilt, ⟨⟩⟩ := Option.map_eq_some_iff.mp h
            exact ⟨not_le.mp hpos, hbelow.1, hbuilt⟩
          · cases h
  · cases h

theorem breakout_published {r : OrbRolling} {d : OrbDaily} (hmult : 0 ≤ p.atrStopMult)
    (hupright : Upright d) (h : p.breakout bar r d = some (direction, signal)) :
    ∃ orHigh orLow atr, d.orHigh = some orHigh ∧ d.orLow = some orLow ∧ p.atr r = some atr ∧
      signal.direction = direction ∧ Published (roundTo 4) bar.closePrice
        (p.breakoutDistances bar.closePrice orHigh orLow atr direction) signal := by
  obtain ⟨orHigh, orLow, atr, hhigh, hlow, hatr, hpos, hpast, hbuilt⟩ := breakout_builds h
  have hrange := hupright orHigh orLow hhigh hlow
  refine ⟨orHigh, orLow, atr, hhigh, hlow, hatr, buildSignal_published hmult hpos ?_ hbuilt⟩
  cases direction with
  | buy =>
    have hpast : orHigh < bar.closePrice := hpast
    change (orHigh + orLow) / 2 < bar.closePrice
    linarith
  | sell =>
    have hpast : bar.closePrice < orLow := hpast
    change bar.closePrice < (orHigh + orLow) / 2
    linarith

theorem onBar_signal {e : Dispatch} {x : Session OrbDaily OrbRolling}
    (h : Outcome.signal (p.onBar e x).2 = some signal) :
    ∃ direction,
      p.breakout e.bar (p.append e.bar x.rolling) x.daily = some (direction, signal) := by
  rw [onBar] at h
  split at h
  · cases h
  · split at h <;> cases h
  · cases h
  · split at h
    · next direction produced hbreakout =>
      cases h
      exact ⟨direction, hbreakout⟩
    · cases h

theorem published {e : Dispatch} {x : Session OrbDaily OrbRolling} (hmult : 0 ≤ p.atrStopMult)
    (hupright : Upright x.daily) (h : Outcome.signal (p.onBar e x).2 = some signal) :
    ∃ d, p.distances e x signal.direction = some d ∧
      Published (roundTo 4) e.bar.closePrice d signal := by
  obtain ⟨direction, hbreakout⟩ := onBar_signal h
  obtain ⟨orHigh, orLow, atr, hhigh, hlow, hatr, rfl, hpublished⟩ :=
    breakout_published hmult hupright hbreakout
  exact ⟨_, by simp [distances, hhigh, hlow, hatr], hpublished⟩

/-- A bar keeps a range upright. -/
theorem onBar_upright {e : Dispatch} {x : Session OrbDaily OrbRolling} (hbar : ValidBar e.bar)
    (h : Upright x.daily) : Upright (p.onBar e x).1.daily := by
  have hlowhigh : e.bar.low ≤ e.bar.high := hbar.2.2.1.trans hbar.2.2.2.2.1
  by_cases hforms : p.Forms e.bar
  · rw [onBar_forms hforms]
    change Upright (x.daily.extend e.bar)
    rw [OrbDaily.extend]
    split
    · rintro high low ⟨⟩ ⟨⟩
      exact (min_le_right _ _).trans (hlowhigh.trans (le_max_right _ _))
    · rintro high low ⟨⟩ ⟨⟩
      exact hlowhigh
  · obtain ⟨hhigh, hlow, -⟩ := onBar_outside (p := p) (x := x) hforms
    rw [Upright, hhigh, hlow]
    exact h

end ORBStrategy

namespace VWAPReversionStrategy
variable {p : VWAPReversionStrategy} {sqrt : ℚ → Except PyError ℚ} {bar : Bar}
  {direction : OrderSide} {bands : VwapBands} {atr : ℚ} {signal : Signal}

/-- The stop is outside the band, the target is the VWAP. -/
def bandDistances (p : VWAPReversionStrategy) (price : ℚ) (bands : VwapBands) (atr : ℚ) :
    Distances :=
  ⟨max (p.atrStopMult * atr) (|bands.upper - bands.lower| / 2), |bands.vwap - price|⟩

def distances (p : VWAPReversionStrategy) (sqrt : ℚ → Except PyError ℚ) (e : Dispatch)
    (x : Session VwapLists VwapRolling) : Option Distances :=
  let d := accumulate e.bar x.daily
  match vwapBands sqrt d.highs d.lows d.closes d.volumes p.bandStd,
      (x.rolling.atr.append 60 e.bar).positiveAtr p.atrPeriod with
  | .ok (some bands), some atr => some (p.bandDistances e.bar.closePrice bands atr)
  | _, _ => none

/-- The bands lie around the VWAP. -/
theorem bands_ordered {highs lows closes : List ℚ} {volumes : List ℤ} {nStd : ℚ} (hstd : 0 ≤ nStd)
    (hsqrt : ∀ q root, sqrt q = .ok root → 0 ≤ root)
    (h : vwapBands sqrt highs lows closes volumes nStd = .ok (some bands)) :
    bands.lower ≤ bands.vwap ∧ bands.vwap ≤ bands.upper := by
  rw [vwapBands] at h
  split at h
  · cases h
  · dsimp only at h
    split at h
    · cases h
      exact ⟨le_rfl, le_rfl⟩
    · simp only [bind, Except.bind, pure, Except.pure] at h
      split at h
      · cases h
      · next root hroot =>
        cases h
        have hwidth := mul_nonneg hstd (hsqrt _ _ hroot)
        constructor <;> dsimp only <;> linarith

theorem emit_built {confidence : ℚ} (h : p.emit bar direction bands atr confidence = some signal) :
    Built (sizePosition bar.closePrice (p.bandDistances bar.closePrice bands atr).stop p.nav
      confidence) bar.closePrice confidence (stopSide direction bar.closePrice
        (p.bandDistances bar.closePrice bands atr).stop) bands.vwap direction signal := by
  rw [emit] at h
  dsimp only at h
  split at h
  · cases h
  · split at h
    · cases h
    · next hsized =>
      cases h
      exact ⟨rfl, rfl, hsized, rfl, rfl, rfl, rfl⟩

/-- The close is outside the band on that side. -/
def OutsideBand (price : ℚ) (bands : VwapBands) : OrderSide → Prop
  | .buy => price < bands.lower
  | .sell => bands.upper < price

theorem rejection_emits {wick deviation width : ℚ}
    (h : p.rejection bar direction bands atr wick deviation width = some signal) :
    ∃ confidence, p.emit bar direction bands atr confidence = some signal := by
  rw [rejection] at h
  generalize ite (width ≠ 0) _ _ = deviationStd at h
  dsimp only at h
  split at h
  · cases h
  · split at h
    · cases h
    · exact ⟨_, h⟩

theorem reversal_emits {intraday : VwapLists} {buffers : PriceBuffers}
    (h : p.reversal sqrt bar intraday buffers = .ok (some signal)) :
    ∃ bands atr direction confidence,
      vwapBands sqrt intraday.highs intraday.lows intraday.closes intraday.volumes p.bandStd =
        .ok (some bands) ∧
      buffers.positiveAtr p.atrPeriod = some atr ∧ OutsideBand bar.closePrice bands direction ∧
      p.emit bar direction bands atr confidence = some signal := by
  simp only [reversal, bind, Except.bind, pure, Except.pure] at h
  split at h
  · cases h
  · next banded hbands =>
    split at h
    · cases h
    · next bands =>
      split at h
      · cases h
      · next atr hatr =>
        split at h
        · cases h
        · split at h
          · next hbelow =>
            obtain ⟨confidence, hemit⟩ := rejection_emits (Except.ok.inj h)
            exact ⟨bands, atr, .buy, confidence, hbands, hatr, hbelow, hemit⟩
          · split at h
            · next habove =>
              obtain ⟨confidence, hemit⟩ := rejection_emits (Except.ok.inj h)
              exact ⟨bands, atr, .sell, confidence, hbands, hatr, habove, hemit⟩
            · cases h

theorem onBar_reversal {e : Dispatch} {x : Session VwapLists VwapRolling}
    (h : Outcome.signal (p.onBar sqrt e x).2 = some signal) :
    p.reversal sqrt e.bar (accumulate e.bar x.daily) (x.rolling.atr.append 60 e.bar) =
      .ok (some signal) := by
  rw [onBar] at h
  split at h
  · cases h
  · split at h
    · next produced hproduced =>
      cases h
      exact hproduced
    · exact Outcome.eq_of_signal h

theorem published {e : Dispatch} {x : Session VwapLists VwapRolling} (hstd : 0 ≤ p.bandStd)
    (hsqrt : ∀ q root, sqrt q = .ok root → 0 ≤ root)
    (h : Outcome.signal (p.onBar sqrt e x).2 = some signal) :
    ∃ d, p.distances sqrt e x = some d ∧ Published (roundTo 4) e.bar.closePrice d signal := by
  obtain ⟨bands, atr, direction, confidence, hbands, hatr, houtside, hemit⟩ :=
    reversal_emits (onBar_reversal h)
  obtain ⟨hlower, hupper⟩ := bands_ordered hstd hsqrt hbands
  have htarget : bands.vwap = profitSide direction e.bar.closePrice
      (p.bandDistances e.bar.closePrice bands atr).target := by
    cases direction with
    | buy =>
      have hbelow : e.bar.closePrice < bands.lower := houtside
      have hdistance : |bands.vwap - e.bar.closePrice| = bands.vwap - e.bar.closePrice :=
        abs_of_nonneg (by linarith)
      simp only [profitSide, bandDistances, hdistance]
      ring
    | sell =>
      have habove : bands.upper < e.bar.closePrice := houtside
      have hdistance : |bands.vwap - e.bar.closePrice| = -(bands.vwap - e.bar.closePrice) :=
        abs_of_nonpos (by linarith)
      simp only [profitSide, bandDistances, hdistance]
      ring
  have hbuilt := emit_built hemit
  rw [htarget] at hbuilt
  exact ⟨_, by simp [distances, hbands, hatr], hbuilt.published⟩

end VWAPReversionStrategy

namespace Scalp1mStrategy
variable {p : Scalp1mStrategy} {e : Dispatch} {r : ScalpRolling} {signal : Signal}

def distances (p : Scalp1mStrategy) (e : Dispatch) (x : Session SignalCount ScalpRolling) :
    Option Distances := do
  let r := p.append e.bar x.rolling
  let atr ← r.positiveAtr p.atrPeriod
  let floor ← (p.computeStopFloor e.bar.closePrice atr r.barRanges).toOption
  return ⟨floor.stopDistance, floor.tpDistance⟩

theorem buildSignal_built {direction : OrderSide} {fastEma slowEma atr confidence : ℚ}
    {ranges : List ℚ} (h : p.buildSignal e.bar direction fastEma slowEma atr confidence ranges =
      .ok (some signal)) :
    ∃ floor, p.computeStopFloor e.bar.closePrice atr ranges = .ok floor ∧
      Built (sizePosition e.bar.closePrice floor.stopDistance p.nav confidence) e.bar.closePrice
        confidence (stopSide direction e.bar.closePrice floor.stopDistance)
        (profitSide direction e.bar.closePrice floor.tpDistance) direction signal := by
  simp only [buildSignal, bind, Except.bind, pure, Except.pure] at h
  split at h
  · cases h
  · next floor hfloor =>
    split at h
    · cases h
    · next hsized =>
      cases h
      exact ⟨floor, hfloor, rfl, rfl, (not_or.mp hsized).2, rfl, rfl, rfl, rfl⟩

theorem filters_atr {c : Crossing} {atr confidence : ℚ}
    (h : p.filters e r c = some (atr, confidence)) : r.positiveAtr p.atrPeriod = some atr := by
  obtain ⟨_, -, h⟩ := Option.bind_eq_some_iff.mp h
  obtain ⟨_, -, h⟩ := Option.bind_eq_some_iff.mp h
  obtain ⟨found, hfound, h⟩ := Option.bind_eq_some_iff.mp h
  obtain ⟨_, -, h⟩ := Option.bind_eq_some_iff.mp h
  obtain ⟨_, -, h⟩ := Option.bind_eq_some_iff.mp h
  obtain ⟨_, -, h⟩ := Option.bind_eq_some_iff.mp h
  cases h
  exact hfound

/-- A signal is built from an ATR that is positive. -/
theorem onBar_builds {x : Session SignalCount ScalpRolling}
    (h : Outcome.signal (p.onBar e x).2 = some signal) :
    ∃ c : Crossing, ∃ side atr confidence,
      p.filters e (p.append e.bar x.rolling) c = some (atr, confidence) ∧
      p.buildSignal e.bar side c.fastNow c.slowNow atr confidence
        (p.append e.bar x.rolling).barRanges = .ok (some signal) := by
  obtain ⟨direction, hcandidate⟩ := onBar_signal h
  obtain ⟨_, -, hcandidate⟩ := Option.bind_eq_some_iff.mp hcandidate
  obtain ⟨⟨c, side⟩, -, hcandidate⟩ := Option.bind_eq_some_iff.mp hcandidate
  obtain ⟨⟨atr, confidence⟩, hfilters, hcandidate⟩ := Option.bind_eq_some_iff.mp hcandidate
  exact ⟨c, side, atr, confidence, hfilters,
    (Prod.ext_iff.mp (Option.some.inj hcandidate)).2⟩

theorem published {x : Session SignalCount ScalpRolling}
    (h : Outcome.signal (p.onBar e x).2 = some signal) :
    ∃ d, p.distances e x = some d ∧ Published (roundTo 4) e.bar.closePrice d signal := by
  obtain ⟨c, side, atr, confidence, hfilters, hbuilt⟩ := onBar_builds h
  obtain ⟨floor, hfloor, hbuilt⟩ := buildSignal_built hbuilt
  refine ⟨⟨floor.stopDistance, floor.tpDistance⟩, ?_, hbuilt.published⟩
  simp [distances, filters_atr hfilters, hfloor, Except.toOption]

end Scalp1mStrategy

namespace MomentumStrategy
variable {p : MomentumStrategy} {e : Dispatch} {signal : Signal}

def distances (p : MomentumStrategy) (e : Dispatch) (x : Session Unit MomentumRolling) :
    Option Distances := do
  let (closes, trs) ← (p.updateBuffers e.bar x.rolling).2
  let (_, _, atr) ← p.measures closes trs
  return ⟨p.atrStopMult * atr, p.atrTpMult * atr⟩

theorem buildSignal_levels {direction : OrderSide} {confidence atr shortMa longMa : ℚ}
    (h : p.buildSignal e.bar direction confidence atr shortMa longMa = .ok signal) :
    signal.direction = direction ∧
      Published id e.bar.closePrice ⟨p.atrStopMult * atr, p.atrTpMult * atr⟩ signal := by
  rw [buildSignal] at h
  split at h
  · cases h
  · cases h
    refine ⟨rfl, rfl, ?_, rfl, rfl⟩
    dsimp only
    split
    · next hsized => omega
    · exact le_rfl

theorem onBar_builds {x : Session Unit MomentumRolling}
    (h : Outcome.signal (p.onBar e x).2 = some signal) :
    ∃ direction confidence atr shortMa longMa,
      p.distances e x = some ⟨p.atrStopMult * atr, p.atrTpMult * atr⟩ ∧
      p.buildSignal e.bar direction confidence atr shortMa longMa = .ok signal := by
  rw [onBar] at h
  split at h
  · cases h
  · next r closes trs hupdate =>
    split at h
    · cases h
    · next shortMa longMa atr hmeasures =>
      have hdistances : p.distances e x = some ⟨p.atrStopMult * atr, p.atrTpMult * atr⟩ := by
        simp [distances, hupdate, hmeasures]
      dsimp only at h
      split at h
      · split at h
        · cases h
        · next built hbuilt =>
          cases h
          exact ⟨_, _, atr, shortMa, longMa, hdistances, hbuilt⟩
      · cases h

/-- These levels are not rounded. -/
theorem published {x : Session Unit MomentumRolling}
    (h : Outcome.signal (p.onBar e x).2 = some signal) :
    ∃ d, p.distances e x = some d ∧ Published id e.bar.closePrice d signal := by
  obtain ⟨direction, confidence, atr, shortMa, longMa, hdistances, hbuilt⟩ := onBar_builds h
  exact ⟨_, hdistances, (buildSignal_levels hbuilt).2⟩

end MomentumStrategy

namespace IntradayTrend15mStrategy
variable {p : IntradayTrend15mStrategy} {e : Dispatch} {signal : Signal}

def distances (p : IntradayTrend15mStrategy) (e : Dispatch) (x : Session TrendDaily PriceBuffers) :
    Option Distances := do
  let atr ← (x.rolling.append (max p.trend p.adxPeriod * 3) e.bar).positiveAtr p.atrPeriod
  return ⟨p.atrStopMult * atr, p.atrStopMult * atr * p.rr⟩

theorem build_built {direction : OrderSide} {fastEma slowEma trendEma atr adxV confidence : ℚ}
    (h : p.build e.bar direction fastEma slowEma trendEma atr adxV confidence = some signal) :
    Built (sizePosition e.bar.closePrice (p.atrStopMult * atr) p.nav confidence) e.bar.closePrice
      confidence (stopSide direction e.bar.closePrice (p.atrStopMult * atr))
      (profitSide direction e.bar.closePrice (p.atrStopMult * atr * p.rr)) direction signal := by
  rw [build] at h
  split at h
  · cases h
  · next hsized =>
    cases h
    exact ⟨rfl, rfl, hsized, rfl, rfl, rfl, rfl⟩

theorem onBar_builds {x : Session TrendDaily PriceBuffers}
    (h : Outcome.signal (p.onBar e x).2 = some signal) :
    ∃ direction, ∃ c : Crossing, ∃ trendEma atr adxV confidence,
      p.distances e x = some ⟨p.atrStopMult * atr, p.atrStopMult * atr * p.rr⟩ ∧
      p.build e.bar direction c.fastNow c.slowNow trendEma atr adxV confidence =
        some signal := by
  rw [onBar] at h
  split at h
  · cases h
  · split at h
    · cases h
    · next direction produced hentry =>
      simp only [entry, Option.bind_eq_bind, Option.bind_eq_some_iff, Option.pure_def,
        Option.some.injEq, Prod.mk.injEq] at hentry
      obtain ⟨_, -, c, -, trendEma, -, side, -, _, -, _, -, atr, hatr, adxV, -, _, -, _, -, -,
        hbuild⟩ := hentry
      have hproduced : produced = some signal := h
      exact ⟨side, c, trendEma, atr, adxV, _, by simp [distances, hatr], hbuild.trans hproduced⟩

theorem published {x : Session TrendDaily PriceBuffers}
    (h : Outcome.signal (p.onBar e x).2 = some signal) :
    ∃ d, p.distances e x = some d ∧ Published (roundTo 4) e.bar.closePrice d signal := by
  obtain ⟨direction, c, trendEma, atr, adxV, confidence, hdistances, hbuild⟩ := onBar_builds h
  exact ⟨_, hdistances, (build_built hbuild).published⟩

end IntradayTrend15mStrategy

namespace PreCloseMomentumStrategy
variable {p : PreCloseMomentumStrategy} {e : Dispatch} {signal : Signal}

def distances (p : PreCloseMomentumStrategy) (e : Dispatch)
    (x : Session PreCloseDaily PreCloseRolling) : Option Distances := do
  let atr ← (p.append e.bar x.rolling).positiveAtr p.atrPeriod
  let stop := p.atrStopMult * atr
  return ⟨stop, max (e.bar.closePrice * p.tpPct) (stop * (3 / 2))⟩

/-- A signal is made from the ATR and from the bias over the last bars. -/
theorem preClose_built {bar : Bar} {lists : VwapLists} {r : PreCloseRolling}
    (h : p.preClose bar lists r = .ok (some signal)) :
    ∃ atr direction score confidence, r.positiveAtr p.atrPeriod = some atr ∧
      computeBias (lastN p.lookback r.closes) (lastN p.lookback r.opens) =
        some (direction, score) ∧ p.minBias ≤ score ∧
      Built (sizePosition bar.closePrice (p.atrStopMult * atr) p.nav confidence) bar.closePrice
        confidence (stopSide direction bar.closePrice (p.atrStopMult * atr))
        (profitSide direction bar.closePrice
          (max (bar.closePrice * p.tpPct) (p.atrStopMult * atr * (3 / 2)))) direction signal := by
  rw [preClose] at h
  split at h
  · cases h
  · split at h
    · cases h
    · next atr hatr =>
      dsimp only at h
      split at h
      · cases h
      · split at h
        · cases h
        · split at h
          · cases h
          · next direction score hbias =>
            split at h
            · cases h
            · next hpasses =>
              split at h
              · cases h
              · next hsized =>
                cases h
                have hscore : p.minBias ≤ score := not_lt.mp fun hlow => hpasses (.inl hlow)
                exact ⟨atr, direction, score, _, hatr, hbias, hscore, rfl, rfl, hsized, rfl, rfl,
                  rfl, rfl⟩

theorem onBar_preClose {x : Session PreCloseDaily PreCloseRolling}
    (h : Outcome.signal (p.onBar e x).2 = some signal) :
    p.preClose e.bar (accumulate e.bar x.daily.vwap) (p.append e.bar x.rolling) =
      .ok (some signal) := by
  rw [onBar] at h
  dsimp only at h
  split at h
  · cases h
  · split at h
    · next produced hproduced =>
      cases h
      exact hproduced
    · exact Outcome.eq_of_signal h

theorem published {x : Session PreCloseDaily PreCloseRolling}
    (h : Outcome.signal (p.onBar e x).2 = some signal) :
    ∃ d, p.distances e x = some d ∧ Published (roundTo 4) e.bar.closePrice d signal := by
  obtain ⟨atr, direction, score, confidence, hatr, -, -, hbuilt⟩ :=
    preClose_built (onBar_preClose h)
  refine ⟨⟨p.atrStopMult * atr, max (e.bar.closePrice * p.tpPct) (p.atrStopMult * atr * (3 / 2))⟩,
    ?_, hbuilt.published⟩
  simp [distances, hatr]

end PreCloseMomentumStrategy

namespace Registered

/-- What is done to a level before it is published. -/
def publish : Registered → ℚ → ℚ
  | momentum _ => id
  | _ => roundTo 4

/-- How far that moves a level at most. -/
def halfUnit : Registered → ℚ
  | momentum _ => 0
  | _ => 1 / 20000

/-- The distances of a signal on that side, from the bar and the state that it finds. -/
def distances : (r : Registered) → Dispatch → Session r.Daily r.Rolling → OrderSide →
    Option Distances
  | momentum p, e, x, _ => p.distances e x
  | orb p, e, x, direction => p.distances e x direction
  | scalp1m p, e, x, _ => p.distances e x
  | vwapReversion p sqrt, e, x, _ => p.distances sqrt e x
  | intradayTrend15m p, e, x, _ => p.distances e x
  | preCloseMomentum p, e, x, _ => p.distances e x

/-- Multipliers that are not negative, as the constructors have them, where the side of a level
depends on them; `math.sqrt` answers no negative number. -/
def Tuned : Registered → Prop
  | orb p => 0 ≤ p.atrStopMult
  | vwapReversion p sqrt => 0 ≤ p.bandStd ∧ ∀ q root, sqrt q = .ok root → 0 ≤ root
  | _ => True

/-- The state of a symbol after bars that are valid. -/
def Sound : (r : Registered) → Session r.Daily r.Rolling → Prop
  | orb _, x => ORBStrategy.Upright x.daily
  | _, _ => True

variable (r : Registered)

/-- The side and the distances of the signal that the bar gives, if it gives one. -/
def entry (e : Dispatch) (x : Session r.Daily r.Rolling) : Option (OrderSide × Distances) := do
  let signal ← Outcome.signal (r.strategy.onBar e x).2
  let d ← r.distances e x signal.direction
  return (signal.direction, d)

/-- A bar that gives a signal leaves its levels room. -/
def HasRoom (e : Dispatch) (x : Session r.Daily r.Rolling) : Prop :=
  ∀ d ∈ r.entry e x, d.2.HasRoom r.halfUnit e.bar.closePrice d.1

instance (e : Dispatch) (x : Session r.Daily r.Rolling) : Decidable (r.HasRoom e x) :=
  inferInstanceAs (Decidable (∀ d ∈ r.entry e x, _))

theorem abs_publish_sub_le (x : ℚ) : |r.publish x - x| ≤ r.halfUnit := by
  cases r with
  | momentum p => simp [publish, halfUnit]
  | orb p => exact abs_roundTo_four_sub_le x
  | scalp1m p => exact abs_roundTo_four_sub_le x
  | vwapReversion p sqrt => exact abs_roundTo_four_sub_le x
  | intradayTrend15m p => exact abs_roundTo_four_sub_le x
  | preCloseMomentum p => exact abs_roundTo_four_sub_le x

variable {r} {e : Dispatch} {x : Session r.Daily r.Rolling}

theorem published (htuned : r.Tuned) (hsound : r.Sound x) {signal : Signal}
    (h : Outcome.signal (r.strategy.onBar e x).2 = some signal) :
    ∃ d, r.distances e x signal.direction = some d ∧
      Published r.publish e.bar.closePrice d signal := by
  cases r with
  | momentum p => exact MomentumStrategy.published h
  | orb p => exact ORBStrategy.published htuned hsound h
  | scalp1m p => exact Scalp1mStrategy.published h
  | vwapReversion p sqrt => exact VWAPReversionStrategy.published htuned.1 htuned.2 h
  | intradayTrend15m p => exact IntradayTrend15mStrategy.published h
  | preCloseMomentum p => exact PreCloseMomentumStrategy.published h

theorem onBar_sound (hbar : ValidBar e.bar) (hsound : r.Sound x) :
    r.Sound (r.strategy.onBar e x).1 := by
  cases r with
  | orb p => exact ORBStrategy.onBar_upright hbar hsound
  | _ => trivial

theorem fresh_sound (r : Registered) : r.Sound r.strategy.fresh := by
  cases r with
  | orb p =>
    rintro high low ⟨⟩
  | _ => trivial

/-- A bar at an instance leaves room, if the strategy takes it. -/
def RoomAt (r : Registered) (i : Instance r.Daily r.Rolling) (e : Dispatch) : Prop :=
  r.strategy.Takes e.bar → r.HasRoom e (i.sessions e.bar.symbol)

instance (r : Registered) (i : Instance r.Daily r.Rolling) (e : Dispatch) :
    Decidable (r.RoomAt i e) :=
  inferInstanceAs (Decidable (_ → _))

/-- The run lemma: the states stay sound, so that each signal has its levels where they belong. -/
theorem signals_coherent (htuned : r.Tuned) {es : List Dispatch} {i : Instance r.Daily r.Rolling}
    (hbars : ∀ e ∈ es, ValidBar e.bar) (hpending : i.pending = none)
    (hsound : ∀ symbol, r.Sound (i.sessions symbol))
    (hroom : StepsMeet (fun i e => (r.strategy.dispatchBar e i).1) r.RoomAt i es) :
    ∀ signal, some signal ∈ r.strategy.signals es i → Coherent signal := by
  induction es generalizing i with
  | nil => simp [Strategy.signals]
  | cons e es ih =>
    obtain ⟨hbar, hbars⟩ := List.forall_mem_cons.mp hbars
    have hnext : ∀ symbol, r.Sound ((r.strategy.dispatchBar e i).1.sessions symbol) := by
      intro symbol
      by_cases htakes : r.strategy.Takes e.bar
      · rw [Strategy.dispatchBar_sessions htakes, Function.update_apply]
        split
        · exact onBar_sound hbar (hsound e.bar.symbol)
        · exact hsound symbol
      · rw [Strategy.dispatchBar_ignored htakes]
        exact hsound symbol
    intro signal hmem
    rw [Strategy.signals, List.mem_cons] at hmem
    obtain hhere | hlater := hmem
    · by_cases htakes : r.strategy.Takes e.bar
      · rw [Strategy.dispatchBar_signal hpending htakes] at hhere
        obtain ⟨d, hdistances, hpublished⟩ := published htuned (hsound e.bar.symbol) hhere.symm
        have hentry : r.entry e (i.sessions e.bar.symbol) = some (signal.direction, d) := by
          rw [entry, ← hhere]
          simp [hdistances]
        exact hpublished.coherent r.abs_publish_sub_le (hroom.1 htakes _ hentry)
      · rw [Strategy.dispatchBar_ignored htakes] at hhere
        cases hhere
    · exact ih hbars (Strategy.dispatchBar_pending hpending) hnext hroom.2 signal hlater

end Registered

/-- Over valid bars each of which leaves the levels of its signal room, every signal has its stop
and its target on the two sides of the price, above zero, and asks for at least one share. -/
theorem protective_levels (r : Registered) (htuned : r.Tuned) (es : List Dispatch)
    (hbars : ∀ e ∈ es, ValidBar e.bar)
    (hroom : StepsMeet (fun i e => (r.strategy.dispatchBar e i).1) r.RoomAt r.strategy.new es) :
    ∀ signal, some signal ∈ r.strategy.signals es r.strategy.new → Coherent signal :=
  Registered.signals_coherent htuned hbars rfl (fun _ => r.fresh_sound) hroom

/-- A range from 100 to 300, and a close at 30 after it on three times the volume. -/
def collapseDay : List Dispatch :=
  (List.range 16).map (fun i => infyBar 0 (555 + i) 300 100 200 1000) ++
    [infyBar 0 571 35 25 30 3000]

/-- The target of the short signal is twice its stop below the price, at -310. -/
theorem collapse_target_negative :
    ¬ ∀ (r : Registered) (es : List Dispatch), (∀ e ∈ es, ValidBar e.bar) →
      ∀ signal, some signal ∈ r.strategy.signals es r.strategy.new → Coherent signal := by
  intro h
  have hbars : ∀ e ∈ collapseDay, ValidBar e.bar := by decide +kernel
  have hshort : ∃ signal ∈
      (infyOrb.strategy.signals collapseDay infyOrb.strategy.new).reduceOption,
      signal.direction = .sell ∧ signal.takeProfit = -310 ∧ ¬ Coherent signal := by
    decide +kernel
  obtain ⟨signal, hmem, -, -, hbad⟩ := hshort
  exact hbad (h (.orb infyOrb) collapseDay hbars signal (List.reduceOption_mem_iff.mp hmem))

/-- The breakout of an ordinary day has the room it needs. -/
theorem protective_levels_breakoutDay : (∀ e ∈ breakoutDay 0, ValidBar e.bar) ∧
    ∀ signal, some signal ∈ infyOrb.strategy.signals (breakoutDay 0) infyOrb.strategy.new →
      Coherent signal :=
  ⟨by decide +kernel, protective_levels (.orb infyOrb) (by decide +kernel : 0 ≤ infyOrb.atrStopMult)
    (breakoutDay 0) (by decide +kernel) (by decide +kernel)⟩

end QuantEmbrace.Strategies
