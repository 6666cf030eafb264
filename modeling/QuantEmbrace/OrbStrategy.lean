import QuantEmbrace.StrategyBase

/-! The opening-range breakout strategy. -/
namespace QuantEmbrace.Strategies
open Indicators RiskCheck Candles

structure ORBStrategy where
  name : String := "orb_15m"
  symbols : List String := []
  market : String := "NSE"
  orEndMinutes : ℕ := 15
  minOrRangeMult : ℚ := 1 / 2
  volMultiplier : ℚ := 3 / 2
  atrPeriod : ℕ := 14
  atrStopMult : ℚ := 3 / 2
  rrRatio : ℚ := 2
  minConfidence : ℚ := 65 / 100
  nav : ℚ := 1000000
  paperTrade : Bool := true
  deriving DecidableEq, Repr

structure OrbDaily where
  orHigh : Option ℚ := none
  orLow : Option ℚ := none
  confirmed : Bool := false
  fired : Finset OrderSide := ∅
  deriving DecidableEq

structure OrbRolling where
  highs : List ℚ := []
  lows : List ℚ := []
  closes : List ℚ := []
  volumes : List ℤ := []
  deriving DecidableEq, Repr

/-- 09:15 IST -/
def marketOpenIstMin : ℤ := 9 * 60 + 15

inductive OrbPhase where
  | forming
  | deciding
  | idle
  | watching
  deriving DecidableEq, Repr

/-- What is logged when the range is judged. -/
inductive OrDecision where
  | rangeConfirmed
  | rangeTooNarrow
  deriving DecidableEq, Repr

/-- A bar of the forming phase widens the range, and leaves it unconfirmed. -/
def OrbDaily.extend (d : OrbDaily) (bar : Bar) : OrbDaily :=
  match d.orHigh, d.orLow with
  | some high, some low => { d with
      orHigh := some (max high bar.high)
      orLow := some (min low bar.low)
      confirmed := false }
  | _, _ => { d with
      orHigh := some bar.high
      orLow := some bar.low
      confirmed := false }

namespace ORBStrategy
variable (p : ORBStrategy)

def orEndIstMin : ℤ := marketOpenIstMin + p.orEndMinutes

/-- Which part of `on_bar` a bar gets to. -/
def phase (ist : ℤ) (confirmed : Bool) : OrbPhase :=
  if marketOpenIstMin ≤ ist ∧ ist < p.orEndIstMin then .forming
  else if ist = p.orEndIstMin ∧ confirmed = false then .deciding
  else if confirmed = false ∨ ist < p.orEndIstMin ∨ 14 * 60 + 45 ≤ ist then .idle
  else .watching

def append (bar : Bar) (r : OrbRolling) : OrbRolling where
  highs := push (p.atrPeriod * 3) r.highs bar.high
  lows := push (p.atrPeriod * 3) r.lows bar.low
  closes := push (p.atrPeriod * 3) r.closes bar.closePrice
  volumes := push 20 r.volumes bar.volume

def atr (r : OrbRolling) : Option ℚ := atrWilder r.highs r.lows r.closes p.atrPeriod

/-- The range is wide enough for the prices that have been seen; NaN asks for nothing. -/
def WideEnough (r : OrbRolling) (orRange : ℚ) : Prop :=
  (p.atr r).elim 0 (fun atr => p.minOrRangeMult * atr) ≤ orRange

instance (r : OrbRolling) (orRange : ℚ) : Decidable (p.WideEnough r orRange) :=
  inferInstanceAs (Decidable (_ ≤ _))

/-- The decision of the deciding phase, if there is a range to decide about. -/
def decision (r : OrbRolling) (d : OrbDaily) : Option OrDecision :=
  match d.orHigh, d.orLow with
  | some high, some low =>
    if p.WideEnough r (high - low) then some .rangeConfirmed else some .rangeTooNarrow
  | _, _ => none

/-- `_build_signal` -/
def buildSignal (bar : Bar) (direction : OrderSide) (orHigh orLow atr : ℚ) : Option Signal :=
  let price := bar.closePrice
  let orMid := (orHigh + orLow) / 2
  let stopAtr := stopSide direction price (p.atrStopMult * atr)
  let stopLoss := match direction with
    | .buy => max stopAtr orMid
    | .sell => min stopAtr orMid
  let stopDistance := |price - stopLoss|
  if stopDistance ≤ 0 then none
  else
    let boundary := match direction with
      | .buy => orHigh
      | .sell => orLow
    let confidence := min 1 (1 / 2 + |price - boundary| / (atr * 2))
    if confidence < p.minConfidence then none
    else
      let sizing := sizePosition price stopDistance p.nav confidence
      if sizing.Rejects then none
      else some {
        symbol := bar.symbol
        market := p.market
        direction
        quantity := sizing.qty
        confidence := roundTo 4 confidence
        strategyName := p.name
        priceAtSignal := price
        stopLoss := roundTo 4 stopLoss
        takeProfit := roundTo 4 (profitSide direction price (stopDistance * p.rrRatio))
        metadata :=
          [("or_high", .number (roundTo 4 orHigh)),
            ("or_low", .number (roundTo 4 orLow)),
            ("or_range", .number (roundTo 4 (orHigh - orLow))),
            ("or_mid", .number (roundTo 4 orMid)),
            ("atr", .number (roundTo 4 atr)),
            ("stop_distance", .number (roundTo 4 stopDistance)),
            ("rr_ratio", .number p.rrRatio),
            ("paper_trade", .flag p.paperTrade),
            ("strategy_version", .text "orb_v1")] ++ sizing.toMetadata }

/-- The breakout watch. -/
def breakout (bar : Bar) (r : OrbRolling) (d : OrbDaily) : Option (OrderSide × Signal) :=
  match d.orHigh, d.orLow, p.atr r with
  | some orHigh, some orLow, some atr =>
    let avgVol := averageVolume r.volumes
    if 0 < avgVol ∧ bar.volume < p.volMultiplier * avgVol then none
    else if atr ≤ 0 then none
    else if orHigh < bar.closePrice ∧ .buy ∉ d.fired then
      (p.buildSignal bar .buy orHigh orLow atr).map fun signal => (.buy, signal)
    else if bar.closePrice < orLow ∧ .sell ∉ d.fired then
      (p.buildSignal bar .sell orHigh orLow atr).map fun signal => (.sell, signal)
    else none
  | _, _, _ => none

def onBar (e : Dispatch) (x : Session OrbDaily OrbRolling) :
    Session OrbDaily OrbRolling × Outcome :=
  let r := p.append e.bar x.rolling
  let d := x.daily
  match p.phase (istMin e.bar.timestamp) d.confirmed with
  | .forming => (⟨d.extend e.bar, r⟩, .ok none)
  | .deciding =>
    if p.decision r d = some .rangeConfirmed then (⟨{ d with confirmed := true }, r⟩, .ok none)
    else (⟨d, r⟩, .ok none)
  | .idle => (⟨d, r⟩, .ok none)
  | .watching =>
    match p.breakout e.bar r d with
    | some (direction, signal) =>
      (⟨{ d with fired := insert direction d.fired }, r⟩, .ok (some signal))
    | none => (⟨d, r⟩, .ok none)

def strategy : Strategy OrbDaily OrbRolling where
  name := p.name
  symbols := p.symbols
  candleInterval := "minute"
  fresh := ⟨{}, {}⟩
  onBar := p.onBar
  onTick _ x := x
  resetDaily x := { x with daily := {} }

/-- The bar is stamped in the window of the opening range. -/
def Forms (bar : Bar) : Prop :=
  marketOpenIstMin ≤ istMin bar.timestamp ∧ istMin bar.timestamp < p.orEndIstMin

instance (bar : Bar) : Decidable (p.Forms bar) := instDecidableAnd

variable {p} {e : Dispatch} {x : Session OrbDaily OrbRolling}

@[simp] theorem onBar_rolling : (p.onBar e x).1.rolling = p.append e.bar x.rolling := by
  rw [onBar]
  cases p.phase (istMin e.bar.timestamp) x.daily.confirmed with
  | deciding => dsimp only; split <;> rfl
  | watching => dsimp only; split <;> rfl
  | forming | idle => rfl

variable (e x) in
theorem length_closes_le :
    (p.onBar e x).1.rolling.closes.length ≤ x.rolling.closes.length + 1 := by
  rw [onBar_rolling]
  exact length_push_le _ _ _

theorem phase_forms {confirmed : Bool} (h : p.Forms e.bar) :
    p.phase (istMin e.bar.timestamp) confirmed = .forming :=
  if_pos h

theorem onBar_forms (h : p.Forms e.bar) :
    p.onBar e x = (⟨x.daily.extend e.bar, p.append e.bar x.rolling⟩, .ok none) := by
  rw [onBar, phase_forms h]

/-- Where a bar outside the window gets to. -/
theorem phase_outside {confirmed : Bool} (h : ¬ p.Forms e.bar) :
    p.phase (istMin e.bar.timestamp) confirmed = .deciding ∧
        istMin e.bar.timestamp = p.orEndIstMin ∧ confirmed = false ∨
      p.phase (istMin e.bar.timestamp) confirmed = .idle ∧
        (confirmed = false → istMin e.bar.timestamp ≠ p.orEndIstMin) ∨
      p.phase (istMin e.bar.timestamp) confirmed = .watching ∧ confirmed = true := by
  have hphase : ¬ (marketOpenIstMin ≤ istMin e.bar.timestamp ∧
    istMin e.bar.timestamp < p.orEndIstMin) := h
  rw [phase, if_neg hphase]
  by_cases hend : istMin e.bar.timestamp = p.orEndIstMin ∧ confirmed = false
  · exact .inl ⟨if_pos hend, hend⟩
  · rw [if_neg hend]
    split
    · exact .inr (.inl ⟨rfl, fun hc he => hend ⟨he, hc⟩⟩)
    · next hidle =>
      exact .inr (.inr ⟨rfl, by simpa using fun hc => hidle (.inl hc)⟩)

/-- The breakout watch, from the end of the window to 14:45 IST. -/
def InHours (p : ORBStrategy) (bar : Bar) : Prop :=
  p.orEndIstMin ≤ istMin bar.timestamp ∧ istMin bar.timestamp < 14 * 60 + 45

/-- Nothing is signalled out of hours. -/
theorem onBar_quiet (e : Dispatch) (x : Session OrbDaily OrbRolling) (h : ¬ p.InHours e.bar) :
    (p.onBar e x).2 = .ok none := by
  rw [onBar]
  cases hphase : p.phase (istMin e.bar.timestamp) x.daily.confirmed with
  | forming | idle => rfl
  | deciding => dsimp only; split <;> rfl
  | watching =>
    rw [phase] at hphase
    split at hphase
    · cases hphase
    · split at hphase
      · cases hphase
      · split at hphase
        · cases hphase
        · next hidle =>
          refine absurd ⟨not_lt.mp fun hlt => hidle (.inr (.inl hlt)),
            not_le.mp fun hle => hidle (.inr (.inr hle))⟩ h

/-- Without the history of an ATR there is no breakout. -/
theorem onBar_short (e : Dispatch) (x : Session OrbDaily OrbRolling)
    (h : x.rolling.closes.length < p.atrPeriod) : (p.onBar e x).2 = .ok none := by
  have hatr : p.atr (p.append e.bar x.rolling) = none :=
    atrWilder_short ((length_push_le _ _ _).trans h)
  have hnone : p.breakout e.bar (p.append e.bar x.rolling) x.daily = none := by
    rw [breakout, hatr]
    split <;> simp_all
  rw [onBar]
  cases p.phase (istMin e.bar.timestamp) x.daily.confirmed with
  | forming | idle => rfl
  | deciding => dsimp only; split <;> rfl
  | watching => rw [hnone]

/-- Outside the window the range stays, and so does its confirmation. -/
theorem onBar_outside (h : ¬ p.Forms e.bar) :
    (p.onBar e x).1.daily.orHigh = x.daily.orHigh ∧
      (p.onBar e x).1.daily.orLow = x.daily.orLow ∧
      (x.daily.confirmed = true → (p.onBar e x).1.daily.confirmed = true) := by
  rw [onBar]
  obtain ⟨hphase, -⟩ | ⟨hphase, -⟩ | ⟨hphase, -⟩ := phase_outside h <;> rw [hphase] <;>
    dsimp only
  · split <;> simp
  · simp
  · split <;> simp

/-- Only the decision confirms a range. -/
theorem onBar_unconfirmed (h : ¬ p.Forms e.bar) (hconf : x.daily.confirmed = false) :
    (p.onBar e x).1.daily =
      if istMin e.bar.timestamp = p.orEndIstMin ∧
          p.decision (p.append e.bar x.rolling) x.daily = some .rangeConfirmed then
        { x.daily with confirmed := true }
      else x.daily := by
  rw [onBar]
  obtain ⟨hphase, hend, -⟩ | ⟨hphase, hend⟩ | ⟨-, htrue⟩ := phase_outside h
  · rw [hphase]
    simp only [hend, true_and]
    split <;> rfl
  · have hno := hend hconf
    rw [hphase]
    simp only [hno, false_and, if_false]
  · exact absurd (hconf.symm.trans htrue) Bool.false_ne_true

end ORBStrategy

end QuantEmbrace.Strategies
