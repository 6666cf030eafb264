import QuantEmbrace.ProtectiveLevels

/-! The quantity of a signal against the budget of its strategy: the largest that the hard cap,
the target and the loss at the stop admit, and never less than one share. -/
namespace QuantEmbrace.Strategies
open Indicators RiskCheck Candles

section Budget
variable {price stop nav confidence : ℚ} {q : ℤ}

def targetPct (confidence : ℚ) : ℚ :=
  if highConvictionThreshold ≤ confidence then targetPctHighConv else targetPctDefault

/-- The three bounds of a quantity. -/
structure WithinBudget (price stop nav confidence : ℚ) (q : ℤ) : Prop where
  target : q * price ≤ nav * targetPct confidence
  hardCap : q * price ≤ nav * hardCapPct
  loss : q * stop ≤ nav * maxLossPct

/-- The least of the three floors. -/
def rawQty (price stop nav confidence : ℚ) : ℤ :=
  min ⌊nav * targetPct confidence / price⌋
    (min ⌊nav * hardCapPct / price⌋ ⌊nav * maxLossPct / stop⌋)

/-- The inputs are valid, and one share is not above the hard cap. -/
def OneShareFits (price stop nav : ℚ) : Prop :=
  0 < price ∧ 0 < stop ∧ 0 < nav ∧ price ≤ nav * hardCapPct

instance : Decidable (OneShareFits price stop nav) := instDecidableAnd

theorem withinBudget_iff (hprice : 0 < price) (hstop : 0 < stop) :
    WithinBudget price stop nav confidence q ↔ q ≤ rawQty price stop nav confidence := by
  rw [rawQty, le_min_iff, le_min_iff, Int.le_floor, Int.le_floor, Int.le_floor,
    le_div_iff₀ hprice, le_div_iff₀ hprice, le_div_iff₀ hstop]
  exact ⟨fun h => ⟨h.target, h.hardCap, h.loss⟩, fun h => ⟨h.1, h.2.1, h.2.2⟩⟩

theorem sizePosition_valid (hprice : 0 < price) (hstop : 0 < stop) (hnav : 0 < nav) :
    (sizePosition price stop nav confidence).qty = max 1 (rawQty price stop nav confidence) ∧
      (sizePosition price stop nav confidence).rejectedIfExceedsCap =
        decide (nav * hardCapPct < max 1 (rawQty price stop nav confidence) * price) := by
  have hvalid : ¬ (price ≤ 0 ∨ stop ≤ 0 ∨ nav ≤ 0) := by
    simp only [not_or, not_le]
    exact ⟨hprice, hstop, hnav⟩
  rw [sizePosition, if_neg hvalid]
  simp [rawQty, targetPct]

/-- More than one share is never above the cap. -/
theorem exceeds_cap_iff (hprice : 0 < price) (hstop : 0 < stop) :
    nav * hardCapPct < max 1 (rawQty price stop nav confidence) * price ↔
      nav * hardCapPct < price := by
  obtain hone | hmore := le_total (rawQty price stop nav confidence) 1
  · rw [max_eq_left hone, Int.cast_one, one_mul]
  · have hfits : (rawQty price stop nav confidence : ℚ) * price ≤ nav * hardCapPct :=
      ((withinBudget_iff hprice hstop).mpr le_rfl).hardCap
    have hcast : (1 : ℚ) ≤ rawQty price stop nav confidence := by exact_mod_cast hmore
    rw [max_eq_right hmore]
    have hshare : price ≤ rawQty price stop nav confidence * price :=
      le_mul_of_one_le_left hprice.le hcast
    exact iff_of_false (not_lt.mpr hfits) (not_lt.mpr (hshare.trans hfits))

theorem not_rejects_iff : ¬ (sizePosition price stop nav confidence).Rejects ↔
    OneShareFits price stop nav := by
  by_cases hvalid : 0 < price ∧ 0 < stop ∧ 0 < nav
  · obtain ⟨hprice, hstop, hnav⟩ := hvalid
    obtain ⟨hqty, hexceeds⟩ :=
      @sizePosition_valid price stop nav confidence hprice hstop hnav
    have hone : 1 ≤ max 1 (rawQty price stop nav confidence) := le_max_left _ _
    rw [SizingResult.Rejects, hqty, hexceeds, decide_eq_true_eq, not_or,
      exceeds_cap_iff hprice hstop, not_lt, OneShareFits]
    constructor
    · intro h
      exact ⟨hprice, hstop, hnav, h.2⟩
    · intro h
      exact ⟨by omega, h.2.2.2⟩
  · have hinvalid : price ≤ 0 ∨ stop ≤ 0 ∨ nav ≤ 0 := by
      by_contra hall
      simp only [not_or, not_le] at hall
      exact hvalid hall
    refine iff_of_false (not_not.mpr (.inl ?_)) fun h => hvalid ⟨h.1, h.2.1, h.2.2.1⟩
    rw [sizePosition, if_pos hinvalid]

/-- The largest quantity within the bounds, or one share where not even that is within them; the
hard cap holds either way. -/
structure Budgeted (price stop nav confidence : ℚ) (q : ℤ) : Prop where
  one_le : 1 ≤ q
  hardCap : q * price ≤ nav * hardCapPct
  largest : WithinBudget price stop nav confidence 1 →
    IsGreatest {n | WithinBudget price stop nav confidence n} q
  single : ¬ WithinBudget price stop nav confidence 1 → q = 1

theorem sizePosition_budgeted (h : OneShareFits price stop nav) :
    Budgeted price stop nav confidence (sizePosition price stop nav confidence).qty := by
  obtain ⟨hprice, hstop, hnav, hfits⟩ := h
  rw [(sizePosition_valid hprice hstop hnav).1]
  refine ⟨le_max_left _ _, ?_, fun hone => ?_, fun hnone => ?_⟩
  · have hcap : ¬ nav * hardCapPct < max 1 (rawQty price stop nav confidence) * price :=
      (exceeds_cap_iff hprice hstop).not.mpr (not_lt.mpr hfits)
    exact_mod_cast not_lt.mp hcap
  · rw [max_eq_right ((withinBudget_iff hprice hstop).mp hone)]
    exact ⟨(withinBudget_iff hprice hstop).mpr le_rfl,
      fun n hn => (withinBudget_iff hprice hstop).mp hn⟩
  · rw [withinBudget_iff hprice hstop, not_le] at hnone
    exact max_eq_left hnone.le

end Budget

/-- The quantity that was asked of the sizer, and granted. -/
structure Granted (sizing : SizingResult) (signal : Signal) : Prop where
  accepted : ¬ sizing.Rejects
  quantity : signal.quantity = sizing.qty

theorem Built.granted {sizing : SizingResult} {price confidence stop target : ℚ}
    {direction : OrderSide} {signal : Signal}
    (h : Built sizing price confidence stop target direction signal) : Granted sizing signal :=
  ⟨h.accepted, h.quantity⟩

namespace ORBStrategy
variable {p : ORBStrategy} {e : Dispatch} {x : Session OrbDaily OrbRolling} {signal : Signal}

theorem granted (h : Outcome.signal (p.onBar e x).2 = some signal) :
    ∃ d confidence, p.distances e x signal.direction = some d ∧
      signal.confidence = roundTo 4 confidence ∧
      Granted (sizePosition e.bar.closePrice d.stop p.nav confidence) signal := by
  obtain ⟨direction, hbreakout⟩ := onBar_signal h
  obtain ⟨orHigh, orLow, atr, hhigh, hlow, hatr, -, -, hbuilt⟩ := breakout_builds hbreakout
  obtain ⟨confidence, hbuilt⟩ := buildSignal_built hbuilt
  rw [hbuilt.direction]
  exact ⟨_, confidence, by simp [distances, hhigh, hlow, hatr], hbuilt.confidence, hbuilt.granted⟩

end ORBStrategy

namespace VWAPReversionStrategy
variable {p : VWAPReversionStrategy} {sqrt : ℚ → Except PyError ℚ} {e : Dispatch}
  {x : Session VwapLists VwapRolling} {signal : Signal}

theorem granted (h : Outcome.signal (p.onBar sqrt e x).2 = some signal) :
    ∃ d confidence, p.distances sqrt e x = some d ∧ signal.confidence = roundTo 4 confidence ∧
      Granted (sizePosition e.bar.closePrice d.stop p.nav confidence) signal := by
  obtain ⟨bands, atr, direction, confidence, hbands, hatr, -, hemit⟩ :=
    reversal_emits (onBar_reversal h)
  have hbuilt := emit_built hemit
  exact ⟨_, confidence, by simp [distances, hbands, hatr], hbuilt.confidence, hbuilt.granted⟩

end VWAPReversionStrategy

namespace Scalp1mStrategy
variable {p : Scalp1mStrategy} {e : Dispatch} {x : Session SignalCount ScalpRolling}
  {signal : Signal}

theorem granted (h : Outcome.signal (p.onBar e x).2 = some signal) :
    ∃ d confidence, p.distances e x = some d ∧ signal.confidence = roundTo 4 confidence ∧
      Granted (sizePosition e.bar.closePrice d.stop p.nav confidence) signal := by
  obtain ⟨c, side, atr, confidence, hfilters, hbuilt⟩ := onBar_builds h
  obtain ⟨floor, hfloor, hbuilt⟩ := buildSignal_built hbuilt
  refine ⟨⟨floor.stopDistance, floor.tpDistance⟩, confidence, ?_, hbuilt.confidence,
    hbuilt.granted⟩
  simp [distances, filters_atr hfilters, hfloor, Except.toOption]

end Scalp1mStrategy

namespace IntradayTrend15mStrategy
variable {p : IntradayTrend15mStrategy} {e : Dispatch} {x : Session TrendDaily PriceBuffers}
  {signal : Signal}

theorem granted (h : Outcome.signal (p.onBar e x).2 = some signal) :
    ∃ d confidence, p.distances e x = some d ∧ signal.confidence = roundTo 4 confidence ∧
      Granted (sizePosition e.bar.closePrice d.stop p.nav confidence) signal := by
  obtain ⟨direction, c, trendEma, atr, adxV, confidence, hdistances, hbuild⟩ := onBar_builds h
  have hbuilt := build_built hbuild
  exact ⟨_, confidence, hdistances, hbuilt.confidence, hbuilt.granted⟩

end IntradayTrend15mStrategy

namespace PreCloseMomentumStrategy
variable {p : PreCloseMomentumStrategy} {e : Dispatch} {x : Session PreCloseDaily PreCloseRolling}
  {signal : Signal}

theorem granted (h : Outcome.signal (p.onBar e x).2 = some signal) :
    ∃ d confidence, p.distances e x = some d ∧ signal.confidence = roundTo 4 confidence ∧
      Granted (sizePosition e.bar.closePrice d.stop p.nav confidence) signal := by
  obtain ⟨atr, direction, score, confidence, hatr, -, -, hbuilt⟩ :=
    preClose_built (onBar_preClose h)
  have hdistances : p.distances e x = some ⟨p.atrStopMult * atr,
      max (e.bar.closePrice * p.tpPct) (p.atrStopMult * atr * (3 / 2))⟩ := by
    simp [distances, hatr]
  exact ⟨_, confidence, hdistances, hbuilt.confidence, hbuilt.granted⟩

end PreCloseMomentumStrategy

namespace MomentumStrategy
variable {p : MomentumStrategy} {e : Dispatch} {x : Session Unit MomentumRolling}
  {signal : Signal}

/-- Where the sizer rejects, one share is asked for all the same. -/
theorem granted (h : Outcome.signal (p.onBar e x).2 = some signal) :
    ∃ d confidence, p.distances e x = some d ∧ signal.confidence = confidence ∧
      (¬ (sizePosition e.bar.closePrice d.stop p.nav confidence).Rejects →
        Granted (sizePosition e.bar.closePrice d.stop p.nav confidence) signal) := by
  obtain ⟨direction, confidence, atr, shortMa, longMa, hdistances, hbuilt⟩ := onBar_builds h
  rw [buildSignal] at hbuilt
  split at hbuilt
  · cases hbuilt
  · cases hbuilt
    refine ⟨_, confidence, hdistances, rfl, fun haccepted => ⟨haccepted, if_pos ?_⟩⟩
    obtain ⟨hzero, hcap⟩ := not_or.mp haccepted
    exact ⟨lt_of_lt_of_le Int.one_pos (one_le_qty hzero), Bool.eq_false_iff.mpr hcap⟩

end MomentumStrategy

namespace Registered

def nav : Registered → ℚ
  | momentum p => p.nav
  | orb p => p.nav
  | scalp1m p => p.nav
  | vwapReversion p _ => p.nav
  | intradayTrend15m p => p.nav
  | preCloseMomentum p => p.nav

/-- The confidence that a signal carries is the one it was sized by, published. -/
structure SizedBy (r : Registered) (e : Dispatch) (x : Session r.Daily r.Rolling)
    (signal : Signal) (d : Distances) (confidence : ℚ) : Prop where
  distances : r.distances e x signal.direction = some d
  confidence : signal.confidence = r.publish confidence

variable {r : Registered} {e : Dispatch} {x : Session r.Daily r.Rolling} {signal : Signal}

/-- All strategies take what the sizer grants; only momentum goes on where it rejects. -/
theorem granted (h : Outcome.signal (r.strategy.onBar e x).2 = some signal) :
    ∃ d confidence, r.SizedBy e x signal d confidence ∧
      (¬ (sizePosition e.bar.closePrice d.stop r.nav confidence).Rejects →
        Granted (sizePosition e.bar.closePrice d.stop r.nav confidence) signal) ∧
      (¬ (sizePosition e.bar.closePrice d.stop r.nav confidence).Rejects ∨
        ∃ p, r = .momentum p) := by
  cases r with
  | momentum p =>
    obtain ⟨d, confidence, hdistances, hconfidence, hgranted⟩ := MomentumStrategy.granted h
    exact ⟨d, confidence, ⟨hdistances, hconfidence⟩, hgranted, .inr ⟨p, rfl⟩⟩
  | orb p =>
    obtain ⟨d, confidence, hdistances, hconfidence, hgranted⟩ := ORBStrategy.granted h
    exact ⟨d, confidence, ⟨hdistances, hconfidence⟩, fun _ => hgranted, .inl hgranted.accepted⟩
  | scalp1m p =>
    obtain ⟨d, confidence, hdistances, hconfidence, hgranted⟩ := Scalp1mStrategy.granted h
    exact ⟨d, confidence, ⟨hdistances, hconfidence⟩, fun _ => hgranted, .inl hgranted.accepted⟩
  | vwapReversion p sqrt =>
    obtain ⟨d, confidence, hdistances, hconfidence, hgranted⟩ := VWAPReversionStrategy.granted h
    exact ⟨d, confidence, ⟨hdistances, hconfidence⟩, fun _ => hgranted, .inl hgranted.accepted⟩
  | intradayTrend15m p =>
    obtain ⟨d, confidence, hdistances, hconfidence, hgranted⟩ := IntradayTrend15mStrategy.granted h
    exact ⟨d, confidence, ⟨hdistances, hconfidence⟩, fun _ => hgranted, .inl hgranted.accepted⟩
  | preCloseMomentum p =>
    obtain ⟨d, confidence, hdistances, hconfidence, hgranted⟩ := PreCloseMomentumStrategy.granted h
    exact ⟨d, confidence, ⟨hdistances, hconfidence⟩, fun _ => hgranted, .inl hgranted.accepted⟩

end Registered

/-- A signal whose inputs leave room for one share under the hard cap asks for the largest quantity
within its budget, or for one share. Without that room all strategies but one emit no signal. -/
theorem signals_budgeted (r : Registered) (e : Dispatch) (x : Session r.Daily r.Rolling)
    (signal : Signal) (h : Outcome.signal (r.strategy.onBar e x).2 = some signal) :
    ∃ d confidence, r.SizedBy e x signal d confidence ∧
      (OneShareFits e.bar.closePrice d.stop r.nav →
        Budgeted e.bar.closePrice d.stop r.nav confidence signal.quantity) ∧
      (OneShareFits e.bar.closePrice d.stop r.nav ∨ ∃ p, r = .momentum p) := by
  obtain ⟨d, confidence, hsized, hgranted, haccepted⟩ := Registered.granted h
  rw [not_rejects_iff] at hgranted haccepted
  refine ⟨d, confidence, hsized, fun hfits => ?_, haccepted⟩
  rw [(hgranted hfits).quantity]
  exact sizePosition_budgeted hfits

/-- Sixteen minutes between 60 and 140. -/
def wideHours : List Dispatch :=
  (List.range 16).map fun i => infyBar 0 (555 + i) 140 60 100 1000

/-- A close at 175 after them, on three times the volume. -/
def wideBreakout : Dispatch := infyBar 0 571 180 100 175 3000

def wideOrb : ORBStrategy := { infyOrb with nav := 3500 }

def wideSession : Session OrbDaily OrbRolling :=
  (Registered.orb wideOrb).sessionAfter "INFY" wideHours

/-- One share may lose 75, more than a quarter of a percent of 3500. -/
theorem one_share_exceeds_loss :
    ¬ ∀ (r : Registered) (e : Dispatch) (x : Session r.Daily r.Rolling) (signal : Signal),
      Outcome.signal (r.strategy.onBar e x).2 = some signal →
        ∃ d confidence, r.SizedBy e x signal d confidence ∧
          (0 < e.bar.closePrice → 0 < d.stop → 0 < r.nav →
            WithinBudget e.bar.closePrice d.stop r.nav confidence signal.quantity) := by
  intro h
  have hbought : ∃ signal ∈ Outcome.signal (wideOrb.onBar wideBreakout wideSession).2,
      signal.quantity = 1 ∧ signal.direction = .buy := by
    decide +kernel
  obtain ⟨signal, hsignal, hquantity, hdirection⟩ := hbought
  obtain ⟨d, confidence, hsized, hwithin⟩ :=
    h (.orb wideOrb) wideBreakout wideSession signal hsignal
  have hstop : wideOrb.distances wideBreakout wideSession .buy = some ⟨75, 150⟩ := by
    decide +kernel
  have hdistances : wideOrb.distances wideBreakout wideSession signal.direction = some d :=
    hsized.distances
  rw [hdirection, hstop] at hdistances
  obtain rfl := Option.some.inj hdistances
  have hloss := (hwithin (by decide +kernel) (by norm_num) (by decide +kernel)).loss
  rw [hquantity] at hloss
  revert hloss
  decide +kernel

def breakoutBar : Dispatch := infyBar 0 571 104 100 103 3000

def breakoutSession : Session OrbDaily OrbRolling :=
  (Registered.orb infyOrb).sessionAfter "INFY" ((breakoutDay 0).take 16)

/-- The breakout of an ordinary day, sized. -/
theorem signals_budgeted_breakout :
    ∃ signal, Outcome.signal (infyOrb.onBar breakoutBar breakoutSession).2 = some signal ∧
      ∃ d confidence, (Registered.orb infyOrb).SizedBy breakoutBar breakoutSession signal d
        confidence ∧ Budgeted 103 d.stop infyOrb.nav confidence signal.quantity := by
  have hemitted : (Outcome.signal (infyOrb.onBar breakoutBar breakoutSession).2).isSome = true := by
    decide +kernel
  obtain ⟨signal, hsignal⟩ := Option.isSome_iff_exists.mp hemitted
  obtain ⟨d, confidence, hsized, hbudgeted, hfits⟩ :=
    signals_budgeted (.orb infyOrb) breakoutBar breakoutSession signal hsignal
  refine ⟨signal, hsignal, d, confidence, hsized, hbudgeted ?_⟩
  exact hfits.resolve_right fun ⟨_, hmomentum⟩ => Registered.noConfusion hmomentum

end QuantEmbrace.Strategies
