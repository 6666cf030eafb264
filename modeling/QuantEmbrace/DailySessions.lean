import QuantEmbrace.RegisteredStrategies
import QuantEmbrace.Lib.GuardedRun

/-! What a day of trading starts with: the daily-scoped state of each candle strategy after the
bars of earlier days, in a service that never calls `reset_daily`. -/
namespace QuantEmbrace.Strategies
open GuardedRun Indicators Candles

section Clear
variable {δ ρ : Type} {s : Strategy δ ρ}

/-- The daily state stays clear exactly as long as no bar spoils it, where a state that is
spoilt stays so. -/
theorem Strategy.clear_iff (Spoilt : δ → Prop) (spoils : Session δ ρ → Dispatch → Prop)
    (hfresh : ¬ Spoilt s.fresh.daily)
    (hkeep : ∀ x e, x.daily = s.fresh.daily → ¬ spoils x e →
      (s.onBar e x).1.daily = s.fresh.daily)
    (hspoil : ∀ x e, x.daily = s.fresh.daily → spoils x e → Spoilt (s.onBar e x).1.daily)
    (hstay : ∀ x e, Spoilt x.daily → Spoilt (s.onBar e x).1.daily)
    (bars : List Dispatch) (x : Session δ ρ) (hx : x.daily = s.fresh.daily) :
    (s.session bars x).daily = s.fresh.daily ↔
      StepsMeet (fun x e => (s.onBar e x).1) (fun x e => ¬ spoils x e) x bars := by
  induction bars generalizing x with
  | nil => exact iff_of_true hx trivial
  | cons e bars ih =>
    rw [s.session_cons, StepsMeet]
    by_cases hbad : spoils x e
    · refine iff_of_false (fun hclear => hfresh (hclear ▸ ?_)) fun h => h.1 hbad
      have hrun : AlongRun (fun y e => (s.onBar e y).1) (fun y => Spoilt y.daily)
          (s.onBar e x).1 bars :=
        .of_keep hstay (hspoil x e hx hbad) bars
      exact hrun.last
    · rw [ih _ (hkeep x e hx hbad)]
      exact (and_iff_right hbad).symm

/-- The same for a guard that does not look at the state. -/
theorem Strategy.clear_iff_forall (Spoilt : δ → Prop) (spoils : Dispatch → Prop)
    (hfresh : ¬ Spoilt s.fresh.daily)
    (hkeep : ∀ x e, x.daily = s.fresh.daily → ¬ spoils e →
      (s.onBar e x).1.daily = s.fresh.daily)
    (hspoil : ∀ x e, x.daily = s.fresh.daily → spoils e → Spoilt (s.onBar e x).1.daily)
    (hstay : ∀ x e, Spoilt x.daily → Spoilt (s.onBar e x).1.daily)
    (bars : List Dispatch) :
    (s.session bars s.fresh).daily = s.fresh.daily ↔ ∀ e ∈ bars, ¬ spoils e := by
  have hclear := Strategy.clear_iff Spoilt (fun _ => spoils) hfresh hkeep hspoil hstay bars
    s.fresh rfl
  rw [hclear, stepsMeet_iff_forall]

end Clear

namespace ORBStrategy
variable {p : ORBStrategy}

theorem extend_orHigh (d : OrbDaily) (bar : Bar) : (d.extend bar).orHigh.isSome = true := by
  rw [OrbDaily.extend]
  split <;> rfl

/-- A bar widens equal ranges alike. -/
theorem onBar_range {e : Dispatch} {x y : Session OrbDaily OrbRolling}
    (hhigh : x.daily.orHigh = y.daily.orHigh) (hlow : x.daily.orLow = y.daily.orLow) :
    (p.onBar e x).1.daily.orHigh = (p.onBar e y).1.daily.orHigh ∧
      (p.onBar e x).1.daily.orLow = (p.onBar e y).1.daily.orLow := by
  by_cases hforms : p.Forms e.bar
  · rw [onBar_forms hforms, onBar_forms hforms, OrbDaily.extend, OrbDaily.extend, hhigh, hlow]
    split <;> exact ⟨rfl, rfl⟩
  · have hx := onBar_outside (x := x) hforms
    have hy := onBar_outside (x := y) hforms
    exact ⟨hx.1.trans (hhigh.trans hy.1.symm), hx.2.1.trans (hlow.trans hy.2.1.symm)⟩

/-- The range is clear exactly when no bar was stamped in its window. -/
theorem clear_iff (bars : List Dispatch) :
    (p.strategy.session bars p.strategy.fresh).daily = p.strategy.fresh.daily ↔
      ∀ e ∈ bars, ¬ p.Forms e.bar := by
  refine Strategy.clear_iff_forall (fun d => d.orHigh.isSome = true) (fun e => p.Forms e.bar)
    (by simp [strategy]) ?_ ?_ ?_ bars
  · intro x e hx hforms
    have hx : x.daily = {} := hx
    have hnone : p.decision (p.append e.bar x.rolling) x.daily = none := by rw [hx]; rfl
    have hstep := onBar_unconfirmed (x := x) hforms (by rw [hx])
    simp only [hnone, reduceCtorEq, and_false, if_false] at hstep
    exact hstep.trans hx
  · intro x e _ hforms
    have hstep := onBar_forms (x := x) hforms
    change (p.onBar e x).1.daily.orHigh.isSome = true
    rw [hstep]
    exact extend_orHigh _ _
  · intro x e hsome
    change (p.onBar e x).1.daily.orHigh.isSome = true
    by_cases hforms : p.Forms e.bar
    · rw [onBar_forms hforms]
      exact extend_orHigh _ _
    · rw [(onBar_outside hforms).1]
      exact hsome

end ORBStrategy

namespace PreCloseMomentumStrategy
variable {p : PreCloseMomentumStrategy} {e : Dispatch}
  {x : Session PreCloseDaily PreCloseRolling}

theorem onBar_vwap : (p.onBar e x).1.daily.vwap = accumulate e.bar x.daily.vwap := by
  rw [onBar]
  split
  · rfl
  · split <;> rfl

/-- A bar before the open does nothing to the daily state. -/
theorem onBar_early (h : istMin e.bar.timestamp < istMarketOpen) :
    (p.onBar e x).1.daily = x.daily := by
  have hhours : ¬ InHours e.bar := fun hin => by
    have hopen := hin.1
    simp only [istMarketOpen] at h
    omega
  rw [onBar, if_pos (.inl hhours), accumulate, if_neg (not_le.mpr h)]

/-- The lists are clear exactly when every bar came before the open. -/
theorem clear_iff (bars : List Dispatch) :
    (p.strategy.session bars p.strategy.fresh).daily = p.strategy.fresh.daily ↔
      ∀ e ∈ bars, istMin e.bar.timestamp < istMarketOpen := by
  have hclear := Strategy.clear_iff_forall (s := p.strategy) (fun d => d.vwap.closes ≠ [])
    (fun e => istMarketOpen ≤ istMin e.bar.timestamp) (by simp [strategy]) ?_ ?_ ?_ bars
  · simpa only [not_le] using hclear
  · intro x e hx hearly
    exact (onBar_early (not_le.mp hearly)).trans hx
  · intro x e _ hlate
    change (p.onBar e x).1.daily.vwap.closes ≠ []
    rw [onBar_vwap, accumulate, if_pos hlate]
    simp [VwapLists.append]
  · intro x e hne
    change (p.onBar e x).1.daily.vwap.closes ≠ []
    rw [onBar_vwap, accumulate]
    split
    · simp [VwapLists.append]
    · exact hne

end PreCloseMomentumStrategy

namespace IntradayTrend15mStrategy
variable {p : IntradayTrend15mStrategy} {e : Dispatch} {x : Session TrendDaily PriceBuffers}

theorem onBar_barCount : (p.onBar e x).1.daily.barCount = x.daily.barCount + 1 := by
  rw [onBar]
  split
  · rfl
  · split <;> rfl

/-- Every bar is counted. -/
theorem session_barCount (bars : List Dispatch) (x : Session TrendDaily PriceBuffers) :
    (p.strategy.session bars x).daily.barCount = x.daily.barCount + bars.length := by
  induction bars generalizing x with
  | nil => rfl
  | cons e bars ih =>
    have hstep : (p.strategy.onBar e x).1.daily.barCount = x.daily.barCount + 1 := onBar_barCount
    rw [Strategy.session_cons, ih, hstep, List.length_cons]
    omega

theorem clear_iff (bars : List Dispatch) :
    (p.strategy.session bars p.strategy.fresh).daily = p.strategy.fresh.daily ↔ bars = [] := by
  constructor
  · intro hclear
    have hcount := congrArg TrendDaily.barCount hclear
    rw [session_barCount] at hcount
    exact List.length_eq_zero_iff.mp (Nat.add_left_cancel hcount)
  · rintro rfl
    rfl

end IntradayTrend15mStrategy

namespace VWAPReversionStrategy
variable {p : VWAPReversionStrategy} {sqrt : ℚ → Except PyError ℚ} {e : Dispatch}
  {x : Session VwapLists VwapRolling}

theorem onBar_daily : (p.onBar sqrt e x).1.daily = accumulate e.bar x.daily := by
  rw [onBar]
  split
  · rfl
  · split <;> rfl

/-- The lists are clear exactly when the last bar came before the open. -/
theorem clear_iff (bars : List Dispatch) :
    ((p.strategy sqrt).session bars (p.strategy sqrt).fresh).daily =
        (p.strategy sqrt).fresh.daily ↔
      ∀ e, bars.getLast? = some e → istMin e.bar.timestamp < istMarketOpen := by
  obtain rfl | ⟨before, e, rfl⟩ := List.eq_nil_or_concat bars
  · exact iff_of_true rfl (by simp)
  rw [List.concat_eq_append, Strategy.session_append, Strategy.session_cons,
    Strategy.session_nil, List.getLast?_concat]
  have hstep : ((p.strategy sqrt).onBar e
      ((p.strategy sqrt).session before (p.strategy sqrt).fresh)).1.daily =
      accumulate e.bar ((p.strategy sqrt).session before (p.strategy sqrt).fresh).daily :=
    onBar_daily
  simp only [Option.some.injEq, forall_eq']
  rw [hstep, accumulate]
  by_cases hearly : istMin e.bar.timestamp < istMarketOpen
  · rw [if_pos hearly]
    exact iff_of_true rfl hearly
  · rw [if_neg hearly]
    refine iff_of_false (fun hclear => ?_) hearly
    have hcloses := congrArg VwapLists.closes hclear
    simp [VwapLists.append, strategy] at hcloses

end VWAPReversionStrategy

namespace Scalp1mStrategy
variable (p : Scalp1mStrategy)

/-- The bar adds to the count of its side: it passes the filters below the daily cap. -/
def Counts (x : Session SignalCount ScalpRolling) (e : Dispatch) : Prop :=
  ∃ direction signal, p.candidate e (p.append e.bar x.rolling) = some (direction, .ok signal) ∧
    x.daily.get direction < p.maxSig

variable {p} {e : Dispatch} {x : Session SignalCount ScalpRolling}

theorem onBar_counts (h : p.Counts x e) :
    ∃ direction, (p.onBar e x).1.daily = x.daily.increment direction := by
  obtain ⟨direction, signal, hcand, hcap⟩ := h
  refine ⟨direction, ?_⟩
  simp only [onBar, hcand, if_neg (not_le.mpr hcap)]

theorem onBar_uncounted (h : ¬ p.Counts x e) : (p.onBar e x).1.daily = x.daily := by
  cases hcand : p.candidate e (p.append e.bar x.rolling) with
  | none => simp only [onBar, hcand]
  | some c =>
    obtain ⟨direction, outcome⟩ := c
    simp only [onBar, hcand]
    split
    · rfl
    · next hcap =>
      cases outcome with
      | error raised => rfl
      | ok signal => exact absurd ⟨direction, signal, hcand, not_le.mp hcap⟩ h

theorem increment_pos (c : SignalCount) (direction : OrderSide) :
    0 < (c.increment direction).buy + (c.increment direction).sell := by
  cases direction <;> simp [SignalCount.increment]

theorem clear_iff (bars : List Dispatch) :
    (p.strategy.session bars p.strategy.fresh).daily = p.strategy.fresh.daily ↔
      StepsMeet (fun x e => (p.onBar e x).1) (fun x e => ¬ p.Counts x e) p.strategy.fresh bars := by
  refine Strategy.clear_iff (s := p.strategy) (fun c => 0 < c.buy + c.sell) p.Counts
    (by simp [strategy]) ?_ ?_ ?_ bars _ rfl
  · intro x e hx hcounts
    exact (onBar_uncounted hcounts).trans hx
  · intro x e _ hcounts
    obtain ⟨direction, hdaily⟩ := onBar_counts hcounts
    change 0 < (p.onBar e x).1.daily.buy + (p.onBar e x).1.daily.sell
    rw [hdaily]
    exact increment_pos _ direction
  · intro x e hpos
    change 0 < (p.onBar e x).1.daily.buy + (p.onBar e x).1.daily.sell
    by_cases hcounts : p.Counts x e
    · obtain ⟨direction, hdaily⟩ := onBar_counts hcounts
      rw [hdaily]
      exact increment_pos _ direction
    · rw [onBar_uncounted hcounts]
      exact hpos

end Scalp1mStrategy

namespace Registered
variable (r : Registered)

/-- The bars of a symbol leave its daily state clear. -/
def LeavesClear (r : Registered) (bars : List Dispatch) : Prop :=
  match r with
  | momentum _ => True
  | orb p => ∀ e ∈ bars, ¬ p.Forms e.bar
  | scalp1m p =>
    StepsMeet (fun x e => (p.onBar e x).1) (fun x e => ¬ p.Counts x e) p.strategy.fresh bars
  | vwapReversion _ _ =>
    ∀ e, bars.getLast? = some e → istMin e.bar.timestamp < istMarketOpen
  | intradayTrend15m _ => bars = []
  | preCloseMomentum _ => ∀ e ∈ bars, istMin e.bar.timestamp < istMarketOpen

theorem session_clear_iff (bars : List Dispatch) :
    (r.strategy.session bars r.strategy.fresh).daily = r.strategy.fresh.daily ↔
      r.LeavesClear bars := by
  cases r with
  | momentum p => exact iff_of_true rfl trivial
  | orb p => exact ORBStrategy.clear_iff bars
  | scalp1m p => exact Scalp1mStrategy.clear_iff bars
  | vwapReversion p sqrt => exact VWAPReversionStrategy.clear_iff bars
  | intradayTrend15m p => exact IntradayTrend15mStrategy.clear_iff bars
  | preCloseMomentum p => exact PreCloseMomentumStrategy.clear_iff bars

/-- What is accumulated over a day from its bars alone: the opening range, the lists of the VWAP,
the count of bars. -/
def Accumulated : Registered → Type
  | momentum _ | scalp1m _ => Unit
  | orb _ => Option ℚ × Option ℚ
  | vwapReversion _ _ | preCloseMomentum _ => VwapLists
  | intradayTrend15m _ => ℕ

def accumulated : (r : Registered) → r.Daily → r.Accumulated
  | momentum _, _ | scalp1m _, _ => ()
  | orb _, d => (OrbDaily.orHigh d, OrbDaily.orLow d)
  | vwapReversion _ _, d => d
  | preCloseMomentum _, d => PreCloseDaily.vwap d
  | intradayTrend15m _, d => TrendDaily.barCount d

/-- The symbol's state after the bars that the candle loop has dispatched. -/
def sessionAfter (symbol : String) (es : List Dispatch) : Session r.Daily r.Rolling :=
  (r.strategy.feed es r.strategy.new).sessions symbol

/-- The daily state used on a day is that of a day that starts clear, with the price history it
has; and what accumulates is that of a service started on the day. -/
def SessionIndependent (symbol : String) (earlier today : List Dispatch) : Prop :=
  ∀ seen, seen <+: today →
    (r.sessionAfter symbol (earlier ++ seen)).daily =
        (r.strategy.session (r.strategy.barsOf symbol seen)
          ⟨r.strategy.fresh.daily, (r.sessionAfter symbol earlier).rolling⟩).daily ∧
      r.accumulated (r.sessionAfter symbol (earlier ++ seen)).daily =
        r.accumulated (r.sessionAfter symbol seen).daily

variable {r}

/-- One bar accumulates the same whatever the price history. -/
theorem accumulated_onBar {x y : Session r.Daily r.Rolling} (e : Dispatch)
    (h : r.accumulated x.daily = r.accumulated y.daily) :
    r.accumulated (r.strategy.onBar e x).1.daily =
      r.accumulated (r.strategy.onBar e y).1.daily := by
  cases r with
  | momentum p => rfl
  | scalp1m p => rfl
  | vwapReversion p sqrt =>
    have hx := @VWAPReversionStrategy.onBar_daily p sqrt e x
    have hy := @VWAPReversionStrategy.onBar_daily p sqrt e y
    exact hx.trans ((congrArg _ h).trans hy.symm)
  | intradayTrend15m p =>
    have hx := IntradayTrend15mStrategy.onBar_barCount (p := p) (e := e) (x := x)
    have hy := IntradayTrend15mStrategy.onBar_barCount (p := p) (e := e) (x := y)
    exact hx.trans ((congrArg Nat.succ h).trans hy.symm)
  | preCloseMomentum p =>
    have hx := PreCloseMomentumStrategy.onBar_vwap (p := p) (e := e) (x := x)
    have hy := PreCloseMomentumStrategy.onBar_vwap (p := p) (e := e) (x := y)
    exact hx.trans ((congrArg _ h).trans hy.symm)
  | orb p =>
    have hrange := Prod.ext_iff.mp h
    have hstep := ORBStrategy.onBar_range (p := p) (e := e) hrange.1 hrange.2
    exact Prod.ext hstep.1 hstep.2

theorem accumulated_session (bars : List Dispatch) {x y : Session r.Daily r.Rolling}
    (h : r.accumulated x.daily = r.accumulated y.daily) :
    r.accumulated (r.strategy.session bars x).daily =
      r.accumulated (r.strategy.session bars y).daily := by
  induction bars generalizing x y with
  | nil => exact h
  | cons e bars ih => exact ih (accumulated_onBar e h)

theorem sessionAfter_eq (symbol : String) (es : List Dispatch) :
    r.sessionAfter symbol es =
      r.strategy.session (r.strategy.barsOf symbol es) r.strategy.fresh :=
  Strategy.feed_sessions es r.strategy.new symbol

theorem sessionAfter_append (symbol : String) (earlier seen : List Dispatch) :
    r.sessionAfter symbol (earlier ++ seen) =
      r.strategy.session (r.strategy.barsOf symbol seen) (r.sessionAfter symbol earlier) := by
  rw [sessionAfter_eq, sessionAfter_eq, Strategy.barsOf_append, Strategy.session_append]

end Registered

/-- A day's sessions are independent of the earlier days exactly when these left the daily state
of the symbol clear: nothing else ever clears it. -/
theorem session_independent_iff (r : Registered) (symbol : String)
    (earlier today : List Dispatch) :
    r.SessionIndependent symbol earlier today ↔
      r.LeavesClear (r.strategy.barsOf symbol earlier) := by
  rw [← r.session_clear_iff, ← Registered.sessionAfter_eq]
  constructor
  · intro h
    have hstart := (h [] List.nil_prefix).1
    rwa [List.append_nil] at hstart
  · intro hclear seen _
    have hsession : r.sessionAfter symbol (earlier ++ seen) =
        r.strategy.session (r.strategy.barsOf symbol seen)
          ⟨r.strategy.fresh.daily, (r.sessionAfter symbol earlier).rolling⟩ := by
      rw [Registered.sessionAfter_append, ← hclear]
    refine ⟨congrArg Session.daily hsession, ?_⟩
    rw [hsession, Registered.sessionAfter_eq symbol seen]
    exact Registered.accumulated_session _ rfl

/-- A minute bar of INFY stamped `minute` minutes into the IST day number `day`. -/
def infyBar (day minute : ℕ) (high low close : ℚ) (volume : ℤ) : Dispatch where
  bar := {
    symbol := "INFY"
    market := "NSE"
    openPrice := close
    high := high
    low := low
    closePrice := close
    volume := volume
    timestamp := day * 86400 + minute * 60 - 19800
    interval := "minute" }
  now := day * 86400 + minute * 60 - 19800

/-- The strategy as the service registers it, for one symbol. -/
def infyOrb : ORBStrategy where
  name := "nse_orb_15m"
  symbols := ["INFY"]

/-- A range from 99 to 101, and a close at 103 after it on three times the volume. -/
def breakoutDay (day : ℕ) : List Dispatch :=
  (List.range 16).map (fun i => infyBar day (555 + i) 101 99 100 1000) ++
    [infyBar day 571 104 100 103 3000]

/-- What fired on the first day has fired for good. -/
theorem fired_flag_carried_over :
    ¬ ∀ (r : Registered) (symbol : String) (earlier today : List Dispatch),
      r.SessionIndependent symbol earlier today := by
  intro h
  have hstart := (h (.orb infyOrb) "INFY" (breakoutDay 0) (breakoutDay 1) [] List.nil_prefix).1
  have hfired : ((Registered.orb infyOrb).sessionAfter "INFY" (breakoutDay 0)).daily.fired =
      {.buy} := by decide +kernel
  have hclear := (congrArg OrbDaily.fired hstart).symm.trans hfired
  exact absurd hclear (by decide)

/-- The breakout is signalled on the first day, and not on the second. -/
example : (infyOrb.strategy.signals (breakoutDay 0 ++ breakoutDay 1)
    infyOrb.strategy.new).map (·.isSome) =
      List.replicate 16 false ++ [true] ++ List.replicate 17 false := by
  decide +kernel

end QuantEmbrace.Strategies
