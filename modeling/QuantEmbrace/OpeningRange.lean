import QuantEmbrace.OrbStrategy
import Mathlib.Data.List.Basic

/-! The opening range of a day against the opening window: bars are stamped with the close of
their candle, and the range is decided at one exact minute. -/
namespace QuantEmbrace.Strategies
open Indicators Candles

/-- The minute of the day at which a candle opens, and the one its bar is stamped with. -/
def openMinute (c : CandleResult) : ℤ := istMin c.candleOpenTime
def stampMinute (c : CandleResult) : ℤ := istMin c.toBar.timestamp

/-- The one-minute candles of a symbol on one day, in order; any may be missing. -/
structure CandleDay where
  candles : List CandleResult
  minutes : ∀ c ∈ candles, c.interval = "minute" ∧ c.candleCloseTime = c.toCandleKey.closeTime
  in_order : candles.Pairwise fun a b => openMinute a < openMinute b

/-- A one-minute candle is stamped a minute after its open. -/
theorem stampMinute_eq {c : CandleResult}
    (h : c.interval = "minute" ∧ c.candleCloseTime = c.toCandleKey.closeTime) :
    stampMinute c = if openMinute c = 1439 then 0 else openMinute c + 1 := by
  have hminute : intervalMinutes c.interval = 1 := by rw [h.1]; rfl
  have hclose : c.toBar.timestamp = c.candleOpenTime + 60 := by
    change c.candleCloseTime = _
    rw [h.2, CandleKey.closeTime, hminute]
    norm_num
  have hnext : ⌊(c.candleOpenTime + 60 + 19800) / 60⌋ = ⌊(c.candleOpenTime + 19800) / 60⌋ + 1 := by
    rw [← Int.floor_add_one]
    congr 1
    ring
  rw [stampMinute, openMinute, istMin, istMin, hclose, hnext]
  split <;> omega

/-- Highest high and lowest low. -/
def highOf (cs : List CandleResult) : Option ℚ := (cs.map (·.high)).max?
def lowOf (cs : List CandleResult) : Option ℚ := (cs.map (·.low)).min?

theorem highOf_concat (cs : List CandleResult) (c : CandleResult) :
    highOf (cs ++ [c]) = some ((highOf cs).elim c.high fun high => max high c.high) := by
  cases cs with
  | nil => rfl
  | cons a cs => simp only [highOf, List.map_append, List.map_cons, List.cons_append,
      List.max?_cons', List.foldl_append, List.foldl_cons, List.map_nil, List.foldl_nil,
      Option.elim_some]

theorem lowOf_concat (cs : List CandleResult) (c : CandleResult) :
    lowOf (cs ++ [c]) = some ((lowOf cs).elim c.low fun low => min low c.low) := by
  cases cs with
  | nil => rfl
  | cons a cs => simp only [lowOf, List.map_append, List.map_cons, List.cons_append,
      List.min?_cons', List.foldl_append, List.foldl_cons, List.map_nil, List.foldl_nil,
      Option.elim_some]

theorem highOf_eq_none {cs : List CandleResult} : highOf cs = none ↔ cs = [] := by
  simp [highOf]

theorem lowOf_eq_none {cs : List CandleResult} : lowOf cs = none ↔ cs = [] := by
  simp [lowOf]

namespace ORBStrategy
variable (p : ORBStrategy)

/-- The candle opens in `[09:15, 09:15 + or_end_minutes)`. -/
def InWindow (c : CandleResult) : Prop :=
  marketOpenIstMin ≤ openMinute c ∧ openMinute c < p.orEndIstMin

def AfterWindow (c : CandleResult) : Prop := p.orEndIstMin ≤ openMinute c

instance (c : CandleResult) : Decidable (p.InWindow c) := instDecidableAnd
instance (c : CandleResult) : Decidable (p.AfterWindow c) := Int.decLe _ _

/-- The candle's bar, at the time of its close. -/
def dispatched (c : CandleResult) : Dispatch := ⟨c.toBar, c.candleCloseTime⟩

/-- The state after the first candles of a day; earlier days have left prices, and no range. -/
def afterCandles (rolling : OrbRolling) (cs : List CandleResult) :
    Session OrbDaily OrbRolling :=
  p.strategy.session (cs.map dispatched) ⟨{}, rolling⟩

/-- The prices seen after the first candles. -/
def rollingAfter (rolling : OrbRolling) (cs : List CandleResult) : OrbRolling :=
  cs.foldl (fun r c => p.append c.toBar r) rolling

/-- What is decided about the range at a candle. -/
def decided (c : CandleResult) (x : Session OrbDaily OrbRolling) : Option OrDecision :=
  match p.phase (stampMinute c) x.daily.confirmed with
  | .deciding => p.decision (p.append c.toBar x.rolling) x.daily
  | _ => none

/-- A confirmed range is that of the candles which opened in the window. -/
def RangeOfWindow (rolling : OrbRolling) (cs : List CandleResult) : Prop :=
  ∀ seen, seen <+: cs → (p.afterCandles rolling seen).daily.confirmed = true →
    (p.afterCandles rolling seen).daily.orHigh = highOf (seen.filter p.InWindow) ∧
      (p.afterCandles rolling seen).daily.orLow = lowOf (seen.filter p.InWindow)

/-- A range there is gets confirmed or rejected at the first candle after the window. -/
def DecidedAfterWindow (rolling : OrbRolling) (cs : List CandleResult) : Prop :=
  ∀ before c rest, cs = before ++ c :: rest → p.AfterWindow c →
    (∀ b ∈ before, ¬ p.AfterWindow b) → (∃ b ∈ before, p.InWindow b) →
    p.decided c (p.afterCandles rolling before) ≠ none

variable {p} {rolling : OrbRolling} {cs before rest : List CandleResult} {c : CandleResult}

theorem afterCandles_concat :
    p.afterCandles rolling (cs ++ [c]) =
      (p.onBar (dispatched c) (p.afterCandles rolling cs)).1 := by
  rw [afterCandles, List.map_append, Strategy.session_append]
  rfl

theorem afterCandles_rolling :
    (p.afterCandles rolling cs).rolling = p.rollingAfter rolling cs := by
  induction cs using List.reverseRecOn with
  | nil => rfl
  | append_singleton cs c ih =>
    rw [afterCandles_concat, onBar_rolling, ih, rollingAfter, rollingAfter, List.foldl_append]
    rfl

theorem extend_range {d : OrbDaily} (bar : Bar) (h : d.orHigh = none ↔ d.orLow = none) :
    (d.extend bar).orHigh = some (d.orHigh.elim bar.high fun high => max high bar.high) ∧
      (d.extend bar).orLow = some (d.orLow.elim bar.low fun low => min low bar.low) := by
  rw [OrbDaily.extend]
  cases hhigh : d.orHigh <;> cases hlow : d.orLow <;> simp_all

/-- The range is that of the candles stamped in the window. -/
theorem range_stamped :
    (p.afterCandles rolling cs).daily.orHigh = highOf (cs.filter fun c => p.Forms c.toBar) ∧
      (p.afterCandles rolling cs).daily.orLow = lowOf (cs.filter fun c => p.Forms c.toBar) := by
  induction cs using List.reverseRecOn with
  | nil => exact ⟨rfl, rfl⟩
  | append_singleton cs c ih =>
    rw [afterCandles_concat, List.filter_append]
    by_cases hforms : p.Forms c.toBar
    · have hboth : (p.afterCandles rolling cs).daily.orHigh = none ↔
          (p.afterCandles rolling cs).daily.orLow = none := by
        rw [ih.1, ih.2, highOf_eq_none, lowOf_eq_none]
      have hextend := extend_range c.toBar hboth
      rw [onBar_forms (e := dispatched c) hforms, List.filter_singleton]
      simp only [hforms, decide_true, cond_true]
      rw [highOf_concat, lowOf_concat, ← ih.1, ← ih.2]
      exact hextend
    · have hout := onBar_outside (e := dispatched c) (x := p.afterCandles rolling cs) hforms
      rw [List.filter_singleton]
      simp only [hforms, decide_false, cond_false, List.append_nil]
      exact ⟨hout.1.trans ih.1, hout.2.1.trans ih.2⟩

/-- Without a candle stamped at the end of the window nothing is confirmed. -/
theorem unconfirmed_of_no_stamp (h : ∀ c ∈ cs, stampMinute c ≠ p.orEndIstMin) :
    (p.afterCandles rolling cs).daily.confirmed = false := by
  induction cs using List.reverseRecOn with
  | nil => rfl
  | append_singleton cs c ih =>
    have hconf := ih fun b hb => h b (List.mem_append_left _ hb)
    have hstamp : istMin (dispatched c).bar.timestamp ≠ p.orEndIstMin := h c (by simp)
    rw [afterCandles_concat]
    by_cases hforms : p.Forms c.toBar
    · rw [onBar_forms (e := dispatched c) hforms, OrbDaily.extend]
      split <;> rfl
    · rw [onBar_unconfirmed (e := dispatched c) hforms hconf, if_neg fun hdec => hstamp hdec.1]
      exact hconf

theorem decision_confirmed_iff {r : OrbRolling} {d : OrbDaily} :
    p.decision r d = some .rangeConfirmed ↔
      ∃ high low, d.orHigh = some high ∧ d.orLow = some low ∧ p.WideEnough r (high - low) := by
  rw [decision]
  cases hhigh : d.orHigh <;> cases hlow : d.orLow <;> simp

/-- The candles of the day around the one that is stamped at the end of the window. -/
structure Around (p : ORBStrategy) (before : List CandleResult) (c : CandleResult)
    (rest : List CandleResult) : Prop where
  not_forms : ¬ p.Forms c.toBar
  before_stamp : ∀ b ∈ before, stampMinute b ≠ p.orEndIstMin
  rest_stamp : ∀ b ∈ rest, stampMinute b ≠ p.orEndIstMin
  rest_forms : ∀ b ∈ rest, ¬ p.Forms b.toBar
  rest_window : ∀ b ∈ rest, ¬ p.InWindow b

theorem around_of_stamp (d : CandleDay) (hd : d.candles = before ++ c :: rest)
    (hc : stampMinute c = p.orEndIstMin) : Around p before c rest := by
  have hend : 0 < p.orEndIstMin := by
    rw [orEndIstMin, marketOpenIstMin]
    omega
  have horder := d.in_order
  rw [hd, List.pairwise_append, List.pairwise_cons] at horder
  obtain ⟨-, ⟨hrest, -⟩, hbefore⟩ := horder
  have hstamp : ∀ b ∈ d.candles,
      stampMinute b = if openMinute b = 1439 then 0 else openMinute b + 1 :=
    fun b hb => stampMinute_eq (d.minutes b hb)
  have hcopen : openMinute c + 1 = p.orEndIstMin := by
    have hcs := hstamp c (by rw [hd]; simp)
    rw [hc] at hcs
    split at hcs <;> omega
  have hlater : ∀ b ∈ rest, stampMinute b = 0 ∨ p.orEndIstMin < stampMinute b := by
    intro b hb
    have hbs := hstamp b (by rw [hd]; simp [hb])
    have hlt := hrest b hb
    split at hbs <;> omega
  refine ⟨fun hforms => ?_, fun b hb => ?_, fun b hb => ?_, fun b hb hforms => ?_,
    fun b hb hwin => ?_⟩
  · exact absurd hc (ne_of_lt hforms.2)
  · have hbs := hstamp b (by rw [hd]; simp [hb])
    have hlt := hbefore b hb c (by simp)
    split at hbs <;> omega
  · obtain hzero | hlate := hlater b hb <;> omega
  · have hopen : marketOpenIstMin ≤ stampMinute b := hforms.1
    have hclose : stampMinute b < p.orEndIstMin := hforms.2
    rw [marketOpenIstMin] at hopen
    obtain hzero | hlate := hlater b hb <;> omega
  · have hlt := hrest b hb
    have hclose := hwin.2
    omega

/-- The candle stamped at the end of the window confirms the range, or none does. -/
theorem confirmed_iff (h : Around p before c rest) (hc : stampMinute c = p.orEndIstMin) :
    (p.afterCandles rolling (before ++ c :: rest)).daily.confirmed = true ↔
      ∃ high low, highOf (before.filter fun c => p.Forms c.toBar) = some high ∧
        lowOf (before.filter fun c => p.Forms c.toBar) = some low ∧
        p.WideEnough (p.rollingAfter rolling (before ++ [c])) (high - low) := by
  induction rest using List.reverseRecOn with
  | nil =>
    have hconf : (p.afterCandles rolling before).daily.confirmed = false :=
      unconfirmed_of_no_stamp h.before_stamp
    have hnext : p.append c.toBar (p.afterCandles rolling before).rolling =
        p.rollingAfter rolling (before ++ [c]) := by
      rw [afterCandles_rolling, rollingAfter, rollingAfter, List.foldl_append]
      rfl
    rw [afterCandles_concat, onBar_unconfirmed (e := dispatched c) h.not_forms hconf,
      ← range_stamped.1, ← range_stamped.2, ← hnext, ← decision_confirmed_iff]
    split
    · next hdec => exact iff_of_true rfl hdec.2
    · next hdec =>
      exact iff_of_false (by simp [hconf]) fun hconfirm => hdec ⟨hc, hconfirm⟩
  | append_singleton rest b ih =>
    have hmem : ∀ a ∈ rest, a ∈ rest ++ [b] := fun a ha => List.mem_append_left _ ha
    have hprev := ih ⟨h.not_forms, h.before_stamp, fun a ha => h.rest_stamp a (hmem a ha),
      fun a ha => h.rest_forms a (hmem a ha), fun a ha => h.rest_window a (hmem a ha)⟩
    have hsplit : before ++ c :: (rest ++ [b]) = (before ++ c :: rest) ++ [b] := by simp
    have hforms := h.rest_forms b (by simp)
    have hstamp : istMin (dispatched b).bar.timestamp ≠ p.orEndIstMin := h.rest_stamp b (by simp)
    rw [← hprev, hsplit, afterCandles_concat]
    constructor
    · intro htrue
      by_contra hfalse
      have hconf := Bool.not_eq_true _ ▸ hfalse
      rw [onBar_unconfirmed (e := dispatched b) hforms hconf, if_neg fun hdec => hstamp hdec.1]
        at htrue
      exact hfalse htrue
    · exact (onBar_outside (e := dispatched b) hforms).2.2

variable (p rolling cs) in
/-- Where the candle that is stamped at the end of the window confirms a range, the candles that
opened in the window have the same extremes as those stamped in it. -/
def SameExtremes : Prop :=
  ∀ before c rest, cs = before ++ c :: rest → stampMinute c = p.orEndIstMin →
    ∀ high low, highOf (before.filter fun c => p.Forms c.toBar) = some high →
      lowOf (before.filter fun c => p.Forms c.toBar) = some low →
      p.WideEnough (p.rollingAfter rolling (before ++ [c])) (high - low) →
      highOf ((before ++ [c]).filter p.InWindow) = some high ∧
        lowOf ((before ++ [c]).filter p.InWindow) = some low

theorem filter_rest_nil {P : CandleResult → Prop} [DecidablePred P] (h : ∀ b ∈ rest, ¬ P b) :
    rest.filter P = [] :=
  List.filter_eq_nil_iff.mpr fun b hb => by simpa using h b hb

theorem rangeOfWindow_iff (d : CandleDay) :
    p.RangeOfWindow rolling d.candles ↔ p.SameExtremes rolling d.candles := by
  constructor
  · intro hrange before c rest hd hc high low hhigh hlow hwide
    have haround := around_of_stamp d hd hc
    have hstop : Around p before c [] :=
      ⟨haround.not_forms, haround.before_stamp, by simp, by simp, by simp⟩
    have hconf := (confirmed_iff hstop hc).mpr ⟨high, low, hhigh, hlow, hwide⟩
    have hprefix : before ++ [c] <+: d.candles := ⟨rest, by rw [hd]; simp⟩
    have hwindow := hrange _ hprefix hconf
    have hstamped := @range_stamped p rolling (before ++ [c])
    have hfilter : (before ++ [c]).filter (fun c => p.Forms c.toBar) =
        before.filter fun c => p.Forms c.toBar := by
      rw [List.filter_append, List.filter_singleton]
      simp [haround.not_forms]
    rw [hfilter, hhigh, hlow] at hstamped
    exact ⟨hwindow.1.symm.trans hstamped.1, hwindow.2.symm.trans hstamped.2⟩
  · intro hsame seen hseen hconf
    have hstamp : ∃ c ∈ seen, stampMinute c = p.orEndIstMin := by
      by_contra hnone
      have hunconf := @unconfirmed_of_no_stamp p rolling seen
        fun c hc hend => hnone ⟨c, hc, hend⟩
      exact Bool.false_ne_true (hunconf.symm.trans hconf)
    obtain ⟨c, hmem, hc⟩ := hstamp
    obtain ⟨before, rest, rfl⟩ := List.append_of_mem hmem
    obtain ⟨later, hlater⟩ := hseen
    have hd : d.candles = before ++ c :: (rest ++ later) := by rw [← hlater]; simp
    have hall := around_of_stamp d hd hc
    have haround : Around p before c rest :=
      ⟨hall.not_forms, hall.before_stamp,
        fun b hb => hall.rest_stamp b (List.mem_append_left _ hb),
        fun b hb => hall.rest_forms b (List.mem_append_left _ hb),
        fun b hb => hall.rest_window b (List.mem_append_left _ hb)⟩
    obtain ⟨high, low, hhigh, hlow, hwide⟩ := (confirmed_iff haround hc).mp hconf
    have hextremes := hsame before c _ hd hc high low hhigh hlow hwide
    have hstamped := @range_stamped p rolling (before ++ c :: rest)
    have hforms : (before ++ c :: rest).filter (fun c => p.Forms c.toBar) =
        before.filter fun c => p.Forms c.toBar := by
      rw [List.filter_append, List.filter_cons_of_neg (by simpa using haround.not_forms),
        filter_rest_nil haround.rest_forms, List.append_nil]
    have hwindow : (before ++ c :: rest).filter p.InWindow =
        (before ++ [c]).filter p.InWindow := by
      rw [List.append_cons, List.filter_append, filter_rest_nil haround.rest_window,
        List.append_nil]
    rw [hforms, hhigh, hlow] at hstamped
    rw [hwindow]
    exact ⟨hstamped.1.trans hextremes.1.symm, hstamped.2.trans hextremes.2.symm⟩

theorem phase_ne_deciding {ist : ℤ} {confirmed : Bool} (h : ist ≠ p.orEndIstMin) :
    p.phase ist confirmed ≠ .deciding := by
  rw [phase]
  simp only [h, false_and, if_false]
  split
  · exact OrbPhase.noConfusion
  · split <;> exact OrbPhase.noConfusion

/-- A candle that opens after the window is stamped past its end, where nothing is decided. -/
theorem decided_afterWindow (x : Session OrbDaily OrbRolling)
    (hminute : c.interval = "minute" ∧ c.candleCloseTime = c.toCandleKey.closeTime)
    (hafter : p.AfterWindow c) : p.decided c x = none := by
  have hend : 0 < p.orEndIstMin := by
    rw [orEndIstMin, marketOpenIstMin]
    omega
  have hafter : p.orEndIstMin ≤ openMinute c := hafter
  have hstamp : stampMinute c ≠ p.orEndIstMin := by
    rw [stampMinute_eq hminute]
    split <;> omega
  rw [decided]
  split
  · next hphase => exact absurd hphase (phase_ne_deciding hstamp)
  · rfl

theorem decidedAfterWindow_iff (d : CandleDay) :
    p.DecidedAfterWindow rolling d.candles ↔
      ((∃ c ∈ d.candles, p.InWindow c) → ∀ c ∈ d.candles, ¬ p.AfterWindow c) := by
  constructor
  · rintro hdecided ⟨b, hb, hwin⟩ a ha hafter
    have hfirst : ∃ c, d.candles.find? (fun c => p.AfterWindow c) = some c :=
      Option.isSome_iff_exists.mp (List.find?_isSome.mpr ⟨a, ha, by simpa using hafter⟩)
    obtain ⟨c, hc⟩ := hfirst
    obtain ⟨hcafter, before, rest, hd, hbefore⟩ := List.find?_eq_some_iff_append.mp hc
    have hcafter : p.AfterWindow c := by simpa using hcafter
    have horder := d.in_order
    rw [hd, List.pairwise_append, List.pairwise_cons] at horder
    have hbmem : b ∈ before := by
      have hle : openMinute b < openMinute c := lt_of_lt_of_le hwin.2 hcafter
      rw [hd] at hb
      obtain hb | hb := List.mem_append.mp hb
      · exact hb
      · obtain rfl | hb := List.mem_cons.mp hb
        · exact absurd hle (lt_irrefl _)
        · exact absurd (horder.2.1.1 b hb) (not_lt.mpr hle.le)
    refine hdecided before c rest hd hcafter (fun b hb => by simpa using hbefore b hb)
      ⟨b, hbmem, hwin⟩ (decided_afterWindow _ (d.minutes c ?_) hcafter)
    rw [hd]
    simp
  · intro hnone before c rest hd hafter _ ⟨b, hb, hwin⟩
    have hmem : ∀ a, a ∈ before ∨ a = c → a ∈ d.candles := by
      intro a ha
      rw [hd]
      obtain ha | rfl := ha <;> simp [*]
    exact absurd hafter (hnone ⟨b, hmem b (.inl hb), hwin⟩ c (hmem c (.inr rfl)))

end ORBStrategy

/-- The opening range is that of the opening window, and is decided at the first candle after it,
exactly on days with no candle after a window that has any, and with equal extremes. -/
theorem opening_range_iff (p : ORBStrategy) (rolling : OrbRolling) (d : CandleDay) :
    p.RangeOfWindow rolling d.candles ∧ p.DecidedAfterWindow rolling d.candles ↔
      p.SameExtremes rolling d.candles ∧
        ((∃ c ∈ d.candles, p.InWindow c) → ∀ c ∈ d.candles, ¬ p.AfterWindow c) := by
  rw [ORBStrategy.rangeOfWindow_iff, ORBStrategy.decidedAfterWindow_iff]

/-- The candle of INFY that opens at a minute of the first day. -/
def infyCandle (minute : ℕ) (high low close : ℚ) : CandleResult where
  market := "NSE"
  instrument := "INFY"
  interval := "minute"
  candleOpenTime := minute * 60 - 19800
  candleCloseTime := minute * 60 - 19800 + 60
  openPrice := close
  high := high
  low := low
  closePrice := close
  volume := 1000
  dataQuality := "NORMAL"

/-- The candles of a day on which the one that opens at 09:29 is missing. -/
def gapCandles : List CandleResult :=
  [infyCandle 556 101 99 100, infyCandle 570 101 99 100, infyCandle 571 110 99 109]

theorem gapCandles_minutes : ∀ c ∈ gapCandles,
    c.interval = "minute" ∧ c.candleCloseTime = c.toCandleKey.closeTime := by
  simp [gapCandles, infyCandle, CandleKey.closeTime, intervalMinutes]

theorem gapCandles_in_order :
    gapCandles.Pairwise (fun a b => openMinute a < openMinute b) := by
  decide +kernel

def gapDay : CandleDay := ⟨gapCandles, gapCandles_minutes, gapCandles_in_order⟩

/-- The range of the day is never decided, and no breakout can follow. -/
theorem gap_never_decided :
    ¬ ∀ (p : ORBStrategy) (rolling : OrbRolling) (d : CandleDay),
      p.RangeOfWindow rolling d.candles ∧ p.DecidedAfterWindow rolling d.candles := by
  intro h
  refine (h {} {} gapDay).2 [infyCandle 556 101 99 100] (infyCandle 570 101 99 100)
    [infyCandle 571 110 99 109] rfl ?_ ?_ ?_ ?_
  · decide +kernel
  · decide +kernel
  · exact ⟨_, List.mem_singleton_self _, by decide +kernel⟩
  · decide +kernel

/-- With the candles that open at 09:14 and 09:29 the confirmed high is that of the first, which
is before the open. -/
example : (({} : ORBStrategy).afterCandles {} [infyCandle 554 110 99 100, infyCandle 556 101 99 100,
    infyCandle 569 101 99 100]).daily.orHigh = some 110 := by
  decide +kernel

end QuantEmbrace.Strategies
