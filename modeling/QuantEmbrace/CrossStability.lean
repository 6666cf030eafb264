import QuantEmbrace.ProtectiveLevels
import QuantEmbrace.Lib.Smoothing

/-! Crossovers of moving averages that are computed over a buffer which slides: the averages start
from a new seed at every bar, so that the previous bar may look different from before. -/
namespace QuantEmbrace.Strategies
open Indicators RiskCheck Candles GuardedRun Smoothing

section Series
variable {values : List ℚ} {period : ℕ} {c : ℚ}

/-- The last value of the series, where there are values enough. -/
def ema (values : List ℚ) (period : ℕ) : ℚ :=
  smooth (2 / (period + 1)) (values.drop period) (average (values.take period) period)

theorem lastValue_emaSeries (h : period ≤ values.length) :
    lastValue (emaSeries values period) = some (ema values period) := by
  rw [emaSeries, if_neg (not_lt.mpr h), lastValue, List.getLast?_append, List.getLast?_map,
    List.getLast?_scanl]
  rfl

theorem lastValue_nan (n : ℕ) : lastValue (List.replicate n none) = none := by
  rw [lastValue, List.getLast?_replicate]
  split <;> rfl

theorem lastValue_emaSeries_short (h : values.length < period) :
    lastValue (emaSeries values period) = none := by
  rw [emaSeries, if_pos h, lastValue_nan]

/-- A close more is a value more, once there is a seed. -/
theorem emaSeries_snoc (h : period ≤ values.length) :
    ∃ v, emaSeries (values ++ [c]) period = emaSeries values period ++ [some v] := by
  have hlong : ¬ (values ++ [c]).length < period := by
    rw [List.length_append]
    omega
  rw [emaSeries, if_neg hlong, emaSeries, if_neg (not_lt.mpr h)]
  dsimp only
  rw [List.take_append_of_le_length h, List.drop_append_of_le_length h, List.scanl_append,
    List.scanl_singleton, List.tail_cons, List.map_append, ← List.append_assoc]
  exact ⟨_, rfl⟩

/-- The value before the last is the last of the series without the last close. -/
theorem prevValue_emaSeries :
    prevValue (emaSeries (values ++ [c]) period) = lastValue (emaSeries values period) := by
  rw [prevValue]
  obtain hlong | hshort := le_or_gt period values.length
  · obtain ⟨v, hv⟩ := emaSeries_snoc (c := c) hlong
    rw [hv, List.dropLast_concat]
  · rw [lastValue_emaSeries_short hshort, emaSeries]
    split
    · rw [List.dropLast_replicate, lastValue_nan]
    · -- the seed is the only value
      have hall : (values ++ [c]).drop period = [] := by
        apply List.drop_eq_nil_of_le
        rw [List.length_append, List.length_singleton]
        omega
      dsimp only
      rw [hall, List.scanl_nil, List.map_singleton, List.dropLast_concat, lastValue_nan]

/-- What a series that starts one value later differs by at its end: the seeds, faded. -/
def reseed (values : List ℚ) (period : ℕ) : ℚ :=
  let k : ℚ := 2 / (period + 1)
  let seed := average (values.take period) period
  let next := values.getD period 0
  (1 - k) ^ (values.length - 1 - period) *
    (k * (seed - next) + (next - values.getD 0 0) / period)

theorem ema_tail (h : period < values.length) :
    ema values.tail period = ema values period + reseed values period := by
  cases values with
  | nil => exact absurd h (Nat.not_lt_zero _)
  | cons first values =>
    have hlt : period < (first :: values).length := h
    have hdrop : (first :: values).drop period =
        (first :: values)[period] :: values.drop period := List.drop_eq_getElem_cons hlt
    have hnext : (first :: values).getD period 0 = (first :: values)[period] :=
      (List.getElem_eq_getD 0).symm
    have hsum : (values.take period).sum =
        ((first :: values).take period).sum + ((first :: values)[period] - first) := by
      have htwice : ((first :: values).take (period + 1)).sum =
          ((first :: values).take period).sum + (first :: values)[period] :=
        List.sum_take_succ _ _ hlt
      rw [List.take_succ_cons, List.sum_cons] at htwice
      linarith
    have hseed : average (values.take period) period =
        average ((first :: values).take period) period +
          ((first :: values)[period] - first) / period := by
      rw [average, hsum, add_div, average]
    have hlength : (values.drop period).length = (first :: values).length - 1 - period := by
      rw [List.length_drop, List.length_cons, Nat.add_sub_cancel]
    have hfade := smooth_sub (2 / ((period : ℚ) + 1)) (values.drop period)
      (average (values.take period) period)
      ((first :: values)[period] * (2 / (period + 1)) +
        average ((first :: values).take period) period * (1 - 2 / (period + 1)))
    rw [hlength] at hfade
    rw [List.tail_cons, reseed, ema, ema, hdrop, smooth_cons, hnext]
    rw [eq_add_of_sub_eq' hfade, hseed, List.getD_cons_zero]
    ring

end Series

def Crossing.aboveNow (c : Crossing) : Bool := decide (c.slowNow < c.fastNow)

def Crossing.abovePrev (c : Crossing) : Bool := decide (c.slowPrev < c.fastPrev)

/-- The side of a cross to above, or from it. -/
def sideOf (above : Bool) : OrderSide := if above then .buy else .sell

theorem Crossing.direction_eq (c : Crossing) :
    c.direction = if c.aboveNow = c.abovePrev then none else some (sideOf c.aboveNow) := by
  rw [direction, sideOf]
  split
  · next h => exact (if_pos h).symm
  · next h =>
    rw [aboveNow, abovePrev, if_neg h]
    split <;> rfl

theorem crossing_eq_some {closes : List ℚ} {fast slow : ℕ} {c : Crossing} :
    crossing closes fast slow = some c ↔
      lastValue (emaSeries closes fast) = some c.fastNow ∧
      lastValue (emaSeries closes slow) = some c.slowNow ∧
      prevValue (emaSeries closes fast) = some c.fastPrev ∧
      prevValue (emaSeries closes slow) = some c.slowPrev := by
  obtain ⟨fastNow, slowNow, fastPrev, slowPrev⟩ := c
  simp only [crossing, Option.bind_eq_bind, Option.bind_eq_some_iff, Option.pure_def,
    Option.some.injEq, Crossing.mk.injEq]
  constructor
  · rintro ⟨_, h1, _, h2, _, h3, _, h4, rfl, rfl, rfl, rfl⟩
    exact ⟨h1, h2, h3, h4⟩
  · rintro ⟨h1, h2, h3, h4⟩
    exact ⟨_, h1, _, h2, _, h3, _, h4, rfl, rfl, rfl, rfl⟩

section Push
variable {closes : List ℚ} {n : ℕ} {c : ℚ}

theorem push_short (h : closes.length < n) : push n closes c = closes ++ [c] := by
  rw [push, lastN, List.length_append, List.length_singleton, Nat.sub_eq_zero_of_le h,
    List.drop_zero]

theorem push_full (h : closes.length = n) (hpos : 0 < n) :
    push n closes c = closes.tail ++ [c] := by
  rw [push, lastN, List.length_append, h, List.length_singleton, Nat.add_sub_cancel_left,
    List.drop_one, List.tail_append_of_ne_nil (List.ne_nil_of_length_pos (h ▸ hpos))]

/-- The previous values after a close more are the last ones before it. -/
theorem crossing_snoc {fast slow : ℕ} {now : Crossing}
    (h : crossing (closes ++ [c]) fast slow = some now) :
    lastValue (emaSeries closes fast) = some now.fastPrev ∧
      lastValue (emaSeries closes slow) = some now.slowPrev := by
  obtain ⟨-, -, hfast, hslow⟩ := crossing_eq_some.mp h
  rw [prevValue_emaSeries] at hfast hslow
  exact ⟨hfast, hslow⟩

theorem length_le_of_lastValue {period : ℕ} {v : ℚ}
    (h : lastValue (emaSeries closes period) = some v) :
    period ≤ closes.length ∧ v = ema closes period := by
  obtain hlong | hshort := le_or_gt period closes.length
  · rw [lastValue_emaSeries hlong] at h
    exact ⟨hlong, (Option.some.inj h).symm⟩
  · rw [lastValue_emaSeries_short hshort] at h
    cases h

/-- A value before the last one is there only if the period is shorter than the list. -/
theorem lt_length_of_prevValue {period : ℕ} {v : ℚ}
    (h : prevValue (emaSeries closes period) = some v) : period < closes.length := by
  obtain rfl | ⟨closes, c, rfl⟩ := closes.eq_nil_or_concat'
  · rw [prevValue, emaSeries] at h
    split at h
    · cases h
    · next hzero =>
      obtain rfl : period = 0 := Nat.le_zero.mp (not_lt.mp hzero)
      cases h
  · rw [prevValue_emaSeries] at h
    rw [List.length_append, List.length_singleton]
    exact Nat.lt_succ_of_le (length_le_of_lastValue h).1

theorem crossing_long {fast slow : ℕ} (hfast : fast ≤ closes.length)
    (hslow : slow ≤ closes.length) : ∃ now, crossing (closes ++ [c]) fast slow = some now := by
  have hlong : closes.length ≤ (closes ++ [c]).length := by simp
  refine ⟨⟨ema (closes ++ [c]) fast, ema (closes ++ [c]) slow, ema closes fast, ema closes slow⟩,
    crossing_eq_some.mpr ⟨?_, ?_, ?_, ?_⟩⟩
  · exact lastValue_emaSeries (hfast.trans hlong)
  · exact lastValue_emaSeries (hslow.trans hlong)
  · rw [prevValue_emaSeries, lastValue_emaSeries hfast]
  · rw [prevValue_emaSeries, lastValue_emaSeries hslow]

end Push

/-- A strategy that watches for crosses, at one symbol: `looks` says that a bar is evaluated. -/
structure CrossWatch (σ ε : Type*) where
  fast : ℕ
  slow : ℕ
  size : ℕ
  close : ε → ℚ
  onBar : σ → ε → σ
  closes : σ → List ℚ
  looks : σ → ε → Bool
  closes_onBar : ∀ s e, closes (onBar s e) = push size (closes s) (close e)

namespace CrossWatch
variable {σ ε : Type*} (w : CrossWatch σ ε)

/-- What is computed at a bar that is evaluated, if it is not NaN. -/
def looked (s : σ) (e : ε) : Option Crossing :=
  if w.looks s e = true then crossing (w.closes (w.onBar s e)) w.fast w.slow else none

/-- The state with what was computed at the bar that led to it. -/
def step (x : σ × Option Crossing) (e : ε) : σ × Option Crossing :=
  (w.onBar x.1 e, w.looked x.1 e)

/-- What is computed along a list of bars. -/
def lookedAll : σ → List ε → List (Option Crossing)
  | _, [] => []
  | s, e :: es => w.looked s e :: lookedAll (w.onBar s e) es

/-- The sides of the crosses that are detected along a list of bars. -/
def detected (s : σ) (es : List ε) : List OrderSide :=
  (w.lookedAll s es).filterMap fun c => c.bind Crossing.direction

/-- The previous bar looks as it did when it was the last one. -/
def Agrees (x : σ × Option Crossing) (e : ε) : Prop :=
  ∀ before ∈ x.2, ∀ now ∈ w.looked x.1 e, now.abovePrev = before.aboveNow

/-- A cross is detected exactly where the averages changed sides since the previous bar. -/
def Reports (x : σ × Option Crossing) (e : ε) : Prop :=
  ∀ before ∈ x.2, ∀ now ∈ w.looked x.1 e,
    now.direction = if now.aboveNow = before.aboveNow then none else some (sideOf now.aboveNow)

/-- Crosses are seen once and in turn, as long as no bar in between is passed over. -/
structure StableCrossovers (x : σ × Option Crossing) (es : List ε) : Prop where
  agrees : StepsMeet w.step w.Agrees x es
  reports : StepsMeet w.step w.Reports x es
  alternate : ∀ pre mid, pre ++ mid <+: es →
    (∀ c ∈ w.lookedAll (pre.foldl w.step x).1 mid, c.isSome) →
      (w.detected (pre.foldl w.step x).1 mid).IsChain (· ≠ ·)

/-- Where two bars in turn are evaluated and the buffer is full, the averages over it lie to each
other as they do with what the new seeds add to them. -/
def Stable (x : σ × Option Crossing) (e : ε) : Prop :=
  x.2.isSome = true → w.looks x.1 e = true → (w.closes x.1).length = w.size → w.fast < w.size →
    w.slow < w.size →
      (ema (w.closes x.1) w.slow < ema (w.closes x.1) w.fast ↔
        ema (w.closes x.1) w.slow + reseed (w.closes x.1) w.slow <
          ema (w.closes x.1) w.fast + reseed (w.closes x.1) w.fast)

/-- The buffer is bounded, and what was computed was computed from it. -/
structure Tracks (x : σ × Option Crossing) : Prop where
  bounded : (w.closes x.1).length ≤ w.size
  computed : ∀ c ∈ x.2, crossing (w.closes x.1) w.fast w.slow = some c

variable {w} {x : σ × Option Crossing} {e : ε}

theorem tracks_step (x : σ × Option Crossing) (e : ε) : w.Tracks (w.step x e) where
  bounded := by
    rw [CrossWatch.step, w.closes_onBar, push, lastN, List.length_drop]
    omega
  computed c hc := by
    rw [CrossWatch.step, looked] at hc
    split at hc
    · exact hc
    · cases hc

theorem looked_true {s : σ} (h : w.looks s e = true) :
    w.looked s e = crossing (push w.size (w.closes s) (w.close e)) w.fast w.slow := by
  rw [looked, if_pos h, w.closes_onBar]

/-- A buffer that is not full keeps all that the previous bar was computed from. -/
theorem Tracks.agrees_of_short (h : w.Tracks x) (hlooks : w.looks x.1 e = true)
    (hshort : (w.closes x.1).length < w.size) : w.Agrees x e := by
  intro before hbefore now hnow
  rw [looked_true hlooks, push_short hshort] at hnow
  obtain ⟨hfast, hslow⟩ := crossing_snoc hnow
  obtain ⟨hfast', hslow', -, -⟩ := crossing_eq_some.mp (h.computed before hbefore)
  rw [Crossing.abovePrev, Crossing.aboveNow, Option.some.inj (hfast.symm.trans hfast'),
    Option.some.inj (hslow.symm.trans hslow')]

/-- One that is full loses its oldest close, and the averages start from the next one. -/
theorem Tracks.agrees_of_full (h : w.Tracks x) {before : Crossing} (hbefore : x.2 = some before)
    (hlooks : w.looks x.1 e = true) (hfull : (w.closes x.1).length = w.size)
    (hfast : w.fast < w.size) (hslow : w.slow < w.size) : w.Agrees x e ↔
      (ema (w.closes x.1) w.slow < ema (w.closes x.1) w.fast ↔
        ema (w.closes x.1) w.slow + reseed (w.closes x.1) w.slow <
          ema (w.closes x.1) w.fast + reseed (w.closes x.1) w.fast) := by
  have htail : (w.closes x.1).tail.length = w.size - 1 := by rw [List.length_tail, hfull]
  have hpush : push w.size (w.closes x.1) (w.close e) = (w.closes x.1).tail ++ [w.close e] :=
    push_full hfull (Nat.zero_lt_of_lt hfast)
  have hfastFits : w.fast ≤ (w.closes x.1).tail.length := by omega
  have hslowFits : w.slow ≤ (w.closes x.1).tail.length := by omega
  obtain ⟨now, hnow⟩ := crossing_long (c := w.close e) hfastFits hslowFits
  obtain ⟨hnowFast, hnowSlow⟩ := crossing_snoc hnow
  obtain ⟨hlastFast, hlastSlow, -, -⟩ := crossing_eq_some.mp (h.computed before hbefore)
  have hprev : now.abovePrev = decide
      (ema (w.closes x.1) w.slow + reseed (w.closes x.1) w.slow <
        ema (w.closes x.1) w.fast + reseed (w.closes x.1) w.fast) := by
    rw [Crossing.abovePrev, (length_le_of_lastValue hnowFast).2,
      (length_le_of_lastValue hnowSlow).2, ema_tail (by omega), ema_tail (by omega)]
  have hwas : before.aboveNow =
      decide (ema (w.closes x.1) w.slow < ema (w.closes x.1) w.fast) := by
    rw [Crossing.aboveNow, (length_le_of_lastValue hlastFast).2,
      (length_le_of_lastValue hlastSlow).2]
  rw [Agrees, hbefore, looked_true hlooks, hpush, hnow]
  simp only [Option.mem_some_iff, forall_eq']
  rw [hprev, hwas, decide_eq_decide]
  exact iff_comm

theorem Tracks.agrees_iff (h : w.Tracks x) : w.Agrees x e ↔ w.Stable x e := by
  cases hbefore : x.2 with
  | none =>
    refine iff_of_true (fun before hmem => ?_) fun hsome => ?_
    · rw [hbefore] at hmem
      cases hmem
    · rw [hbefore] at hsome
      cases hsome
  | some before =>
    cases hlooks : w.looks x.1 e with
    | false =>
      refine iff_of_true (fun before _ now hnow => ?_) fun _ htrue => ?_
      · rw [looked, hlooks] at hnow
        cases hnow
      · rw [hlooks] at htrue
        cases htrue
    | true =>
      obtain hshort | hfull := h.bounded.lt_or_eq
      · exact iff_of_true (h.agrees_of_short hlooks hshort) fun _ _ hfull =>
          absurd hfull hshort.ne
      · by_cases hfit : w.fast < w.size ∧ w.slow < w.size
        · rw [h.agrees_of_full hbefore hlooks hfull hfit.1 hfit.2, Stable, hbefore]
          simp [hlooks, hfull, hfit]
        · -- the previous value of one of the averages is NaN
          refine iff_of_true (fun before _ now hnow => ?_) fun _ _ _ hfast hslow =>
            absurd ⟨hfast, hslow⟩ hfit
          have hnext : w.Tracks (w.step x e) := tracks_step x e
          obtain ⟨-, -, hfast, hslow⟩ := crossing_eq_some.mp (hnext.computed now hnow)
          exact absurd ⟨(lt_length_of_prevValue hfast).trans_le hnext.bounded,
            (lt_length_of_prevValue hslow).trans_le hnext.bounded⟩ hfit

/-- The previous bar is looked at as it was, in every step or where the seeds leave it so. -/
theorem stepsMeet_agrees_iff (h : w.Tracks x) (es : List ε) :
    StepsMeet w.step w.Agrees x es ↔ StepsMeet w.step w.Stable x es := by
  have htracks : AlongRun w.step w.Tracks x es :=
    AlongRun.of_keep (fun x e _ => tracks_step x e) h es
  refine stepsMeet_iff_prefix.trans (Iff.trans ?_ stepsMeet_iff_prefix.symm)
  refine forall_congr' fun pre => forall_congr' fun e => imp_congr_right fun hpre => ?_
  exact (htracks pre ((List.prefix_append pre [e]).trans hpre)).agrees_iff

theorem Agrees.reports (h : w.Agrees x e) : w.Reports x e := by
  intro before hbefore now hnow
  rw [Crossing.direction_eq, h before hbefore now hnow]

theorem sideOf_ne {a b : Bool} (h : a ≠ b) : sideOf a ≠ sideOf b := by
  revert h
  cases a <;> cases b <;> decide

theorem detected_cons {s : σ} {es : List ε} {now : Crossing} (h : w.looked s e = some now) :
    w.detected s (e :: es) = now.direction.toList ++ w.detected (w.onBar s e) es := by
  simp only [detected, lookedAll, h, List.filterMap_cons, Option.bind_some]
  cases now.direction <;> rfl

/-- The crosses of a stretch of bars are in turn, and the first of them leaves the side on which
the averages were before. -/
theorem detected_alternate {es : List ε} (h : StepsMeet w.step w.Reports x es)
    (hall : ∀ c ∈ w.lookedAll x.1 es, c.isSome) :
    (w.detected x.1 es).IsChain (· ≠ ·) ∧ ∀ before ∈ x.2, ∀ side ∈ (w.detected x.1 es).head?,
      sideOf before.aboveNow ≠ side := by
  induction es generalizing x with
  | nil => exact ⟨List.IsChain.nil, fun _ _ _ hside => by cases hside⟩
  | cons e es ih =>
    obtain ⟨hreports, hrest⟩ := h
    obtain ⟨hlooked, hall⟩ := List.forall_mem_cons.mp hall
    obtain ⟨now, hnow⟩ := Option.isSome_iff_exists.mp hlooked
    obtain ⟨hchain, hhead⟩ := ih hrest hall
    have hhead := hhead now hnow
    rw [detected_cons hnow]
    cases hdirection : now.direction with
    | none =>
      -- no cross: the averages lie as they did
      refine ⟨hchain, fun before hbefore side hside => ?_⟩
      have hreport := hreports before hbefore now hnow
      rw [hdirection] at hreport
      have hsame : now.aboveNow = before.aboveNow := by
        by_contra hne
        rw [if_neg hne] at hreport
        cases hreport
      exact hsame ▸ hhead side hside
    | some found =>
      have hfound : found = sideOf now.aboveNow := by
        rw [Crossing.direction_eq] at hdirection
        split at hdirection
        · cases hdirection
        · exact (Option.some.inj hdirection).symm
      refine ⟨List.isChain_cons.mpr ⟨fun side hside => hfound ▸ hhead side hside, hchain⟩, ?_⟩
      rintro before hbefore side ⟨⟩
      have hreport := hreports before hbefore now hnow
      rw [hdirection] at hreport
      have hother : before.aboveNow ≠ now.aboveNow := by
        intro hsame
        rw [if_pos hsame.symm] at hreport
        cases hreport
      exact hfound ▸ sideOf_ne hother

/-- Crosses are seen once and in turn exactly where the new seeds do not move an average past the
other. -/
theorem stableCrossovers_iff (h : w.Tracks x) (es : List ε) :
    w.StableCrossovers x es ↔ StepsMeet w.step w.Stable x es := by
  rw [← stepsMeet_agrees_iff h es]
  refine ⟨StableCrossovers.agrees, fun hagrees => ?_⟩
  have hreports : StepsMeet w.step w.Reports x es :=
    StepsMeet.imp (fun _ _ => Agrees.reports) hagrees
  refine ⟨hagrees, hreports, fun pre mid hpre hall => ?_⟩
  exact (detected_alternate (hreports.of_append hpre) hall).1

/-- As long as the buffer has room for all bars of the run, no seed changes. -/
theorem stepsMeet_stable_of_room {es : List ε}
    (h : (w.closes x.1).length + es.length ≤ w.size) : StepsMeet w.step w.Stable x es := by
  induction es generalizing x with
  | nil => trivial
  | cons e es ih =>
    rw [List.length_cons] at h
    have hlength : (w.closes (w.step x e).1).length ≤ (w.closes x.1).length + 1 := by
      rw [CrossWatch.step, w.closes_onBar]
      exact length_push_le _ _ _
    refine ⟨fun _ _ hfull => ?_, ih ?_⟩
    · omega
    · omega

theorem stableCrossovers_of_room (h : w.Tracks x) {es : List ε}
    (hroom : (w.closes x.1).length + es.length ≤ w.size) : w.StableCrossovers x es :=
  (stableCrossovers_iff h es).mpr (stepsMeet_stable_of_room hroom)

/-- Two bars in turn that do not agree on the first of them. -/
theorem not_stableCrossovers {pre : List ε} {e e' : ε} {above : Bool}
    (hwas : (w.looked (pre.foldl w.step x).1 e).map Crossing.aboveNow = some above)
    (hlooks : (w.looked ((pre ++ [e]).foldl w.step x).1 e').map Crossing.abovePrev =
      some (!above)) : ¬ w.StableCrossovers x (pre ++ [e] ++ [e']) := by
  intro h
  obtain ⟨before, hbefore, hwas⟩ := Option.map_eq_some_iff.mp hwas
  obtain ⟨now, hnow, hprev⟩ := Option.map_eq_some_iff.mp hlooks
  have hagrees := stepsMeet_iff_prefix.mp h.agrees (pre ++ [e]) e' (List.prefix_refl _)
  have hmem : before ∈ ((pre ++ [e]).foldl w.step x).2 := by
    rw [List.foldl_append]
    exact hbefore
  have hsame := hagrees before hmem now hnow
  rw [hprev, hwas] at hsame
  exact Bool.not_ne_self above hsame

end CrossWatch

/-- A bar of one symbol, and whether the day is reset before it. -/
structure DayBar where
  resets : Bool
  dispatch : Dispatch

/-- The state in which the bar is taken. -/
def Strategy.opened {δ ρ : Type} (s : Strategy δ ρ) (x : Session δ ρ) (b : DayBar) :
    Session δ ρ :=
  if b.resets = true then s.resetDaily x else x

namespace Scalp1mStrategy
variable (p : Scalp1mStrategy) (x : Session SignalCount ScalpRolling) (b : DayBar)

theorem opened_rolling : (p.strategy.opened x b).rolling = x.rolling := by
  rw [Strategy.opened]
  split <;> rfl

/-- A bar is evaluated in hours, if there are closes enough. -/
def watch : CrossWatch (Session SignalCount ScalpRolling) DayBar where
  fast := p.fast
  slow := p.slow
  size := p.slow * 3
  close b := b.dispatch.bar.closePrice
  onBar x b := (p.onBar b.dispatch (p.strategy.opened x b)).1
  closes x := x.rolling.closes
  looks x b := decide (InHours b.dispatch.bar ∧
    p.slow + 2 ≤ (p.append b.dispatch.bar x.rolling).closes.length)
  closes_onBar x b := by
    rw [onBar_rolling, opened_rolling]
    rfl

variable {p x b}

/-- A signal is on the side of a cross at its bar. -/
theorem cross_of_signal {signal : Signal}
    (h : Outcome.signal (p.onBar b.dispatch (p.strategy.opened x b)).2 = some signal) :
    ∃ c, p.watch.looked x b = some c ∧ c.direction = some signal.direction := by
  obtain ⟨direction, hcandidate⟩ := onBar_signal h
  rw [opened_rolling] at hcandidate
  simp only [candidate, cross, Option.bind_eq_bind, Option.bind_eq_some_iff, Option.pure_def,
    Option.some.injEq] at hcandidate
  obtain ⟨_, hhours, _, ⟨_, hlong, c, hc, side, hside, rfl⟩, ⟨atr, confidence⟩, -, hbuilt⟩ :=
    hcandidate
  obtain ⟨rfl, hbuilt⟩ := Prod.ext_iff.mp hbuilt
  obtain ⟨_, -, hbuilt⟩ := buildSignal_built hbuilt
  have hlooks : p.watch.looks x b = true :=
    decide_eq_true ⟨(Option.guard_eq_some' _).mp hhours, (Option.guard_eq_some' _).mp hlong⟩
  refine ⟨c, ?_, hbuilt.direction ▸ hside⟩
  rw [CrossWatch.looked_true hlooks]
  exact hc

end Scalp1mStrategy

namespace IntradayTrend15mStrategy
variable (p : IntradayTrend15mStrategy) (x : Session TrendDaily PriceBuffers) (b : DayBar)

theorem opened_rolling : (p.strategy.opened x b).rolling = x.rolling := by
  rw [Strategy.opened]
  split <;> rfl

/-- A bar is evaluated in hours, after the first bars of the day, as long as not both sides have
fired, and if there are closes enough. -/
def watch : CrossWatch (Session TrendDaily PriceBuffers) DayBar where
  fast := p.fast
  slow := p.slow
  size := max p.trend p.adxPeriod * 3
  close b := b.dispatch.bar.closePrice
  onBar x b := (p.onBar b.dispatch (p.strategy.opened x b)).1
  closes x := x.rolling.closes
  looks x b :=
    let d := (p.strategy.opened x b).daily
    let r := x.rolling.append (max p.trend p.adxPeriod * 3) b.dispatch.bar
    decide (¬ (¬ InHours b.dispatch.bar ∨ d.barCount + 1 < p.minBars ∨
      d.signalFiredToday = {.buy, .sell}) ∧ p.trend + 2 ≤ r.closes.length)
  closes_onBar x b := by
    rw [onBar_rolling, opened_rolling]
    rfl

variable {p x b}

/-- A signal is on the side of a cross at its bar. -/
theorem cross_of_signal {signal : Signal}
    (h : Outcome.signal (p.onBar b.dispatch (p.strategy.opened x b)).2 = some signal) :
    ∃ c, p.watch.looked x b = some c ∧ c.direction = some signal.direction := by
  rw [onBar] at h
  split at h
  · cases h
  · next hopen =>
    split at h
    · cases h
    · next direction produced hentry =>
      rw [opened_rolling] at hentry
      simp only [entry, Option.bind_eq_bind, Option.bind_eq_some_iff, Option.pure_def,
        Option.some.injEq, Prod.mk.injEq] at hentry
      obtain ⟨_, hlong, c, hc, trendEma, -, side, hside, _, -, _, -, atr, -, adxV, -, _, -, _, -,
        rfl, hbuild⟩ := hentry
      have hproduced : produced = some signal := h
      have hlooks : p.watch.looks x b = true :=
        decide_eq_true ⟨hopen, (Option.guard_eq_some' _).mp hlong⟩
      have hbuilt := build_built (hbuild.trans hproduced)
      refine ⟨c, ?_, hbuilt.direction ▸ hside⟩
      rw [CrossWatch.looked_true hlooks]
      exact hc

end IntradayTrend15mStrategy

/-- The crosses of both strategies are stable, in any run of bars from the start, exactly where
no new seed moves one of the averages past the other. -/
theorem crossovers_stable_iff (scalp : Scalp1mStrategy) (trend : IntradayTrend15mStrategy)
    (bs : List DayBar) :
    (scalp.watch.StableCrossovers (scalp.strategy.fresh, none) bs ↔
      StepsMeet scalp.watch.step scalp.watch.Stable (scalp.strategy.fresh, none) bs) ∧
    (trend.watch.StableCrossovers (trend.strategy.fresh, none) bs ↔
      StepsMeet trend.watch.step trend.watch.Stable (trend.strategy.fresh, none) bs) := by
  have hscalp : scalp.watch.Tracks (scalp.strategy.fresh, none) :=
    ⟨Nat.zero_le _, fun c hc => by cases hc⟩
  have htrend : trend.watch.Tracks (trend.strategy.fresh, none) :=
    ⟨Nat.zero_le _, fun c hc => by cases hc⟩
  exact ⟨CrossWatch.stableCrossovers_iff hscalp bs, CrossWatch.stableCrossovers_iff htrend bs⟩

def infyScalp : Scalp1mStrategy where
  symbols := ["INFY"]

def infyTrend : IntradayTrend15mStrategy where
  symbols := ["INFY"]

/-- A bar at one price, on a day that is not reset. -/
def flatBar (day minute : ℕ) (close : ℚ) : DayBar :=
  ⟨false, infyBar day minute close close close 1000⟩

/-- A bar a day before the hours, of which the first is far from the others. -/
def farSeed (n : ℕ) (first rest : ℚ) : List DayBar :=
  (List.range n).map fun day => flatBar day 555 (if day = 0 then first else rest)

/-- The close rises while what is left of the first one holds the slow average up. At the next bar
that one is gone, and the fast average is taken to have been above already. -/
theorem far_seed_hides_cross :
    (¬ ∀ bs, infyScalp.watch.StableCrossovers (infyScalp.strategy.fresh, none) bs) ∧
      ¬ ∀ bs, infyTrend.watch.StableCrossovers (infyTrend.strategy.fresh, none) bs := by
  constructor
  · intro h
    have hwas : (infyScalp.watch.looked ((farSeed 62 300 100).foldl infyScalp.watch.step
        (infyScalp.strategy.fresh, none)).1 (flatBar 62 570 101)).map Crossing.aboveNow =
          some false := by decide +kernel
    have hlooks : (infyScalp.watch.looked ((farSeed 62 300 100 ++ [flatBar 62 570 101]).foldl
        infyScalp.watch.step (infyScalp.strategy.fresh, none)).1 (flatBar 62 571 101)).map
          Crossing.abovePrev = some true := by decide +kernel
    exact CrossWatch.not_stableCrossovers hwas hlooks (h _)
  · intro h
    have hwas : (infyTrend.watch.looked ((farSeed 149 100000 50000).foldl infyTrend.watch.step
        (infyTrend.strategy.fresh, none)).1 (flatBar 149 570 (50000 + 1 / 20))).map
          Crossing.aboveNow = some false := by decide +kernel
    have hlooks : (infyTrend.watch.looked
        ((farSeed 149 100000 50000 ++ [flatBar 149 570 (50000 + 1 / 20)]).foldl
          infyTrend.watch.step (infyTrend.strategy.fresh, none)).1
            (flatBar 149 585 (50000 + 1 / 20))).map Crossing.abovePrev = some true := by
      decide +kernel
    exact CrossWatch.not_stableCrossovers hwas hlooks (h _)

end QuantEmbrace.Strategies
