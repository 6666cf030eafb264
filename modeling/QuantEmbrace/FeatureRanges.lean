import QuantEmbrace.FeatureAgreement

/-! Where the features of the engine lie, however many candles there are and however they look. -/
namespace QuantEmbrace.Features
open IsoFormat Smoothing Candles

section Ema
variable {closes : List ℚ} {period : ℕ}

theorem getLast_emaSeries (hlong : period ≤ closes.length) :
    (emaSeries closes period).getLast? =
      some (some (seeded (2 / ((period : ℚ) + 1)) period closes)) := by
  rw [emaSeries, if_neg (not_lt.mpr hlong), List.getLast?_append, List.getLast?_map,
    List.getLast?_scanl]
  rfl

theorem alpha_mem (hp : 0 < period) :
    0 ≤ 2 / ((period : ℚ) + 1) ∧ 2 / ((period : ℚ) + 1) ≤ 1 := by
  have hpos : (1 : ℚ) ≤ period := by exact_mod_cast hp
  exact ⟨by positivity, (div_le_one (by linarith)).mpr (by linarith)⟩

theorem computeEma_between (hp : 0 < period) (hlong : period ≤ closes.length) :
    ∃ x, computeEma closes period = .ok x ∧ ∀ v, x = some v →
      (∃ c ∈ closes, c ≤ v) ∧ ∃ c ∈ closes, v ≤ c := by
  refine ⟨_, by rw [computeEma, getLast_emaSeries hlong], fun v hv => ?_⟩
  rw [Option.some.injEq] at hv
  rw [← hv]
  exact seeded_between (alpha_mem hp).1 (alpha_mem hp).2 hp hlong

end Ema

section Rsi
variable {closes : List ℚ} {period : ℕ}

def gains (closes : List ℚ) : List ℚ := (priceDeltas closes).map fun d => max d 0

def losses (closes : List ℚ) : List ℚ := (priceDeltas closes).map fun d => max (-d) 0

theorem gains_nonneg (closes : List ℚ) : ∀ v ∈ gains closes, 0 ≤ v := by
  intro v hv
  obtain ⟨d, -, rfl⟩ := List.mem_map.mp hv
  exact le_max_right d 0

theorem losses_nonneg (closes : List ℚ) : ∀ v ∈ losses closes, 0 ≤ v := by
  intro v hv
  obtain ⟨d, -, rfl⟩ := List.mem_map.mp hv
  exact le_max_right (-d) 0

/-- The index, from the average gain and the average loss. -/
def rsiOf (gain loss : ℚ) : ℚ := if loss = 0 then 100 else 100 - 100 / (1 + gain / loss)

theorem rsiOf_mem {gain loss : ℚ} (hgain : 0 ≤ gain) (hloss : 0 ≤ loss) :
    0 ≤ rsiOf gain loss ∧ rsiOf gain loss ≤ 100 := by
  rw [rsiOf]
  split
  · norm_num
  · have hone : 1 ≤ 1 + gain / loss := le_add_of_nonneg_right (div_nonneg hgain hloss)
    have hle : 100 / (1 + gain / loss) ≤ 100 := div_le_self (by norm_num) hone
    have hnonneg : 0 ≤ 100 / (1 + gain / loss) := by positivity
    exact ⟨by linarith, by linarith⟩

/-- Gain and loss change places. -/
theorem rsiOf_swap {gain loss : ℚ} (hgain : 0 ≤ gain) (hloss : 0 ≤ loss)
    (hne : gain ≠ 0 ∨ loss ≠ 0) : rsiOf loss gain = 100 - rsiOf gain loss := by
  rw [rsiOf, rsiOf]
  by_cases hg : gain = 0
  · have hl : loss ≠ 0 := hne.resolve_left (not_not.mpr hg)
    rw [if_pos hg, if_neg hl, hg]
    norm_num
  · by_cases hl : loss = 0
    · rw [if_neg hg, if_pos hl, hl]
      norm_num
    · have hsum : gain + loss ≠ 0 := by
        have hpos : 0 < gain := lt_of_le_of_ne hgain (Ne.symm hg)
        linarith
      have hsum' : loss + gain ≠ 0 := by rwa [add_comm]
      rw [if_neg hg, if_neg hl, one_add_div hg, one_add_div hl]
      field_simp
      ring

theorem computeRsi_eq (hp : 0 < period) (hlong : period + 1 ≤ closes.length) :
    computeRsi closes period = .ok (some (rsiOf (seeded (1 / (period : ℚ)) period (gains closes))
      (seeded (1 / (period : ℚ)) period (losses closes)))) := by
  have hgain : 0 ≤ seeded (1 / (period : ℚ)) period (gains closes) :=
    seeded_nonneg (gains_nonneg closes)
  have hloss : 0 ≤ seeded (1 / (period : ℚ)) period (losses closes) :=
    seeded_nonneg (losses_nonneg closes)
  have hgains : (priceDeltas closes).map (fun d => max d 0) = gains closes := rfl
  have hlosses : (priceDeltas closes).map (fun d => max (-d) 0) = losses closes := rfl
  rw [computeRsi, if_neg (not_lt.mpr hlong), hgains, hlosses, wilderAverage_eq hp,
    wilderAverage_eq hp, rsiOf]
  generalize seeded (1 / (period : ℚ)) period (gains closes) = gain at *
  generalize seeded (1 / (period : ℚ)) period (losses closes) = loss at *
  change (if loss = 0 then _ else _) = _
  split
  · rfl
  · next hne =>
    have hone : 1 + gain / loss ≠ 0 := by
      have hdiv := div_nonneg hgain hloss
      linarith
    rw [divide_of_ne hne]
    change ((divide 100 (1 + gain / loss)).bind _) = _
    rw [divide_of_ne hone]
    rfl

theorem computeRsi_mem (hp : 0 < period) (hlong : period + 1 ≤ closes.length) :
    ∃ x, computeRsi closes period = .ok x ∧ ∀ v, x = some v → 0 ≤ v ∧ v ≤ 100 := by
  refine ⟨_, computeRsi_eq hp hlong, fun v hv => ?_⟩
  rw [Option.some.injEq] at hv
  rw [← hv]
  exact rsiOf_mem (seeded_nonneg (gains_nonneg closes)) (seeded_nonneg (losses_nonneg closes))

/-- Prices on the path that goes the other way. -/
def mirrored (c0 : ℚ) (closes : List ℚ) : List ℚ := closes.map fun c => c0 + c0 - c

theorem priceDeltas_mirrored (c0 : ℚ) (closes : List ℚ) :
    priceDeltas (mirrored c0 closes) = (priceDeltas closes).map fun d => -d := by
  rw [priceDeltas, mirrored, ← List.map_tail, List.zipWith_map, priceDeltas, List.map_zipWith]
  congr 1
  funext a b
  ring

theorem gains_mirrored (c0 : ℚ) (closes : List ℚ) :
    gains (mirrored c0 closes) = losses closes := by
  rw [gains, priceDeltas_mirrored, List.map_map]
  rfl

theorem losses_mirrored (c0 : ℚ) (closes : List ℚ) :
    losses (mirrored c0 closes) = gains closes := by
  rw [losses, priceDeltas_mirrored, List.map_map]
  refine List.map_congr_left fun d _ => ?_
  rw [Function.comp_apply, neg_neg]

/-- Prices without gain and loss are constant. -/
theorem constant_of_flat {closes : List ℚ} (hgain : ∀ v ∈ gains closes, v = 0)
    (hloss : ∀ v ∈ losses closes, v = 0) : ∀ a ∈ closes, ∀ b ∈ closes, a = b := by
  have hflat : ∀ d ∈ priceDeltas closes, d = 0 := by
    intro d hd
    have hup : d ≤ 0 := max_eq_right_iff.mp (hgain _ (List.mem_map_of_mem hd))
    have hdown : -d ≤ 0 := max_eq_right_iff.mp (hloss _ (List.mem_map_of_mem hd))
    linarith
  clear hgain hloss
  cases closes with
  | nil => exact fun a ha => absurd ha List.not_mem_nil
  | cons first rest =>
    have hall : ∀ a ∈ rest, a = first := by
      induction rest generalizing first with
      | nil => exact fun a ha => absurd ha List.not_mem_nil
      | cons second rest ih =>
        have hsplit : priceDeltas (first :: second :: rest) =
            (second - first) :: priceDeltas (second :: rest) := rfl
        rw [hsplit, List.forall_mem_cons] at hflat
        have hsame : second = first := sub_eq_zero.mp hflat.1
        rw [List.forall_mem_cons]
        exact ⟨hsame, fun a ha => (ih second hflat.2 a ha).trans hsame⟩
    intro a ha b hb
    have heq {c : ℚ} (hc : c ∈ first :: rest) : c = first :=
      (List.mem_cons.mp hc).elim id (hall c)
    exact (heq ha).trans (heq hb).symm

theorem computeRsi_mirrored (hp : 2 ≤ period) (hlong : period + 1 ≤ closes.length)
    (hmoves : ∃ a ∈ closes, ∃ b ∈ closes, a ≠ b) (c0 : ℚ) :
    ∃ r, computeRsi closes period = .ok (some r) ∧
      computeRsi (mirrored c0 closes) period = .ok (some (100 - r)) := by
  have hpos : 0 < period := Nat.zero_lt_of_lt hp
  refine ⟨_, computeRsi_eq hpos hlong, ?_⟩
  rw [computeRsi_eq hpos (by rwa [mirrored, List.length_map]), gains_mirrored, losses_mirrored]
  congr 2
  refine rsiOf_swap (seeded_nonneg (gains_nonneg closes)) (seeded_nonneg (losses_nonneg closes)) ?_
  by_contra hnone
  push Not at hnone
  rw [seeded_eq_zero_iff hp (gains_nonneg closes),
    seeded_eq_zero_iff hp (losses_nonneg closes)] at hnone
  obtain ⟨a, ha, b, hb, hab⟩ := hmoves
  exact hab (constant_of_flat hnone.1 hnone.2 a ha b hb)

end Rsi

section Volatility
variable {highs lows closes : List ℚ} {period : ℕ}

theorem SameLength.atr_mem (h : SameLength highs lows closes) (hp : 0 < period) {atr : ℚ}
    (hatr : computeAtr highs lows closes period = some atr) :
    0 ≤ atr ∧ ∃ tr ∈ trueRanges highs lows closes, atr ≤ tr := by
  rw [computeAtr] at hatr
  split at hatr
  · cases hatr
  · next hshort =>
    rw [Option.some.injEq, wilderAverage_eq hp] at hatr
    obtain ⟨hk, hk'⟩ := weight_mem hp
    have hlong : period ≤ (trueRanges highs lows closes).length := by
      rw [h.length_trueRanges]
      omega
    rw [← hatr]
    exact ⟨seeded_nonneg trueRanges_nonneg, (seeded_between hk.le hk' hp hlong).2⟩

theorem SameLength.computeAdx_mem (h : SameLength highs lows closes) (hp : 0 < period) :
    ∃ x, computeAdx highs lows closes period = .ok x ∧ ∀ v, x = some v → 0 ≤ v ∧ v ≤ 100 := by
  refine ⟨_, h.computeAdx_eq hp, fun v hv => ?_⟩
  split at hv
  · cases hv
  · next hshort =>
    split at hv
    · cases hv
    · next hfew =>
      obtain ⟨hk, hk'⟩ := weight_mem hp
      rw [Option.some.injEq] at hv
      rw [← hv]
      refine seeded_mem hk.le hk' (fun d hd => ?_) hp (not_lt.mp hfew)
      obtain ⟨s, hs, rfl⟩ := List.mem_map.mp hd
      rw [h.dxEntries_eq (by omega)] at hs
      exact (smoothed_nonneg hp s (List.mem_of_mem_filter hs)).dxValue_mem

end Volatility

theorem computeVwap_mem {candles : List Candle} (h : ∀ c ∈ candles, c.Sane) :
    ∃ x, computeVwap candles = .ok x ∧ ∀ vwap, x = some vwap →
      (∃ c ∈ candles, c.low ≤ vwap) ∧ ∃ c ∈ candles, vwap ≤ c.high := by
  rw [computeVwap]
  by_cases hzero : (candles.map fun c => (c.volume : ℚ)).sum = 0
  · exact ⟨none, if_pos hzero, fun vwap hx => by cases hx⟩
  · refine ⟨_, by rw [if_neg hzero, divide_of_ne hzero]; rfl, fun vwap hx => ?_⟩
    have hvolume : ∀ c ∈ candles, 0 ≤ (c.volume : ℚ) := fun c hc => by
      exact_mod_cast (h c hc).volume
    have hpos : 0 < (candles.map fun c => (c.volume : ℚ)).sum := by
      refine lt_of_le_of_ne (List.sum_nonneg fun v hv => ?_) (Ne.symm hzero)
      obtain ⟨c, hc, rfl⟩ := List.mem_map.mp hv
      exact hvolume c hc
    have hne : candles ≠ [] := by
      rintro rfl
      exact hzero rfl
    obtain ⟨lo, hlo, _, _, hlow⟩ := exists_bounds (mt List.map_eq_nil_iff.mp hne :
      candles.map (fun c => c.low) ≠ [])
    obtain ⟨_, _, hi, hhi, hhigh⟩ := exists_bounds (mt List.map_eq_nil_iff.mp hne :
      candles.map (fun c => c.high) ≠ [])
    have htypical : ∀ c ∈ candles, lo ≤ (c.high + c.low + c.closePrice) / 3 ∧
        (c.high + c.low + c.closePrice) / 3 ≤ hi := by
      intro c hc
      have hl := (hlow _ (List.mem_map_of_mem hc)).1
      have hh := (hhigh _ (List.mem_map_of_mem hc)).2
      have hlc := (h c hc).low_close
      have hch := (h c hc).close_high
      constructor
      · rw [le_div_iff₀ (by norm_num)]
        linarith
      · rw [div_le_iff₀ (by norm_num)]
        linarith
    obtain ⟨hle, hge⟩ := weighted_mean_mem hvolume htypical hpos
    rw [Option.some.injEq] at hx
    obtain ⟨c, hc, rfl⟩ := List.mem_map.mp hlo
    obtain ⟨d, hd, rfl⟩ := List.mem_map.mp hhi
    rw [← hx]
    exact ⟨⟨c, hc, hle⟩, d, hd, hge⟩

theorem computeMacd_hist (closes : List ℚ) (fast slow : ℕ) {signal : ℕ} (hs : 0 < signal) :
    ∃ x, computeMacd closes fast slow signal = .ok x ∧
      ∀ macd, x = some macd → macd.hist = macd.line - macd.signal := by
  rw [computeMacd]
  split
  · exact ⟨none, rfl, fun macd hx => by cases hx⟩
  · dsimp only
    split
    · exact ⟨none, rfl, fun macd hx => by cases hx⟩
    · next hfew =>
      have hne : macdValues closes fast slow ≠ [] := by
        intro hnil
        rw [hnil, List.length_nil] at hfew
        exact hfew hs
      obtain ⟨line, hline⟩ := Option.ne_none_iff_exists'.mp (mt List.getLast?_eq_none_iff.mp hne)
      rw [hline, getLast_emaSeries (not_lt.mp hfew)]
      refine ⟨_, rfl, fun macd hx => ?_⟩
      rw [Option.some.injEq] at hx
      rw [← hx]

/-- A feature that is computed without an error where there are candles enough. -/
theorem whenEnough_ok {α : Type} {n least : ℕ} {f : Except EngineError (Option α)}
    {P : α → Prop} (h : least ≤ n → ∃ x, f = .ok x ∧ ∀ v, x = some v → P v) :
    ∃ x, whenEnough n least f = .ok x ∧ ∀ v, x = some v → P v := by
  rw [whenEnough]
  split
  · next hle => exact h hle
  · exact ⟨none, rfl, fun v hx => by cases hx⟩

theorem volumeRatio_ok (volume : ℤ) (adv20d : Option ℚ) :
    ∃ x, volumeRatio volume adv20d = .ok x := by
  cases adv20d with
  | none => exact ⟨none, rfl⟩
  | some adv =>
    rw [volumeRatio]
    split
    · next hpos => exact ⟨_, by rw [divide_of_ne hpos.ne']; rfl⟩
    · exact ⟨none, rfl⟩

/-- Every feature that is defined is where its mathematics has it. -/
structure FeatureSet.InRange (candles : List Candle) (features : FeatureSet) : Prop where
  rsi : ∀ v, features.rsi14 = some v → 0 ≤ v ∧ v ≤ 100
  adx : ∀ v, features.adx14 = some v → 0 ≤ v ∧ v ≤ 100
  atr : ∀ v, features.atr14 = some v →
    0 ≤ v ∧ ∃ tr ∈ trueRanges (highs candles) (lows candles) (closes candles), v ≤ tr
  ema9 : ∀ v, features.ema9 = some v →
    (∃ c ∈ closes candles, c ≤ v) ∧ ∃ c ∈ closes candles, v ≤ c
  ema21 : ∀ v, features.ema21 = some v →
    (∃ c ∈ closes candles, c ≤ v) ∧ ∃ c ∈ closes candles, v ≤ c
  vwap : ∀ v, features.vwap = some v →
    (∃ c ∈ candles, c.low ≤ v) ∧ ∃ c ∈ candles, v ≤ c.high
  hist : ∀ v, features.macdHist = some v →
    ∃ line signal, features.macd = some line ∧ features.macdSignal = some signal ∧
      v = line - signal
  mirrored : ∀ c0, rsiMin ≤ candles.length →
    (∃ a ∈ closes candles, ∃ b ∈ closes candles, a ≠ b) → ∃ v, features.rsi14 = some v ∧
      computeRsi (mirrored c0 (closes candles)) rsiPeriod = .ok (some (100 - v))

/-- What the engine computes of the closes, the lows and the highs, one feature at a time. -/
theorem compute_eq {now : DateTime} {candles : List Candle} {adv20d : Option ℚ} {last : Candle}
    (hlast : candles.getLast? = some last) {vwap ema9 ema21 rsi atr adx ratio : Option ℚ}
    {macd : Option Macd}
    (hvwap : whenEnough candles.length 1 (computeVwap candles) = .ok vwap)
    (hema9 : whenEnough candles.length ema9Min (computeEma (closes candles) ema9Min) = .ok ema9)
    (hema21 : whenEnough candles.length ema21Min (computeEma (closes candles) ema21Min) =
      .ok ema21)
    (hrsi : whenEnough candles.length rsiMin (computeRsi (closes candles) rsiPeriod) = .ok rsi)
    (hatr : whenEnough candles.length atrMin
      (.ok (computeAtr (highs candles) (lows candles) (closes candles) atrPeriod)) = .ok atr)
    (hadx : whenEnough candles.length adxMin
      (computeAdx (highs candles) (lows candles) (closes candles) adxPeriod) = .ok adx)
    (hmacd : whenEnough candles.length macdMin
      (computeMacd (closes candles) emaFast emaSlow macdSignalPeriod) = .ok macd)
    (hratio : volumeRatio last.volume adv20d = .ok ratio) :
    compute now candles adv20d = .ok {
      symbol := last.instrument, market := last.market
      interval := canonicalInterval last.interval
      candleTime := last.dt.map DateTime.aware
      candleCount := candles.length, computedAt := now
      rsi14 := rsi, ema9 := ema9, ema21 := ema21, vwap := vwap, atr14 := atr, adx14 := adx
      macd := macd.map Macd.line, macdSignal := macd.map Macd.signal
      macdHist := macd.map Macd.hist, volumeRatio := ratio } := by
  rw [closes] at *
  rw [highs, lows] at *
  rw [compute, hlast]
  dsimp only
  rw [hvwap, hema9, hema21, hrsi, hatr, hadx, hmacd, hratio]
  rfl

/-- The computation ends with a feature set in range; in particular no division by zero occurs. -/
theorem features_in_range (now : DateTime) (candles : List Candle) (adv20d : Option ℚ)
    (hne : candles ≠ []) (hsane : ∀ c ∈ candles, 0 < c.low ∧ c.Sane) :
    ∃ features, compute now candles adv20d = .ok features ∧ features.InRange candles := by
  have hsame := sameLength candles
  have hlength : (closes candles).length = candles.length := List.length_map _
  obtain ⟨last, hlast⟩ := Option.ne_none_iff_exists'.mp (mt List.getLast?_eq_none_iff.mp hne)
  obtain ⟨vwap, hvwap, hvwapMem⟩ := whenEnough_ok (n := candles.length)
    fun _ : 1 ≤ _ => computeVwap_mem fun c hc => (hsane c hc).2
  obtain ⟨ema9, hema9, hema9Mem⟩ := whenEnough_ok fun hle : ema9Min ≤ candles.length =>
    computeEma_between (by decide) (hlength.symm ▸ hle)
  obtain ⟨ema21, hema21, hema21Mem⟩ := whenEnough_ok fun hle : ema21Min ≤ candles.length =>
    computeEma_between (by decide) (hlength.symm ▸ hle)
  obtain ⟨rsi, hrsi, hrsiMem⟩ := whenEnough_ok fun hle : rsiMin ≤ candles.length =>
    computeRsi_mem (by decide) (hlength.symm ▸ hle)
  obtain ⟨atr, hatr, hatrMem⟩ := whenEnough_ok fun _ : atrMin ≤ candles.length =>
    ⟨_, rfl, fun v hv => hsame.atr_mem (show 0 < atrPeriod by decide) hv⟩
  obtain ⟨adx, hadx, hadxMem⟩ := whenEnough_ok fun _ : adxMin ≤ candles.length =>
    hsame.computeAdx_mem (show 0 < adxPeriod by decide)
  obtain ⟨macd, hmacd, hmacdHist⟩ := whenEnough_ok fun _ : macdMin ≤ candles.length =>
    computeMacd_hist (closes candles) emaFast emaSlow (show 0 < macdSignalPeriod by decide)
  obtain ⟨ratio, hratio⟩ := volumeRatio_ok last.volume adv20d
  refine ⟨_, compute_eq hlast hvwap hema9 hema21 hrsi hatr hadx hmacd hratio,
    hrsiMem, hadxMem, hatrMem, hema9Mem, hema21Mem, hvwapMem, fun v hv => ?_, ?_⟩
  · obtain ⟨m, rfl, rfl⟩ := Option.map_eq_some_iff.mp hv
    exact ⟨m.line, m.signal, rfl, rfl, hmacdHist m rfl⟩
  · intro c0 hle hmoves
    obtain ⟨v, hv, hmirror⟩ := computeRsi_mirrored (by decide) (hlength.symm ▸ hle) hmoves c0
    refine ⟨v, ?_, hmirror⟩
    rw [whenEnough, if_pos hle, hv, Except.ok.injEq] at hrsi
    exact hrsi.symm

theorem features_in_range_flat : List.replicate 40 flatCandle ≠ [] ∧
    (∀ c ∈ List.replicate 40 flatCandle, 0 < c.low ∧ c.Sane) ∧
      ∃ now features, compute now (List.replicate 40 flatCandle) (some 1000) = .ok features ∧
        features.InRange (List.replicate 40 flatCandle) := by
  have hne : List.replicate 40 flatCandle ≠ [] := by simp
  have hsane : ∀ c ∈ List.replicate 40 flatCandle, 0 < c.low ∧ c.Sane := fun c hc =>
    (List.eq_of_mem_replicate hc).symm ▸ ⟨by decide, flatCandle_sane⟩
  have computedAt : DateTime := ⟨2026, 1, 5, 9, 20, 0, 0, some utc, by decide⟩
  exact ⟨hne, hsane, computedAt, features_in_range computedAt _ (some 1000) hne hsane⟩

end QuantEmbrace.Features
