import QuantEmbrace.FeatureEngine
import QuantEmbrace.Indicators

/-! The indicators of the feature engine beside those of the strategies. -/
namespace QuantEmbrace

/-- `ema`: the last value only. -/
def Indicators.emaLast (values : List ℚ) (period : ℕ) : Option ℚ :=
  lastValue (emaSeries values period)

namespace Features
open Smoothing Candles

def highs (candles : List Candle) : List ℚ := candles.map fun c => c.high
def lows (candles : List Candle) : List ℚ := candles.map fun c => c.low
def closes (candles : List Candle) : List ℚ := candles.map fun c => c.closePrice
def volumes (candles : List Candle) : List ℤ := candles.map fun c => c.volume

theorem sameLength (candles : List Candle) :
    SameLength (highs candles) (lows candles) (closes candles) := by
  constructor <;> simp [highs, lows, closes]

/-- A candle as the exchange reports it. -/
structure Candle.Sane (c : Candle) : Prop where
  low_open : c.low ≤ c.openPrice
  low_close : c.low ≤ c.closePrice
  open_high : c.openPrice ≤ c.high
  close_high : c.closePrice ≤ c.high
  volume : 0 ≤ c.volume

theorem computeEma_eq {closes : List ℚ} (h : closes ≠ []) (period : ℕ) :
    computeEma closes period = .ok (Indicators.emaLast closes period) := by
  have hne : emaSeries closes period ≠ [] := by
    rw [emaSeries]
    split
    · rw [Ne, List.replicate_eq_nil_iff, List.length_eq_zero_iff]
      exact h
    · exact List.append_ne_nil_of_right_ne_nil _ (by simp)
  obtain ⟨last, hlast⟩ := Option.ne_none_iff_exists'.mp (mt List.getLast?_eq_none_iff.mp hne)
  have hseries : (Indicators.emaSeries closes period).getLast? = some last := hlast
  rw [computeEma, hlast, Indicators.emaLast, Indicators.lastValue, hseries]
  rfl

theorem trueRanges_eq (highs lows closes : List ℚ) :
    Indicators.trueRanges highs lows closes = trueRanges highs lows closes := by
  have hfun : Indicators.trueRange = trueRange := by
    funext high low prevClose
    exact (max_assoc _ _ _).symm
  rw [Indicators.trueRanges, hfun]
  rfl

theorem wilder_eq {period : ℕ} (hp : 0 < period) (values : List ℚ) :
    Indicators.wilder period values = seeded (1 / (period : ℚ)) period values := by
  have hne : (period : ℚ) ≠ 0 := Nat.cast_ne_zero.mpr hp.ne'
  rw [Indicators.wilder]
  refine foldl_eq_smooth (fun x v => ?_) _ _
  field_simp
  ring

theorem computeAtr_eq {period : ℕ} (hp : 0 < period) (highs lows closes : List ℚ) :
    computeAtr highs lows closes period = Indicators.atrWilder highs lows closes period := by
  rw [computeAtr, Indicators.atrWilder, trueRanges_eq, wilder_eq hp, wilderAverage_eq hp]

theorem weighted_map (candles : List Candle) (f : Candle → ℚ) :
    Indicators.weighted (candles.map f) (volumes candles) =
      candles.map fun c => f c * (c.volume : ℚ) := by
  rw [Indicators.weighted, volumes, List.zipWith_map]
  exact List.zipWith_self

theorem prices_eq (candles : List Candle) :
    List.zipWith3 Indicators.typicalPrice (highs candles) (lows candles) (closes candles) =
      candles.map fun c => (c.high + c.low + c.closePrice) / 3 := by
  induction candles with
  | nil => rfl
  | cons c candles ih => exact congrArg (_ :: ·) ih

theorem computeVwap_eq {candles : List Candle} (h : ∀ c ∈ candles, c.Sane) :
    computeVwap candles =
      .ok (Indicators.vwap (highs candles) (lows candles) (closes candles) (volumes candles)) := by
  have htotal : Indicators.totalVolume (candles.map fun c => (c.high + c.low + c.closePrice) / 3)
      (volumes candles) = (candles.map fun c => (c.volume : ℚ)).sum := by
    rw [Indicators.totalVolume, List.map_map]
    refine congrArg List.sum ((weighted_map candles _).trans ?_)
    exact List.map_congr_left fun c _ => one_mul _
  have hnonneg : 0 ≤ (candles.map fun c => (c.volume : ℚ)).sum := by
    refine List.sum_nonneg fun v hv => ?_
    obtain ⟨c, hc, rfl⟩ := List.mem_map.mp hv
    exact_mod_cast (h c hc).volume
  rw [Indicators.vwap, prices_eq, htotal, weighted_map, computeVwap]
  by_cases hzero : (candles.map fun c => (c.volume : ℚ)).sum = 0
  · rw [if_pos hzero, if_neg hzero.not_gt]
    rfl
  · rw [if_neg hzero, if_pos (lt_of_le_of_ne hnonneg (Ne.symm hzero)), divide_of_ne hzero]
    rfl

section Adx
variable {highs lows closes : List ℚ} {period : ℕ}

theorem zipWith3_directionalIndex (plus minus trs : List ℚ) :
    List.zipWith3 Indicators.directionalIndex trs plus minus =
      (List.zipWith3 Smoothed.mk plus minus trs).map
        fun s => Indicators.directionalIndex s.tr s.plus s.minus := by
  induction plus generalizing minus trs with
  | nil => cases trs <;> rfl
  | cons a plus ih =>
    cases minus with
    | nil => cases trs <;> rfl
    | cons b minus =>
      cases trs with
      | nil => rfl
      | cons c trs => exact congrArg (_ :: ·) (ih minus trs)

theorem directionalIndex_eq {s : Smoothed} (hs : s.Nonneg) (h : s.tr ≠ 0) :
    Indicators.directionalIndex s.tr s.plus s.minus = s.dxValue := by
  have hplus : 0 ≤ 100 * s.plus / s.tr := div_nonneg (mul_nonneg (by norm_num) hs.plus) hs.tr
  have hminus : 0 ≤ 100 * s.minus / s.tr := div_nonneg (mul_nonneg (by norm_num) hs.minus) hs.tr
  rw [Indicators.directionalIndex, if_neg h, Smoothed.dxValue]
  by_cases hzero : 100 * s.plus / s.tr + 100 * s.minus / s.tr = 0
  · rw [if_pos hzero, if_neg hzero.not_gt]
  · rw [if_neg hzero, if_pos (lt_of_le_of_ne (add_nonneg hplus hminus) (Ne.symm hzero))]

/-- What `_math` has in its `dx_list`: a zero where the engine passes over an entry. -/
def directionalIndices (entries : List Smoothed) : List ℚ :=
  entries.map fun s => Indicators.directionalIndex s.tr s.plus s.minus

theorem SameLength.adx_eq (h : SameLength highs lows closes) (hp : 0 < period) :
    Indicators.adx highs lows closes period =
      if closes.length < 2 * period then none
      else some (seeded (1 / (period : ℚ)) period
        (directionalIndices (smoothed highs lows closes period))) := by
  rw [Indicators.adx, mul_comm period 2]
  by_cases hshort : closes.length < 2 * period
  · rw [if_pos hshort, if_pos hshort]
  · have htrs : ¬ (trueRanges highs lows closes).length < period := by
      rw [h.length_trueRanges]
      omega
    have hdxs : List.zipWith3 Indicators.directionalIndex
        (Indicators.wilderSmooth period (trueRanges highs lows closes))
        (Indicators.wilderSmooth period (plusDms highs lows))
        (Indicators.wilderSmooth period (minusDms highs lows)) =
        directionalIndices (smoothed highs lows closes period) :=
      zipWith3_directionalIndex _ _ _
    have hlong : ¬ (directionalIndices (smoothed highs lows closes period)).length < period := by
      rw [directionalIndices, List.length_map, h.length_smoothed (by omega)]
      omega
    rw [if_neg hshort, if_neg hshort, trueRanges_eq]
    change (if (trueRanges highs lows closes).length < period then _
      else if (List.zipWith3 Indicators.directionalIndex
        (Indicators.wilderSmooth period (trueRanges highs lows closes))
        (Indicators.wilderSmooth period (plusDms highs lows))
        (Indicators.wilderSmooth period (minusDms highs lows))).length < period then _ else _) = _
    rw [if_neg htrs, hdxs, if_neg hlong, wilder_eq hp]
    exact congrArg (fun values => some (seeded (1 / (period : ℚ)) period values)) hdxs

theorem map_tr_zipWith3 {as bs cs : List ℚ} (has : cs.length ≤ as.length)
    (hbs : cs.length ≤ bs.length) : (List.zipWith3 Smoothed.mk as bs cs).map Smoothed.tr = cs := by
  induction cs generalizing as bs with
  | nil => cases as <;> cases bs <;> rfl
  | cons c cs ih =>
    cases as with
    | nil => cases has
    | cons a as =>
      cases bs with
      | nil => cases hbs
      | cons b bs =>
        exact congrArg (c :: ·) (ih (Nat.le_of_succ_le_succ has) (Nat.le_of_succ_le_succ hbs))

theorem SameLength.map_tr_smoothed (h : SameLength highs lows closes) :
    (smoothed highs lows closes period).map Smoothed.tr =
      runningSums (trueRanges highs lows closes) period := by
  refine map_tr_zipWith3 ?_ ?_
  · rw [length_runningSums, length_runningSums, h.length_trueRanges, h.length_plusDms]
  · rw [length_runningSums, length_runningSums, h.length_trueRanges, h.length_minusDms]

/-- A smoothed sum that is positive stays so. -/
theorem scanl_pos {values : List ℚ} {seed : ℚ} (hp : 2 ≤ period) (hvalues : ∀ v ∈ values, 0 ≤ v)
    (hseed : 0 < seed) :
    ∀ x ∈ values.scanl (fun prev v => prev - prev / (period : ℚ) + v) seed, 0 < x := by
  induction values generalizing seed with
  | nil =>
    intro x hx
    rw [List.scanl_nil, List.mem_singleton] at hx
    rwa [hx]
  | cons v values ih =>
    obtain ⟨hv, hvalues⟩ := List.forall_mem_cons.mp hvalues
    have htwo : (1 : ℚ) < period := by exact_mod_cast hp
    have hlt : seed / period < seed := div_lt_self hseed htwo
    rw [List.scanl_cons, List.forall_mem_cons]
    exact ⟨hseed, ih hvalues (by linarith)⟩

/-- Zeros can only stand in front. -/
theorem scanl_zeros {values : List ℚ} {seed : ℚ} (hp : 2 ≤ period) (hvalues : ∀ v ∈ values, 0 ≤ v)
    (hseed : 0 ≤ seed) : ∃ z rest,
      values.scanl (fun prev v => prev - prev / (period : ℚ) + v) seed =
        List.replicate z 0 ++ rest ∧ (∀ x ∈ rest, 0 < x) ∧ (z = 0 ↔ seed ≠ 0) := by
  obtain rfl | hpos := hseed.eq_or_lt
  · induction values with
    | nil => exact ⟨1, [], rfl, fun x hx => absurd hx List.not_mem_nil, by simp⟩
    | cons v values ih =>
      obtain ⟨hv, htail⟩ := List.forall_mem_cons.mp hvalues
      rw [List.scanl_cons, zero_div, sub_zero, zero_add]
      obtain rfl | hpos := hv.eq_or_lt
      · obtain ⟨z, rest, hscan, hrest, -⟩ := ih htail
        refine ⟨z + 1, rest, ?_, hrest, by simp⟩
        rw [hscan]
        rfl
      · exact ⟨1, _, rfl, scanl_pos hp htail hpos, by simp⟩
  · exact ⟨0, _, rfl, scanl_pos hp hvalues hpos, by simp [hpos.ne']⟩

/-- Where the first true ranges are all zero, `_math` counts entries that the engine passes
over. -/
theorem SameLength.directionalIndices_eq (h : SameLength highs lows closes) (hp : 2 ≤ period)
    (hlong : period < closes.length) : ∃ z,
      directionalIndices (smoothed highs lows closes period) =
        List.replicate z 0 ++ dxValues highs lows closes period ∧
      (z = 0 ↔ ∃ tr ∈ (trueRanges highs lows closes).take period, tr ≠ 0) := by
  have htrs : ∀ tr ∈ trueRanges highs lows closes, 0 ≤ tr := trueRanges_nonneg
  have htake : ∀ tr ∈ (trueRanges highs lows closes).take period, 0 ≤ tr := fun tr htr =>
    htrs tr (List.mem_of_mem_take htr)
  obtain ⟨z, rest, hscan, hrest, hz⟩ := scanl_zeros hp
    (fun v hv => htrs v (List.mem_of_mem_drop hv)) (List.sum_nonneg htake)
  refine ⟨z, ?_, ?_⟩
  · have hmap : (smoothed highs lows closes period).map Smoothed.tr =
        runningSums (trueRanges highs lows closes) period := h.map_tr_smoothed
    rw [runningSums, hscan] at hmap
    obtain ⟨flat, moving, hsplit, hflat, hmoving⟩ := List.map_eq_append_iff.mp hmap
    have hnonneg : ∀ s ∈ smoothed highs lows closes period, s.Nonneg :=
      smoothed_nonneg (Nat.zero_lt_of_lt hp)
    have hzero : ∀ s ∈ flat, s.tr = 0 := fun s hs =>
      List.eq_of_mem_replicate (hflat ▸ List.mem_map_of_mem hs)
    have hpos : ∀ s ∈ moving, s.tr ≠ 0 := fun s hs =>
      (hrest _ (hmoving ▸ List.mem_map_of_mem hs)).ne'
    have hentries : dxEntries highs lows closes period = moving := by
      rw [h.dxEntries_eq hlong, hsplit, List.filter_append,
        List.filter_eq_nil_iff.mpr (by simpa using hzero),
        List.filter_eq_self.mpr (by simpa using hpos), List.nil_append]
    have hlength : flat.length = z := by
      rw [← List.length_map Smoothed.tr, hflat, List.length_replicate]
    rw [directionalIndices, dxValues, hentries, hsplit, List.map_append]
    congr 1
    · rw [← hlength]
      exact List.map_eq_replicate_iff.mpr fun s hs => if_pos (hzero s hs)
    · refine List.map_congr_left fun s hs => directionalIndex_eq (hnonneg s ?_) (hpos s hs)
      rw [hsplit]
      exact List.mem_append_right flat hs
  · rw [hz, Ne, sum_eq_zero_iff htake]
    push Not
    rfl

theorem dxValues_nonneg (h : SameLength highs lows closes) (hp : 0 < period)
    (hlong : period < closes.length) : ∀ v ∈ dxValues highs lows closes period, 0 ≤ v := by
  intro v hv
  obtain ⟨s, hs, rfl⟩ := List.mem_map.mp hv
  rw [h.dxEntries_eq hlong] at hs
  exact (smoothed_nonneg hp s (List.mem_of_mem_filter hs)).dxValue_mem.1

/-- With a period of one, the last value is the result. -/
theorem seeded_one (values : List ℚ) (last : ℚ) :
    seeded (1 / ((1 : ℕ) : ℚ)) 1 (values ++ [last]) = last := by
  cases values with
  | nil => simp [seeded, smooth]
  | cons v values =>
    rw [seeded, List.cons_append, List.drop_succ_cons, List.drop_zero, smooth_append, smooth_cons]
    simp [smooth]

theorem runningSums_one (tr : ℚ) (trs : List ℚ) : runningSums (tr :: trs) 1 = tr :: trs := by
  have hscan (trs : List ℚ) (seed : ℚ) :
      trs.scanl (fun prev v => prev - prev / ((1 : ℕ) : ℚ) + v) seed = seed :: trs := by
    induction trs generalizing seed with
    | nil => rfl
    | cons v trs ih =>
      rw [List.scanl_cons, ih]
      simp
  rw [runningSums, List.drop_succ_cons, List.drop_zero, hscan]
  simp

/-- The condition on a period of one: there is a range at the end, or nothing to be seen there. -/
theorem SameLength.adx_one_iff (h : SameLength highs lows closes) (hlong : 2 ≤ closes.length) :
    computeAdx highs lows closes 1 = .ok (Indicators.adx highs lows closes 1) ↔
      (trueRanges highs lows closes).getLast? ≠ some 0 ∨
        (dxValues highs lows closes 1).getLast? = some 0 := by
  have hmap : (smoothed highs lows closes 1).map Smoothed.tr = trueRanges highs lows closes := by
    rw [h.map_tr_smoothed]
    cases htrs : trueRanges highs lows closes with
    | nil =>
      have hlength := h.length_trueRanges
      rw [htrs, List.length_nil] at hlength
      omega
    | cons tr trs => exact runningSums_one tr trs
  have hsome : smoothed highs lows closes 1 ≠ [] := by
    intro hnil
    have hlength := h.length_smoothed (show 1 < closes.length from hlong)
    rw [hnil, List.length_nil] at hlength
    omega
  obtain ⟨init, s, hs⟩ : ∃ init s, smoothed highs lows closes 1 = init ++ [s] :=
    ⟨_, _, (List.dropLast_append_getLast hsome).symm⟩
  have hnonneg : s.Nonneg := smoothed_nonneg Nat.one_pos s (by rw [hs]; simp)
  have htr : (trueRanges highs lows closes).getLast? = some s.tr := by
    rw [← hmap, hs, List.map_append]
    exact List.getLast?_concat
  have hadx : Indicators.adx highs lows closes 1 =
      some (Indicators.directionalIndex s.tr s.plus s.minus) := by
    rw [h.adx_eq Nat.one_pos, if_neg (by omega), hs, directionalIndices, List.map_append]
    exact congrArg some (seeded_one _ _)
  have hengine : computeAdx highs lows closes 1 = .ok (dxValues highs lows closes 1).getLast? := by
    rw [h.computeAdx_eq Nat.one_pos, if_neg (by omega)]
    obtain hnil | ⟨values, v, hv⟩ := List.eq_nil_or_concat (dxValues highs lows closes 1)
    · rw [hnil]
      rfl
    · rw [hv, List.concat_eq_append, List.getLast?_concat, if_neg (by simp), seeded_one]
  have hvalues : dxValues highs lows closes 1 =
      ((init ++ [s]).filter fun s => s.tr ≠ 0).map Smoothed.dxValue := by
    rw [dxValues, h.dxEntries_eq hlong, hs]
  rw [hengine, hadx, Except.ok.injEq, htr, Ne, Option.some.injEq]
  by_cases hzero : s.tr = 0
  · rw [Indicators.directionalIndex, if_pos hzero]
    exact ⟨.inr, fun hor => hor.resolve_left (not_not.mpr hzero)⟩
  · refine iff_of_true ?_ (.inl hzero)
    rw [hvalues, List.filter_append, List.filter_cons_of_pos (by simpa using hzero),
      List.filter_nil, List.map_append, List.map_singleton, List.getLast?_concat,
      directionalIndex_eq hnonneg hzero]

/-- Where the two values of the ADX are the same. With a period of two or more, one of the first
true ranges is not zero, or the engine has values enough and all but the last of the first ones
are zero. -/
def AdxAgree (highs lows closes : List ℚ) (period : ℕ) : Prop :=
  closes.length < 2 * period ∨
    if period = 1 then
      (trueRanges highs lows closes).getLast? ≠ some 0 ∨
        (dxValues highs lows closes period).getLast? = some 0
    else
      (∃ tr ∈ (trueRanges highs lows closes).take period, tr ≠ 0) ∨
        period ≤ (dxValues highs lows closes period).length ∧
          ∀ v ∈ (dxValues highs lows closes period).take (period - 1), v = 0

theorem SameLength.adx_iff (h : SameLength highs lows closes) (hp : 0 < period) :
    computeAdx highs lows closes period = .ok (Indicators.adx highs lows closes period) ↔
      AdxAgree highs lows closes period := by
  by_cases hshort : closes.length < 2 * period
  · refine iff_of_true ?_ (.inl hshort)
    rw [h.computeAdx_eq hp, h.adx_eq hp, if_pos hshort, if_pos hshort]
  · rw [AdxAgree, or_iff_right hshort]
    by_cases hone : period = 1
    · subst hone
      rw [if_pos rfl]
      exact h.adx_one_iff (by omega)
    · have htwo : 2 ≤ period := by omega
      have hlong : period < closes.length := by omega
      obtain ⟨z, hall, hz⟩ := h.directionalIndices_eq htwo hlong
      have hlength : z + (dxValues highs lows closes period).length = closes.length - period := by
        rw [← h.length_smoothed hlong, ← List.length_replicate (n := z) (a := (0 : ℚ)),
          ← List.length_append, ← hall, directionalIndices, List.length_map]
      rw [if_neg hone, ← hz, h.computeAdx_eq hp, h.adx_eq hp, if_neg hshort, if_neg hshort, hall,
        Except.ok.injEq]
      by_cases hfew : (dxValues highs lows closes period).length < period
      · rw [if_pos hfew]
        refine iff_of_false (Option.some_ne_none _).symm ?_
        rintro (rfl | ⟨henough, -⟩)
        · omega
        · omega
      · rw [if_neg hfew, Option.some.injEq, eq_comm,
          seeded_zeros_iff htwo (dxValues_nonneg h hp hlong) (not_lt.mp hfew)]
        exact or_congr_right (and_iff_right (not_lt.mp hfew)).symm

end Adx

/-- EMA, ATR and VWAP of the two libraries are the same, and the ADX is where the engine passes
over nothing that would have changed it. -/
theorem indicators_agree (candles : List Candle) (period : ℕ) (hsane : ∀ c ∈ candles, c.Sane)
    (hp : 0 < period) :
    (candles ≠ [] → computeEma (closes candles) period =
      .ok (Indicators.emaLast (closes candles) period)) ∧
    computeAtr (highs candles) (lows candles) (closes candles) period =
      Indicators.atrWilder (highs candles) (lows candles) (closes candles) period ∧
    computeVwap candles =
      .ok (Indicators.vwap (highs candles) (lows candles) (closes candles) (volumes candles)) ∧
    (computeAdx (highs candles) (lows candles) (closes candles) period =
        .ok (Indicators.adx (highs candles) (lows candles) (closes candles) period) ↔
      AdxAgree (highs candles) (lows candles) (closes candles) period) := by
  refine ⟨fun hne => ?_, computeAtr_eq hp _ _ _, computeVwap_eq hsane,
    (sameLength candles).adx_iff hp⟩
  exact computeEma_eq (mt List.map_eq_nil_iff.mp hne) period

def flatCandle : Candle where
  openPrice := 100
  high := 100
  low := 100
  closePrice := 100
  volume := 10
  instrument := "INFY"
  market := "NSE"
  interval := "minute"
  dt := none

theorem flatCandle_sane : flatCandle.Sane := by
  constructor <;> decide

theorem indicators_agree_flat :
    (∀ c ∈ List.replicate 3 flatCandle, c.Sane) ∧ 0 < 2 ∧
      computeAtr (highs (List.replicate 3 flatCandle)) (lows (List.replicate 3 flatCandle))
          (closes (List.replicate 3 flatCandle)) 2 =
        Indicators.atrWilder (highs (List.replicate 3 flatCandle))
          (lows (List.replicate 3 flatCandle)) (closes (List.replicate 3 flatCandle)) 2 := by
  have hsane : ∀ c ∈ List.replicate 3 flatCandle, c.Sane := fun c hc =>
    (List.eq_of_mem_replicate hc).symm ▸ flatCandle_sane
  exact ⟨hsane, by decide, (indicators_agree _ 2 hsane (by decide)).2.1⟩

/-- On prices that do not move, the engine has no ADX and `_math` has zero; without a candle, the
engine's EMA raises an error. -/
theorem flat_prices_disagree :
    (∀ c ∈ List.replicate 28 flatCandle, c.Sane) ∧
      computeAdx (highs (List.replicate 28 flatCandle)) (lows (List.replicate 28 flatCandle))
        (closes (List.replicate 28 flatCandle)) 14 = .ok none ∧
      Indicators.adx (highs (List.replicate 28 flatCandle)) (lows (List.replicate 28 flatCandle))
        (closes (List.replicate 28 flatCandle)) 14 = some 0 ∧
      computeEma (closes []) 9 = .error .indexError ∧ Indicators.emaLast (closes []) 9 = none := by
  refine ⟨fun c hc => (List.eq_of_mem_replicate hc).symm ▸ flatCandle_sane, ?_, ?_, rfl, rfl⟩
  · decide +kernel
  · decide +kernel

end Features
end QuantEmbrace
