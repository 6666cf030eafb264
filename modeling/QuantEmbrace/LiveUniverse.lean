import QuantEmbrace.UniverseBuilder

/-! What a live build holds against a symbol, with the repository's files in their places: every
filter is reduced to the answers of the data source that it lets pass. -/
namespace QuantEmbrace.Universe
open PythonValue
variable {S : Type} {host : Host S}

section Configured

theorem loadYaml_eq {path : String} {pairs : List (String × Json)}
    (h : host.files path = some (dict pairs)) (hne : pairs ≠ []) :
    host.loadYaml path = dict pairs := by
  have htruthy : (dict pairs).truthy = true := by
    cases pairs with
    | nil => exact absurd rfl hne
    | cons => rfl
  rw [Host.loadYaml, h]
  exact if_pos htruthy

theorem getModeCfg_live (hfiles : DefaultPlaces host.files) (source : DataSource S) :
    UniverseBuilder.getModeCfg host (.new source none none none) .liveAdvanced =
      .ok (Json.ofPairs (modeSection 200 20 ["NIFTY_200"])) := by
  rw [UniverseBuilder.getModeCfg, show (UniverseBuilder.new source none none none).modesPath =
    defaultModesYaml from rfl, hfiles.modes]
  rfl

/-- No file of risk filters is read here: the policy is the one of the code. -/
theorem surveillanceFilter_live (source : DataSource S) :
    UniverseBuilder.surveillanceFilter host (.new source none none none) .liveAdvanced =
      .ok ⟨true, true, false⟩ := rfl

/-- The defaults of the liquidity file under the values for live trading. -/
def liquidityCfg : List (Text × Json) :=
  Json.update (Json.ofPairs liquidityDefaults) (Json.ofPairs liquidityLive)

theorem liquidityCfg_get {name : String} {default value : Json}
    (h : ((liquidityLive.lookup name).or (liquidityDefaults.lookup name)).getD default = value) :
    Json.get name default liquidityCfg = value :=
  (Json.get_update_ofPairs (by decide) name default liquidityDefaults).trans h

theorem liquidityFilter_live (hfiles : DefaultPlaces host.files) :
    LiquidityFilter.new host .liveAdvanced none = .ok ⟨liquidityCfg, true⟩ := by
  rw [LiquidityFilter.new, show (none : Option String).getD defaultLiquidityYaml =
    defaultLiquidityYaml from rfl, loadYaml_eq hfiles.liquidity (List.cons_ne_nil _ _)]
  rfl

theorem riskFilter_live (hfiles : DefaultPlaces host.files) :
    RiskFilter.new host .liveAdvanced none = .ok ⟨.liveAdvanced, Json.ofPairs riskFilters⟩ := by
  rw [RiskFilter.new, show (none : Option String).getD defaultRiskYaml = defaultRiskYaml from rfl,
    loadYaml_eq hfiles.risk (List.cons_ne_nil _ _)]
  rfl

theorem corporateActionFilter_live (hfiles : DefaultPlaces host.files) :
    CorporateActionFilter.new host .liveAdvanced none =
      .ok ⟨.liveAdvanced, Json.ofPairs corporateActionWindow⟩ := by
  rw [CorporateActionFilter.new, show (none : Option String).getD defaultRiskYaml =
    defaultRiskYaml from rfl, loadYaml_eq hfiles.risk (List.cons_ne_nil _ _)]
  rfl

end Configured

section Figures
variable {reason : ExclusionReason} {bound : Json}

theorem number_float (x : JsonFloat) : (Json.float x).number = some x := rfl

theorem number_int (n : ℤ) : (Json.int n).number = some (.finite n) := rfl

/-- A check of a figure always comes to an end when its bound is a number. -/
theorem checkFigure_reasons {α : Type} {f : α → Json} {g : α → JsonFloat}
    (hf : ∀ x, (f x).number = some (g x)) (op : String) (breaks : JsonFloat → JsonFloat → Bool)
    (figure : Option α) {y : JsonFloat} (hbound : bound.number = some y) :
    ∃ reasons, checkFigure op breaks (figure.map f) bound reason = .ok reasons ∧
      (reasons = [] ↔ ∀ x ∈ figure, breaks (g x) y = false) := by
  cases figure with
  | none => exact ⟨[], rfl, by simp⟩
  | some x =>
    refine ⟨if breaks (g x) y then [reason] else [], ?_, by simp⟩
    rw [Option.map_some, checkFigure, Json.compare_eq (hf x) hbound]
    rfl

theorem below_float (figure : Option JsonFloat) {q : ℚ} (hbound : bound = real q) :
    ∃ reasons, below (figure.map .float) bound reason = .ok reasons ∧
      (reasons = [] ↔ ∀ x ∈ figure, x.lt q = false) := by
  subst hbound
  obtain ⟨reasons, hrun, hnil⟩ := checkFigure_reasons number_float "<" JsonFloat.less figure
    (number_float (.finite q))
  exact ⟨reasons, hrun, by simpa only [JsonFloat.less_finite] using hnil⟩

theorem above_float (figure : Option JsonFloat) {q : ℚ} (hbound : bound = real q) :
    ∃ reasons, above (figure.map .float) bound reason = .ok reasons ∧
      (reasons = [] ↔ ∀ x ∈ figure, x.gt q = false) := by
  subst hbound
  obtain ⟨reasons, hrun, hnil⟩ := checkFigure_reasons number_float ">"
    (fun x cap => cap.less x) figure (number_float (.finite q))
  exact ⟨reasons, hrun, by simpa only [JsonFloat.finite_less] using hnil⟩

theorem below_int (figure : Option ℤ) {k : ℤ} (hbound : bound = .int k) :
    ∃ reasons, below (figure.map .int) bound reason = .ok reasons ∧
      (reasons = [] ↔ ∀ n ∈ figure, k ≤ n) := by
  subst hbound
  obtain ⟨reasons, hrun, hnil⟩ := checkFigure_reasons number_int "<" JsonFloat.less figure
    (number_int k)
  refine ⟨reasons, hrun, hnil.trans ?_⟩
  simp [JsonFloat.less]

theorem above_int (figure : Option ℤ) {k : ℤ} (hbound : bound = .int k) :
    ∃ reasons, above (figure.map .int) bound reason = .ok reasons ∧
      (reasons = [] ↔ ∀ n ∈ figure, n ≤ k) := by
  subst hbound
  obtain ⟨reasons, hrun, hnil⟩ := checkFigure_reasons number_int ">"
    (fun x cap => cap.less x) figure (number_int k)
  refine ⟨reasons, hrun, hnil.trans ?_⟩
  simp [JsonFloat.less]

theorem reaches_int (figure : Option ℤ) {k : ℤ} (hbound : bound = .int k) :
    ∃ reasons, reaches (figure.map .int) bound reason = .ok reasons ∧
      (reasons = [] ↔ ∀ n ∈ figure, n < k) := by
  subst hbound
  obtain ⟨reasons, hrun, hnil⟩ := checkFigure_reasons number_int ">=" JsonFloat.notLess figure
    (number_int k)
  refine ⟨reasons, hrun, hnil.trans ?_⟩
  simp [JsonFloat.notLess, JsonFloat.less]

end Figures

section Metrics
variable (source : DataSource S) (date : Date) (sym : S)

/-- Every liquidity figure that is there keeps the bound that is read for it. -/
structure LiquidityPassed (m : LiquidityMetrics) : Prop where
  advCrores20d : ∀ x ∈ m.advCrores20d, x.lt 25 = false
  advVolume20d : ∀ n ∈ m.advVolume20d, 150000 ≤ n
  freeFloatMcapCrores : ∀ x ∈ m.freeFloatMcapCrores, x.lt 2000 = false
  avgBidAskSpreadBps : ∀ x ∈ m.avgBidAskSpreadBps, x.gt 40 = false
  activeDaysLast20 : ∀ n ∈ m.activeDaysLast20, 18 ≤ n
  deliveryPct20d : ∀ x ∈ m.deliveryPct20d, x.lt (2 / 10) = false
  zeroVolumeDaysLast20 : ∀ n ∈ m.zeroVolumeDaysLast20, n ≤ 2

theorem liquidity_clear (m : LiquidityMetrics) :
    LiquidityFilter.checkMetrics liquidityCfg m = .ok [] ↔ LiquidityPassed m := by
  obtain ⟨adv, hadv, hadvNil⟩ := @below_float .belowLiquidityAdv
    (Json.get "min_adv_crores_20d" (real 5) liquidityCfg) m.advCrores20d 25
    (liquidityCfg_get rfl)
  obtain ⟨volume, hvolume, hvolumeNil⟩ := @below_int .belowLiquidityVolume
    (Json.get "min_adv_volume_20d" (.int 50000) liquidityCfg) m.advVolume20d 150000
    (liquidityCfg_get rfl)
  obtain ⟨mcap, hmcap, hmcapNil⟩ := @below_float .belowFreeFloatMcap
    (Json.get "min_free_float_mcap_crores" (real 500) liquidityCfg) m.freeFloatMcapCrores 2000
    (liquidityCfg_get rfl)
  obtain ⟨spread, hspread, hspreadNil⟩ := @above_float .spreadTooWide
    (Json.get "max_bid_ask_spread_bps" (real 100) liquidityCfg) m.avgBidAskSpreadBps 40
    (liquidityCfg_get rfl)
  obtain ⟨days, hdays, hdaysNil⟩ := @below_int .insufficientActiveDays
    (Json.get "min_active_days_last_20" (.int 15) liquidityCfg) m.activeDaysLast20 18
    (liquidityCfg_get rfl)
  obtain ⟨delivery, hdelivery, hdeliveryNil⟩ := @below_float .lowDeliveryPct
    (Json.get "min_delivery_pct" (real (1 / 10)) liquidityCfg) m.deliveryPct20d (2 / 10)
    (liquidityCfg_get rfl)
  obtain ⟨zero, hzero, hzeroNil⟩ := @above_int .poorPriceDiscovery
    (Json.get "max_zero_volume_days_last_20" (.int 2) liquidityCfg) m.zeroVolumeDaysLast20 2
    (liquidityCfg_get rfl)
  have hrun : LiquidityFilter.checkMetrics liquidityCfg m =
      .ok (adv ++ volume ++ mcap ++ spread ++ days ++ delivery ++ zero) := by
    rw [LiquidityFilter.checkMetrics, hadv, hvolume, hmcap, hspread, hdays, hdelivery, hzero]
    rfl
  rw [hrun, Except.ok.injEq]
  simp only [List.append_eq_nil_iff, hadvNil, hvolumeNil, hmcapNil, hspreadNil, hdaysNil,
    hdeliveryNil, hzeroNil]
  constructor
  · rintro ⟨⟨⟨⟨⟨⟨hadv, hvolume⟩, hmcap⟩, hspread⟩, hdays⟩, hdelivery⟩, hzero⟩
    exact ⟨hadv, hvolume, hmcap, hspread, hdays, hdelivery, hzero⟩
  · rintro ⟨hadv, hvolume, hmcap, hspread, hdays, hdelivery, hzero⟩
    exact ⟨⟨⟨⟨⟨⟨hadv, hvolume⟩, hmcap⟩, hspread⟩, hdays⟩, hdelivery⟩, hzero⟩

theorem liquidity_check : LiquidityFilter.check ⟨liquidityCfg, true⟩ source date sym = .ok [] ↔
    ∃ m, source.getLiquidityMetrics sym date = .ok (some m) ∧ m.dataAvailable = true ∧
      LiquidityPassed m := by
  rw [LiquidityFilter.check, Answer.bind_eq_ok]
  simp only [checkAvailable_clear, liquidity_clear]
  constructor
  · rintro ⟨_, hanswer, m, rfl, hpassed⟩
    exact ⟨m, hanswer, hpassed⟩
  · rintro ⟨m, hanswer, hpassed⟩
    exact ⟨some m, hanswer, m, rfl, hpassed⟩

/-- Every risk figure that is there keeps the bound that is read for it. -/
structure RiskPassed (m : RiskMetrics) : Prop where
  notAsm : m.isAsmListed = false
  notGsm : m.isGsmListed = false
  lastClosePrice : ∀ x ∈ m.lastClosePrice, x.lt 30 = false
  circuitHitsLast20d : ∀ n ∈ m.circuitHitsLast20d, n < 2
  dailyVolatilityPct20d : ∀ x ∈ m.dailyVolatilityPct20d, x.gt 6 = false
  freeFloatPct : ∀ x ∈ m.freeFloatPct, x.lt 20 = false

def liveRisk : RiskFilter := ⟨.liveAdvanced, Json.ofPairs riskFilters⟩

theorem risk_clear (m : RiskMetrics) : liveRisk.checkMetrics m = .ok [] ↔ RiskPassed m := by
  obtain ⟨penny, hpenny, hpennyNil⟩ := @below_float .pennyStock (real 30) m.lastClosePrice 30 rfl
  obtain ⟨circuits, hcircuits, hcircuitsNil⟩ := @reaches_int .circuitFrequencyHigh (.int 2)
    m.circuitHitsLast20d 2 rfl
  obtain ⟨volatility, hvolatility, hvolatilityNil⟩ := @above_float .abnormalVolatility (real 6)
    m.dailyVolatilityPct20d 6 rfl
  obtain ⟨lowFloat, hlowFloat, hlowFloatNil⟩ := @below_float .lowFloat (real 20)
    m.freeFloatPct 20 rfl
  have hsections : ∀ breaks : Json → Py (List ExclusionReason),
      liveRisk.checkSection "penny_stock" "min_price_inr" (real 10) breaks = breaks (real 30) ∧
      liveRisk.checkSection "circuit_frequency" "max_circuit_hits_last_20d" (.int 3) breaks =
        breaks (.int 2) ∧
      liveRisk.checkSection "volatility" "max_daily_volatility_pct" (real 8) breaks =
        breaks (real 6) ∧
      liveRisk.checkSection "low_float" "min_free_float_pct" (real 15) breaks =
        breaks (real 20) := by
    intro breaks
    simp only [RiskFilter.checkSection, RiskFilter.get, modeEntries, liveRisk, Json.get_ofPairs]
    exact ⟨rfl, rfl, rfl, rfl⟩
  have hrun : liveRisk.checkMetrics m = .ok ((if m.isAsmListed then [.asmListed] else []) ++
      (if m.isGsmListed then [.gsmListed] else []) ++ penny ++ circuits ++ volatility ++
      lowFloat) := by
    rw [RiskFilter.checkMetrics, (hsections _).1, (hsections _).2.1, (hsections _).2.2.1,
      (hsections _).2.2.2, hpenny, hcircuits, hvolatility, hlowFloat]
    rfl
  have hlisted : ∀ (listed : Bool) (reason : ExclusionReason),
      (if listed then [reason] else []) = [] ↔ listed = false := by
    intro listed reason
    cases listed <;> simp
  rw [hrun, Except.ok.injEq]
  simp only [List.append_eq_nil_iff, hlisted, hpennyNil, hcircuitsNil, hvolatilityNil,
    hlowFloatNil]
  constructor
  · rintro ⟨⟨⟨⟨⟨hasm, hgsm⟩, hpenny⟩, hcircuits⟩, hvolatility⟩, hlowFloat⟩
    exact ⟨hasm, hgsm, hpenny, hcircuits, hvolatility, hlowFloat⟩
  · rintro ⟨hasm, hgsm, hpenny, hcircuits, hvolatility, hlowFloat⟩
    exact ⟨⟨⟨⟨⟨hasm, hgsm⟩, hpenny⟩, hcircuits⟩, hvolatility⟩, hlowFloat⟩

theorem risk_check : liveRisk.check true source date sym = .ok [] ↔
    ∃ m, source.getRiskMetrics sym date = .ok (some m) ∧ m.dataAvailable = true ∧
      RiskPassed m := by
  rw [RiskFilter.check, Answer.bind_eq_ok]
  simp only [checkAvailable_clear, risk_clear]
  constructor
  · rintro ⟨_, hanswer, m, rfl, hpassed⟩
    exact ⟨m, hanswer, hpassed⟩
  · rintro ⟨m, hanswer, hpassed⟩
    exact ⟨some m, hanswer, m, rfl, hpassed⟩

end Metrics

section Records
variable (source : DataSource S) (date : Date) {sym : S}

theorem equity_check : EquityTypeFilter.check source sym = .ok [] ↔
    ∃ master, source.getSymbolMaster sym = .ok (some master) ∧ master.series ∉ blockedTypes := by
  rw [EquityTypeFilter.check, Answer.bind_eq_ok]
  constructor
  · rintro ⟨answer, hanswer, hcheck⟩
    cases answer with
    | none => cases hcheck
    | some master =>
      refine ⟨master, hanswer, fun hblocked => ?_⟩
      dsimp only at hcheck
      rw [if_pos hblocked] at hcheck
      cases hcheck
  · rintro ⟨master, hanswer, hseries⟩
    refine ⟨some master, hanswer, ?_⟩
    dsimp only
    rw [if_neg hseries]
    rfl

/-- The days after its date that an action keeps a symbol out. -/
def exclusionWindow : CorporateActionType → Option ℤ
  | .stockSplit | .bonusIssue => some 5
  | .merger | .demerger => some 10
  | _ => none

def InWindow (action : CorporateActionEvent) : Prop :=
  ∃ days ∈ exclusionWindow action.actionType,
    0 ≤ date - action.exDate ∧ date - action.exDate ≤ days

variable (host) in
theorem windowDays_eq {actionType : CorporateActionType} {windowKey : String}
    (h : windowByAction actionType = some windowKey) :
    ∃ days, exclusionWindow actionType = some days ∧
      (Json.get windowKey (.int 5) (Json.ofPairs corporateActionWindow)).toInt host.intOfText
        host.repr = .ok days := by
  have hread : ∀ days : ℤ, (corporateActionWindow.lookup windowKey).getD (.int 5) = .int days →
      (Json.get windowKey (.int 5) (Json.ofPairs corporateActionWindow)).toInt host.intOfText
        host.repr = .ok days := by
    intro days hdays
    rw [Json.get_ofPairs, hdays]
    rfl
  cases actionType <;> cases h
  · exact ⟨5, rfl, hread 5 rfl⟩
  · exact ⟨5, rfl, hread 5 rfl⟩
  · exact ⟨10, rfl, hread 10 rfl⟩
  · exact ⟨10, rfl, hread 10 rfl⟩

theorem exclusionWindow_eq_none {actionType : CorporateActionType}
    (h : windowByAction actionType = none) : exclusionWindow actionType = none := by
  cases actionType <;> first | rfl | cases h

theorem actions_clear (actions : List CorporateActionEvent) :
    CorporateActionFilter.checkActions host (Json.ofPairs corporateActionWindow) date actions =
      .ok [] ↔ ∀ action ∈ actions, ¬InWindow date action := by
  induction actions with
  | nil => exact ⟨fun _ _ h => absurd h List.not_mem_nil, fun _ => rfl⟩
  | cons action actions ih =>
    rw [List.forall_mem_cons, CorporateActionFilter.checkActions]
    split
    · next hkey =>
      have hnone := exclusionWindow_eq_none hkey
      rw [ih, InWindow, hnone]
      simp
    · next windowKey hkey =>
      obtain ⟨days, hdays, hread⟩ := windowDays_eq host hkey
      have hwindow : InWindow date action ↔
          0 ≤ date - action.exDate ∧ date - action.exDate ≤ days := by
        rw [InWindow, hdays]
        simp
      rw [PythonValue.bind_eq_ok]
      constructor
      · rintro ⟨n, hn, hrest⟩
        rw [hread] at hn
        cases hn
        dsimp only at hrest
        split at hrest
        · cases hrest
        · next hout => exact ⟨fun hin => hout (hwindow.mp hin), ih.mp hrest⟩
      · rintro ⟨hout, hrest⟩
        refine ⟨days, hread, ?_⟩
        dsimp only
        rw [if_neg fun hin => hout (hwindow.mpr hin)]
        exact ih.mpr hrest

theorem corporateAction_check :
    CorporateActionFilter.check host ⟨.liveAdvanced, Json.ofPairs corporateActionWindow⟩ true source
      date sym = .ok [] ↔
    ∃ actions, source.getCorporateActions sym 60 = .ok actions ∧
      ∀ action ∈ actions, ¬InWindow date action := by
  rw [CorporateActionFilter.check]
  split
  · next actions hactions =>
    rw [Answer.ofPy_eq_ok, actions_clear, hactions]
    simp
  · next e he =>
    rw [he]
    split <;> simp

end Records

section Surveillance
variable [DecidableEq S] {source : DataSource S} {sym : S}

/-- With the policy to go on, the lists count only where both could be read. -/
theorem surveillance_clear {candidates : List S} {verdicts : List (FilterVerdict S)}
    (h : SurveillanceFilter.apply ⟨true, true, false⟩ source candidates = .ok verdicts)
    (hsym : sym ∈ candidates) :
    (∀ v ∈ verdicts, v.symbol ≠ sym) ↔ ∀ asm gsm, source.getAsmSymbols = .ok asm →
      source.getGsmSymbols = .ok gsm → sym ∉ asm ∧ sym ∉ gsm := by
  have hfailed : ∀ e : Raised,
      (if e.isException then (if (false : Bool) then
          forEach (fun _ => return [.dataUnavailable]) candidates else .ok []) else .error e :
        Answer (List (FilterVerdict S))) = .ok verdicts → ∀ v ∈ verdicts, v.symbol ≠ sym := by
    intro e he
    split at he
    · cases he
      simp
    · cases he
  have hcheck : ∀ asm gsm : Finset S,
      SurveillanceFilter.check ⟨true, true, false⟩ asm gsm sym = [] ↔ sym ∉ asm ∧ sym ∉ gsm := by
    intro asm gsm
    rw [SurveillanceFilter.check]
    by_cases hasm : sym ∈ asm <;> by_cases hgsm : sym ∈ gsm <;> simp [hasm, hgsm]
  cases hasm : source.getAsmSymbols with
  | error e =>
    rw [SurveillanceFilter.apply, readIf, hasm] at h
    exact iff_of_true (hfailed e h) fun _ _ he => nomatch he
  | ok asm =>
    cases hgsm : source.getGsmSymbols with
    | error e =>
      rw [SurveillanceFilter.apply, readIf, readIf, hasm, hgsm] at h
      exact iff_of_true (hfailed e h) fun _ _ _ he => nomatch he
    | ok gsm =>
      rw [SurveillanceFilter.apply, readIf, readIf, hasm, hgsm] at h
      refine (forEach_clear h hsym).trans ?_
      constructor
      · intro hclear _ _ hasm hgsm
        cases hasm
        cases hgsm
        exact (hcheck asm gsm).mp (Except.ok.inj hclear)
      · intro hclear
        exact congrArg Except.ok ((hcheck asm gsm).mpr (hclear asm gsm rfl rfl))

end Surveillance

end QuantEmbrace.Universe
