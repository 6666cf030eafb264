import QuantEmbrace.UniverseConfig

/-! The filter chain of a universe build. Each filter gives reasons against single symbols, and a
symbol without any passes. -/
namespace QuantEmbrace.Universe
open PythonValue
variable {S : Type}

structure FilterVerdict (S : Type) where
  symbol : S
  reason : ExclusionReason

/-- `for sym in candidates`, with what is held against each. -/
def forEach (check : S → Answer (List ExclusionReason)) : List S → Answer (List (FilterVerdict S))
  | [] => .ok []
  | sym :: rest => do
    let reasons ← check sym
    return reasons.map (FilterVerdict.mk sym) ++ (← forEach check rest)

/-- A filter that came to its end has nothing against a candidate just when its check has not. -/
theorem forEach_clear {check : S → Answer (List ExclusionReason)} {candidates : List S}
    {verdicts : List (FilterVerdict S)} (h : forEach check candidates = .ok verdicts) {sym : S}
    (hsym : sym ∈ candidates) :
    (∀ v ∈ verdicts, v.symbol ≠ sym) ↔ check sym = .ok [] := by
  classical
  have hreasons : ∀ (candidates : List S) (verdicts : List (FilterVerdict S)),
      forEach check candidates = .ok verdicts →
      (∀ sym ∈ candidates, ∃ reasons, check sym = .ok reasons) ∧
      ∀ v, v ∈ verdicts ↔ v.symbol ∈ candidates ∧ ∃ reasons, check v.symbol = .ok reasons ∧
        v.reason ∈ reasons := by
    intro candidates
    induction candidates with
    | nil =>
      intro verdicts h
      cases h
      simp
    | cons first rest ih =>
      intro verdicts h
      rw [forEach, Answer.bind_eq_ok] at h
      obtain ⟨reasons, hfirst, h⟩ := h
      obtain ⟨others, hrest, h⟩ := Answer.bind_eq_ok.mp h
      cases h
      obtain ⟨hall, hmem⟩ := ih others hrest
      refine ⟨?_, fun v => ?_⟩
      · intro sym hsym
        obtain rfl | hsym := List.mem_cons.mp hsym
        · exact ⟨reasons, hfirst⟩
        · exact hall sym hsym
      · rw [List.mem_append, hmem, List.mem_map, List.mem_cons]
        constructor
        · rintro (⟨reason, hreason, rfl⟩ | ⟨hv, hreason⟩)
          · exact ⟨.inl rfl, reasons, hfirst, hreason⟩
          · exact ⟨.inr hv, hreason⟩
        · rintro ⟨rfl | hv, own, hown, hreason⟩
          · rw [hfirst] at hown
            cases hown
            exact .inl ⟨v.reason, hreason, rfl⟩
          · exact .inr ⟨hv, own, hown, hreason⟩
  obtain ⟨hall, hmem⟩ := hreasons candidates verdicts h
  obtain ⟨reasons, hown⟩ := hall sym hsym
  constructor
  · intro hnone
    have hnil : reasons = [] := by
      refine List.eq_nil_iff_forall_not_mem.mpr fun reason hreason => ?_
      exact hnone ⟨sym, reason⟩ ((hmem _).mpr ⟨hsym, reasons, hown, hreason⟩) rfl
    rw [hown, hnil]
  · rintro hclear v hv rfl
    obtain ⟨-, own, hown, hreason⟩ := (hmem v).mp hv
    rw [hclear] at hown
    cases hown
    exact List.not_mem_nil hreason

theorem forEach_of_clear {check : S → Answer (List ExclusionReason)} {candidates : List S}
    (h : ∀ sym ∈ candidates, check sym = .ok []) : forEach check candidates = .ok [] := by
  induction candidates with
  | nil => rfl
  | cons first rest ih =>
    rw [List.forall_mem_cons] at h
    rw [forEach, h.1, ih h.2]
    rfl

/-- `policy.upper() == "EXCLUDE"` -/
def excludes (policy : Json) : Py Bool := do
  return (← policy.upper) = Text.of "EXCLUDE"

/-- `value.get(name, {}).get(mode.value, {})`, as a dictionary. -/
def modeEntries (name : String) (mode : UniverseMode) (entries : List (Text × Json)) :
    Py (List (Text × Json)) := do
  (Json.get mode.value (dict []) (← (Json.get name (dict []) entries).entries)).entries

section ExclusionList
variable [DecidableEq S]

def reasonMap : List (String × ExclusionReason) :=
  [("delisted", .delisted), ("suspended", .suspended), ("sme", .smeStock), ("etf", .etf),
    ("reit_invit", .reitOrInvit), ("bse_only", .bseOnly), ("emergency", .emergencyExclusion)]

def ExclusionListFilter.apply (source : DataSource S) (candidates : List S) :
    Answer (List (FilterVerdict S)) := do
  let exclusionLists ← source.getExclusionLists
  forEach (fun sym =>
    return ((reasonMap.find? fun e => decide (sym ∈ (exclusionLists.lookup e.1).getD ∅)).map
      Prod.snd).toList) candidates

/-- The union of what each index is said to hold. -/
def indexUnion (source : DataSource S) (reading : Reading) : List Json → Answer (Finset S)
  | [] => .ok ∅
  | index :: rest => do
    let symbols ← source.getIndexSymbols reading index
    return symbols ∪ (← indexUnion source reading rest)

def IndexMembershipFilter.apply (source : DataSource S) (requiredIndices : List Json)
    (candidates : List S) : Answer (List (FilterVerdict S)) := do
  let approvedSet ← indexUnion source .membership requiredIndices
  forEach (fun sym => return if sym ∈ approvedSet then [] else [.notInIndex]) candidates

end ExclusionList

section EquityType

/-- The series of a tradable equity. The filter names them and never looks at them. -/
def allowedSeries : List String := ["EQ", "BE"]

def blockedTypes : List String := ["MF", "SM", "N", "W", "IL"]

def EquityTypeFilter.check (source : DataSource S) (sym : S) : Answer (List ExclusionReason) := do
  match ← source.getSymbolMaster sym with
  | none => return [.symbolMasterMissing]
  | some master => return if master.series ∈ blockedTypes then [.notEquity] else []

def EquityTypeFilter.apply (source : DataSource S) (candidates : List S) :
    Answer (List (FilterVerdict S)) :=
  forEach (check source) candidates

end EquityType

section Surveillance
variable [DecidableEq S]

structure SurveillanceFilter where
  excludeAsm : Bool
  excludeGsm : Bool
  unavailableExcludes : Bool

/-- `if enabled: symbols = read()` -/
def readIf (enabled : Bool) (read : Answer (Finset S)) : Answer (Finset S) :=
  if enabled then read else .ok ∅

def SurveillanceFilter.check (f : SurveillanceFilter) (asmSet gsmSet : Finset S) (sym : S) :
    List ExclusionReason :=
  if f.excludeAsm ∧ sym ∈ asmSet then [.asmListed]
  else if f.excludeGsm ∧ sym ∈ gsmSet then [.gsmListed]
  else []

/-- One `try` stands around both reads, and the policy decides what a failure means. -/
def SurveillanceFilter.apply (f : SurveillanceFilter) (source : DataSource S)
    (candidates : List S) : Answer (List (FilterVerdict S)) :=
  let lists : Answer (Finset S × Finset S) := do
    let asmSet ← readIf f.excludeAsm source.getAsmSymbols
    let gsmSet ← readIf f.excludeGsm source.getGsmSymbols
    return (asmSet, gsmSet)
  match lists with
  | .ok (asmSet, gsmSet) => forEach (fun sym => return f.check asmSet gsmSet sym) candidates
  | .error e =>
    if e.isException then
      if f.unavailableExcludes then forEach (fun _ => return [.dataUnavailable]) candidates
      else .ok []
    else .error e

end Surveillance

/-- A figure that is there and breaks its bound is a reason; one that is missing is none. -/
def checkFigure (op : String) (breaks : JsonFloat → JsonFloat → Bool) (figure : Option Json)
    (bound : Json) (reason : ExclusionReason) : Py (List ExclusionReason) :=
  match figure with
  | none => .ok []
  | some x => do
    return if ← Json.compare op breaks x bound then [reason] else []

/-- `x < floor` -/
def below : Option Json → Json → ExclusionReason → Py (List ExclusionReason) :=
  checkFigure "<" JsonFloat.less

/-- `x > cap` -/
def above : Option Json → Json → ExclusionReason → Py (List ExclusionReason) :=
  checkFigure ">" fun x cap => cap.less x

/-- `x >= limit` -/
def reaches : Option Json → Json → ExclusionReason → Py (List ExclusionReason) :=
  checkFigure ">=" JsonFloat.notLess

/-- Metrics that are missing, or say so of themselves, are left to the policy. -/
def checkAvailable {M : Type} (available : M → Bool) (unavailableExcludes : Bool)
    (checkMetrics : M → Py (List ExclusionReason)) :
    Option M → Answer (List ExclusionReason)
  | some m =>
    if available m then Answer.ofPy (checkMetrics m)
    else .ok (if unavailableExcludes then [.dataUnavailable] else [])
  | none => .ok (if unavailableExcludes then [.dataUnavailable] else [])

theorem checkAvailable_clear {M : Type} {available : M → Bool}
    {checkMetrics : M → Py (List ExclusionReason)} {metrics : Option M} :
    checkAvailable available true checkMetrics metrics = .ok [] ↔
      ∃ m, metrics = some m ∧ available m = true ∧ checkMetrics m = .ok [] := by
  cases metrics with
  | none => simp [checkAvailable]
  | some m =>
    rw [checkAvailable]
    split
    · next h => simp [h, Answer.ofPy_eq_ok]
    · next h => simp [h]

section Liquidity

structure LiquidityFilter where
  cfg : List (Text × Json)
  unavailableExcludes : Bool

/-- `_mode_cfg(cfg, mode)` -/
def modeCfg (cfg : List (Text × Json)) (mode : UniverseMode) : Py (List (Text × Json)) := do
  let defaults ← (Json.get "defaults" (dict []) cfg).entries
  let overrides ← modeEntries "by_mode" mode cfg
  return Json.update defaults overrides

/-- The policy of the mode, or else the one the file gives all modes. -/
def policyOf (name default : String) (override cfg : List (Text × Json)) : Py Bool :=
  excludes ((Json.get name .null override).orElse (Json.get name (.string default) cfg))

def LiquidityFilter.new (host : Host S) (mode : UniverseMode) (configPath : Option String) :
    Py LiquidityFilter := do
  let fullCfg ← (host.loadYaml (configPath.getD defaultLiquidityYaml)).entries
  let cfg ← modeCfg fullCfg mode
  let modeOverride ← modeEntries "by_mode" mode fullCfg
  return {
    cfg := cfg
    unavailableExcludes :=
      ← policyOf "liquidity_unavailable_policy" "INCLUDE" modeOverride fullCfg }

/-- `_check_metrics` -/
def LiquidityFilter.checkMetrics (cfg : List (Text × Json)) (m : LiquidityMetrics) :
    Py (List ExclusionReason) := do
  let adv ← below (m.advCrores20d.map .float) (Json.get "min_adv_crores_20d" (real 5) cfg)
    .belowLiquidityAdv
  let volume ← below (m.advVolume20d.map .int) (Json.get "min_adv_volume_20d" (.int 50000) cfg)
    .belowLiquidityVolume
  let mcap ← below (m.freeFloatMcapCrores.map .float)
    (Json.get "min_free_float_mcap_crores" (real 500) cfg) .belowFreeFloatMcap
  let spread ← above (m.avgBidAskSpreadBps.map .float)
    (Json.get "max_bid_ask_spread_bps" (real 100) cfg) .spreadTooWide
  let days ← below (m.activeDaysLast20.map .int) (Json.get "min_active_days_last_20" (.int 15) cfg)
    .insufficientActiveDays
  let delivery ← below (m.deliveryPct20d.map .float)
    (Json.get "min_delivery_pct" (real (1 / 10)) cfg) .lowDeliveryPct
  let zero ← above (m.zeroVolumeDaysLast20.map .int)
    (Json.get "max_zero_volume_days_last_20" (.int 2) cfg) .poorPriceDiscovery
  return adv ++ volume ++ mcap ++ spread ++ days ++ delivery ++ zero

def LiquidityFilter.check (f : LiquidityFilter) (source : DataSource S) (asOf : Date) (sym : S) :
    Answer (List ExclusionReason) := do
  checkAvailable LiquidityMetrics.dataAvailable f.unavailableExcludes (checkMetrics f.cfg)
    (← source.getLiquidityMetrics sym asOf)

def LiquidityFilter.apply (f : LiquidityFilter) (source : DataSource S) (candidates : List S)
    (asOf : Date) : Answer (List (FilterVerdict S)) :=
  if (Json.get "enabled" (.bool true) f.cfg).truthy then forEach (f.check source asOf) candidates
  else .ok []

end Liquidity

section Risk

structure RiskFilter where
  mode : UniverseMode
  fullCfg : List (Text × Json)

def RiskFilter.new (host : Host S) (mode : UniverseMode) (configPath : Option String) :
    Py RiskFilter := do
  return ⟨mode, ← (host.loadYaml (configPath.getD defaultRiskYaml)).entries⟩

/-- `_get(section, key, default)` -/
def RiskFilter.get (f : RiskFilter) (sec key : String) (default : Json) : Py Json := do
  let secCfg ← (Json.get sec (dict []) f.fullCfg).entries
  let override ← modeEntries "by_mode" f.mode secCfg
  return Json.get key (Json.get key default secCfg) override

/-- The check of an enabled section. -/
def RiskFilter.checkSection (f : RiskFilter) (sec key : String) (default : Json)
    (breaks : Json → Py (List ExclusionReason)) : Py (List ExclusionReason) := do
  if (Json.get "enabled" (.bool true) (← (Json.get sec (dict []) f.fullCfg).entries)).truthy then
    breaks (← f.get sec key default)
  else return []

/-- `_check_metrics` -/
def RiskFilter.checkMetrics (f : RiskFilter) (m : RiskMetrics) : Py (List ExclusionReason) := do
  let penny ← f.checkSection "penny_stock" "min_price_inr" (real 10) fun floor =>
    below (m.lastClosePrice.map .float) floor .pennyStock
  let circuits ← f.checkSection "circuit_frequency" "max_circuit_hits_last_20d" (.int 3)
    fun maxCircuits => reaches (m.circuitHitsLast20d.map .int) maxCircuits .circuitFrequencyHigh
  let volatility ← f.checkSection "volatility" "max_daily_volatility_pct" (real 8) fun maxVol =>
    above (m.dailyVolatilityPct20d.map .float) maxVol .abnormalVolatility
  let lowFloat ← f.checkSection "low_float" "min_free_float_pct" (real 15) fun minFf =>
    below (m.freeFloatPct.map .float) minFf .lowFloat
  return (if m.isAsmListed then [.asmListed] else []) ++
    (if m.isGsmListed then [.gsmListed] else []) ++ penny ++ circuits ++ volatility ++ lowFloat

def RiskFilter.check (f : RiskFilter) (unavailableExcludes : Bool) (source : DataSource S)
    (asOf : Date) (sym : S) : Answer (List ExclusionReason) := do
  checkAvailable RiskMetrics.dataAvailable unavailableExcludes f.checkMetrics
    (← source.getRiskMetrics sym asOf)

def RiskFilter.apply (f : RiskFilter) (source : DataSource S) (candidates : List S)
    (asOf : Date) : Answer (List (FilterVerdict S)) := do
  let byMode ← Answer.ofPy (modeEntries "risk_metrics_by_mode" f.mode f.fullCfg)
  let excluded ← Answer.ofPy
    (policyOf "risk_metrics_unavailable_policy" "INCLUDE" byMode f.fullCfg)
  forEach (f.check excluded source asOf) candidates

end Risk

section CorporateAction

structure CorporateActionFilter where
  mode : UniverseMode
  caCfg : List (Text × Json)

def windowByAction : CorporateActionType → Option String
  | .stockSplit => some "exclude_post_split_days"
  | .bonusIssue => some "exclude_post_bonus_days"
  | .merger | .demerger => some "exclude_post_merger_days"
  | _ => none

def CorporateActionFilter.new (host : Host S) (mode : UniverseMode) (configPath : Option String) :
    Py CorporateActionFilter := do
  let cfg ← (host.loadYaml (configPath.getD defaultRiskYaml)).entries
  return ⟨mode, ← (Json.get "corporate_action_window" (dict []) cfg).entries⟩

/-- The first action inside its window ends the search. -/
def CorporateActionFilter.checkActions (host : Host S) (caCfg : List (Text × Json)) (asOf : Date) :
    List CorporateActionEvent → Py (List ExclusionReason)
  | [] => .ok []
  | action :: rest =>
    match windowByAction action.actionType with
    | none => checkActions host caCfg asOf rest
    | some windowKey => do
      let windowDays ← (Json.get windowKey (.int 5) caCfg).toInt host.intOfText host.repr
      let delta := asOf - action.exDate
      if 0 ≤ delta ∧ delta ≤ windowDays then return [.corporateActionWindow]
      else checkActions host caCfg asOf rest

def CorporateActionFilter.check (host : Host S) (f : CorporateActionFilter)
    (unavailableExcludes : Bool) (source : DataSource S) (asOf : Date) (sym : S) :
    Answer (List ExclusionReason) :=
  match source.getCorporateActions sym 60 with
  | .ok actions => Answer.ofPy (checkActions host f.caCfg asOf actions)
  | .error e =>
    if e.isException then .ok (if unavailableExcludes then [.dataUnavailable] else [])
    else .error e

def CorporateActionFilter.apply (host : Host S) (f : CorporateActionFilter)
    (source : DataSource S) (candidates : List S) (asOf : Date) :
    Answer (List (FilterVerdict S)) := do
  if (Json.get "enabled" (.bool true) f.caCfg).truthy then
    let byMode ← Answer.ofPy (modeEntries "by_mode" f.mode f.caCfg)
    let excluded ← Answer.ofPy (policyOf "data_source_unavailable_policy" "WARN" byMode f.caCfg)
    forEach (f.check host excluded source asOf) candidates
  else return []

end CorporateAction

end QuantEmbrace.Universe
