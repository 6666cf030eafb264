import QuantEmbrace.UniverseFilters

/-! The build of a snapshot from the filter chain, and the validator an engine makes of it when it
starts. -/
namespace QuantEmbrace.Universe
open PythonValue
variable {S : Type}

structure UniverseBuilder (S : Type) where
  dataSource : DataSource S
  modesPath : String
  liqPath : Option String
  riskPath : Option String

/-- `path or None` -/
def givenPath (path : Option String) : Option String := path.filter (· ≠ "")

/-- Only the path of the modes has its default here. -/
def UniverseBuilder.new (dataSource : DataSource S)
    (modesConfigPath liquidityConfigPath riskConfigPath : Option String) : UniverseBuilder S where
  dataSource := dataSource
  modesPath := (givenPath modesConfigPath).getD defaultModesYaml
  liqPath := givenPath liquidityConfigPath
  riskPath := givenPath riskConfigPath

namespace UniverseBuilder
variable (host : Host S) (b : UniverseBuilder S)

/-- `_get_mode_cfg` -/
def getModeCfg (mode : UniverseMode) : Answer (List (Text × Json)) :=
  match host.files b.modesPath with
  | none => .error (.snapshotError ("universe_modes.yaml not found at " ++ b.modesPath ++
      ". Copy configs/universe_modes.yaml and configure index membership."))
  | some content => do
    let cfg ← Answer.ofPy (content.orElse (dict [])).entries
    let modes ← Answer.ofPy (Json.get "modes" (dict []) cfg).entries
    match Json.get mode.value .null modes with
    | .null => .error (.snapshotError ("Mode '" ++ mode.value ++ "' not found in " ++
        b.modesPath ++ ". Add it to the modes section."))
    | found => Answer.ofPy found.entries

/-- The indices a mode draws its candidates from. -/
def indices (modeCfg : List (Text × Json)) : Answer (List Json) :=
  Answer.ofPy (Json.get "index_membership" (.list []) modeCfg).iterate

/-- The policies of the fourth filter, from a file that is read only where its path was given. -/
def surveillanceFilter (mode : UniverseMode) : Py SurveillanceFilter := do
  let riskYaml ← match b.riskPath with
    | some path => (host.loadYaml path).entries
    | none => .ok []
  let survCfg ← (Json.get "surveillance" (dict []) riskYaml).entries
  let byMode ← modeEntries "by_mode" mode survCfg
  return {
    excludeAsm := (Json.get "exclude_asm" (.bool true) survCfg).truthy
    excludeGsm := (Json.get "exclude_gsm" (.bool true) survCfg).truthy
    unavailableExcludes := ← policyOf "data_source_unavailable_policy" "WARN" byMode survCfg }

/-- A filter that a mode can switch off. -/
def applied (switch : String) (modeCfg : List (Text × Json))
    (filter : Answer (List (FilterVerdict S))) : Answer (List (FilterVerdict S)) :=
  if (Json.get switch (.bool true) modeCfg).truthy then filter else .ok []

variable [LinearOrder S]

/-- The seven filters in their order, each over all candidates. -/
def runFilters (mode : UniverseMode) (tradingDate : Date) (modeCfg : List (Text × Json))
    (candidates : List S) : Answer (List (FilterVerdict S)) := do
  let excluded ← ExclusionListFilter.apply b.dataSource candidates
  let outside ← IndexMembershipFilter.apply b.dataSource (← indices modeCfg) candidates
  let untyped ← EquityTypeFilter.apply b.dataSource candidates
  let surveillance ← Answer.ofPy (surveillanceFilter host b mode)
  let watched ← surveillance.apply b.dataSource candidates
  let illiquid ← applied "apply_liquidity_filters" modeCfg do
    (← Answer.ofPy (LiquidityFilter.new host mode b.liqPath)).apply b.dataSource candidates
      tradingDate
  let risky ← applied "apply_risk_filters" modeCfg do
    (← Answer.ofPy (RiskFilter.new host mode b.riskPath)).apply b.dataSource candidates tradingDate
  let adjusted ← applied "apply_corporate_action_filters" modeCfg do
    (← Answer.ofPy (CorporateActionFilter.new host mode b.riskPath)).apply host b.dataSource
      candidates tradingDate
  return excluded ++ outside ++ untyped ++ watched ++ illiquid ++ risky ++ adjusted

/-- Where `[:n]` and `[n:]` cut a list of a length. -/
def cutAt (length : ℕ) (n : Json) : Py ℕ :=
  match n with
  | .int n => .ok (if 0 ≤ n then n.toNat else (length + n).toNat)
  | .bool b => .ok (if b then 1 else 0)
  | _ => .error (.typeError (Text.of
      "slice indices must be integers or None or have an __index__ method"))

/-- The symbols under the cap and those past it, in alphabetical order. -/
def capAt (maxSymbols : Json) (approved : List S) : Py (List S × List S) := do
  if ← Json.compare ">" (fun x cap => cap.less x) (.int approved.length) maxSymbols then
    let cut ← cutAt approved.length maxSymbols
    return (approved.take cut, approved.drop cut)
  else return (approved, [])

/-- What the size of the approved set and the source say about a snapshot. -/
def failureModeOf (minSymbols : Json) (sourceName : String) (approved : Finset S) :
    Py {m : Option SnapshotFailureMode // approved = ∅ → m ≠ none} :=
  if h : approved = ∅ then .ok ⟨some .failed, fun _ => nofun⟩
  else do
    if ← Json.compare "<" JsonFloat.less (.int approved.card) minSymbols then
      return ⟨some .partialData, fun he => absurd he h⟩
    else if sourceName = "yaml_fallback" then return ⟨some .fallback, fun he => absurd he h⟩
    else return ⟨none, fun he => absurd he h⟩

def decisionOn (verdicts : List (FilterVerdict S)) (sym : S) : UniverseDecision S :=
  let own := verdicts.filter fun v => v.symbol = sym
  { symbol := sym, approved := own.isEmpty, exclusionCodes := own.map FilterVerdict.reason }

/-- The decisions and the snapshot, once every filter has been heard. -/
def assemble (mode : UniverseMode) (tradingDate : Date) (sourceName : String)
    (modeCfg : List (Text × Json)) (candidates : Finset S) (verdicts : List (FilterVerdict S)) :
    Py (UniverseSnapshot S) := do
  let decisions := (candidates.sort (· ≤ ·)).map (decisionOn verdicts)
  let approved := (candidates.sort (· ≤ ·)).filter fun sym => (decisionOn verdicts sym).approved
  let (kept, past) ← capAt (Json.get "max_symbols" (.int 999) modeCfg) approved
  let failure ← failureModeOf (Json.get "min_symbols_to_trade" (.int 10) modeCfg) sourceName
    kept.toFinset
  return {
    mode := mode
    tradingDate := tradingDate
    approvedSymbols := kept.toFinset
    decisions := decisions ++ past.map fun sym =>
      { symbol := sym, approved := false, exclusionCodes := [.manualExclusion] }
    dataSourcesUsed := {sourceName}
    failureMode := failure.val
    explained := failure.property }

def build (mode : UniverseMode) (tradingDate : Date) : Answer (UniverseSnapshot S) := do
  let modeCfg ← getModeCfg host b mode
  let candidates ← indexUnion b.dataSource .candidates (← indices modeCfg)
  if candidates = ∅ then
    .error (.snapshotError ("No candidate symbols found for mode " ++ mode.value ++
      ". Check index_membership in universe_modes.yaml and data source connectivity."))
  else do
    let verdicts ← runFilters host b mode tradingDate modeCfg (host.walk candidates)
    Answer.ofPy (assemble mode tradingDate b.dataSource.sourceName modeCfg candidates verdicts)

end UniverseBuilder

section Building
open UniverseBuilder
variable [LinearOrder S]

/-- What a build reads: the configuration of the mode, the candidates, and the verdicts. -/
structure Reads (host : Host S) (b : UniverseBuilder S) (mode : UniverseMode) (date : Date)
    (modeCfg : List (Text × Json)) (candidates : Finset S) (verdicts : List (FilterVerdict S)) :
    Prop where
  configured : getModeCfg host b mode = .ok modeCfg
  listed : (indices modeCfg >>= indexUnion b.dataSource .candidates) = .ok candidates
  judged : runFilters host b mode date modeCfg (host.walk candidates) = .ok verdicts

theorem build_eq_ok {host : Host S} {b : UniverseBuilder S} {mode : UniverseMode} {date : Date}
    {snapshot : UniverseSnapshot S} : build host b mode date = .ok snapshot ↔
      ∃ modeCfg candidates verdicts, Reads host b mode date modeCfg candidates verdicts ∧
        candidates ≠ ∅ ∧
        assemble mode date b.dataSource.sourceName modeCfg candidates verdicts = .ok snapshot := by
  rw [build, Answer.bind_eq_ok]
  constructor
  · rintro ⟨modeCfg, hmode, h⟩
    obtain ⟨names, hnames, h⟩ := Answer.bind_eq_ok.mp h
    obtain ⟨candidates, hcandidates, h⟩ := Answer.bind_eq_ok.mp h
    split at h
    next => cases h
    next hsome =>
      obtain ⟨verdicts, hverdicts, h⟩ := Answer.bind_eq_ok.mp h
      exact ⟨modeCfg, candidates, verdicts,
        ⟨hmode, Answer.bind_eq_ok.mpr ⟨names, hnames, hcandidates⟩, hverdicts⟩, hsome,
        Answer.ofPy_eq_ok.mp h⟩
  · rintro ⟨modeCfg, candidates, verdicts, hreads, hsome, h⟩
    obtain ⟨names, hnames, hcandidates⟩ := Answer.bind_eq_ok.mp hreads.listed
    refine ⟨modeCfg, hreads.configured, ?_⟩
    refine Answer.bind_eq_ok.mpr ⟨names, hnames, ?_⟩
    refine Answer.bind_eq_ok.mpr ⟨candidates, hcandidates, ?_⟩
    rw [if_neg hsome]
    exact Answer.bind_eq_ok.mpr ⟨verdicts, hreads.judged, Answer.ofPy_eq_ok.mpr h⟩

end Building

structure UniverseOrderValidator (S : Type) where
  snapshot : Option (UniverseSnapshot S)
  mode : Option UniverseMode

/-- `build_validator_for_today`; `dataSource` is what `build_data_source` comes back with. No path
of the filters is handed on. -/
def buildValidatorForToday [LinearOrder S] (host : Host S) (dataSource : Answer (DataSource S))
    (mode : UniverseMode) (modesConfigPath : Option String) (failIfNoSnapshot : Bool)
    (today : Date) : Answer (UniverseOrderValidator S) :=
  let built : Answer (UniverseSnapshot S) := do
    (UniverseBuilder.new (← dataSource) modesConfigPath none none).build host mode today
  match built with
  | .ok snapshot => .ok ⟨some snapshot, some mode⟩
  | .error e =>
    if e.isException ∧ failIfNoSnapshot = false then .ok ⟨none, some mode⟩ else .error e

end QuantEmbrace.Universe
