import QuantEmbrace.LiveUniverse
import Mathlib.Data.String.Basic

/-! What the approval of a symbol for live trading says about it. A build approves what no filter
objects to, and a filter objects to nothing it was not told. -/
namespace QuantEmbrace.Universe
open PythonValue UniverseBuilder
variable {S : Type} {host : Host S} {source : DataSource S} {date : Date} {sym : S}

theorem mem_of_capAt {maxSymbols : Json} {approved kept past : List S}
    (h : capAt maxSymbols approved = .ok (kept, past)) (hsym : sym ∈ kept) : sym ∈ approved := by
  rw [capAt, PythonValue.bind_eq_ok] at h
  obtain ⟨exceeds, -, h⟩ := h
  cases exceeds with
  | false =>
    cases h
    exact hsym
  | true =>
    obtain ⟨cut, -, h⟩ := PythonValue.bind_eq_ok.mp h
    cases h
    exact List.mem_of_mem_take hsym

/-- The answers that let a symbol through every filter of a live build. -/
structure LivePassed (source : DataSource S) (date : Date) (sym : S) : Prop where
  typed : ∃ master, source.getSymbolMaster sym = .ok (some master) ∧
    master.series ∉ blockedTypes
  unwatched : ∀ asm gsm, source.getAsmSymbols = .ok asm → source.getGsmSymbols = .ok gsm →
    sym ∉ asm ∧ sym ∉ gsm
  liquid : ∃ m, source.getLiquidityMetrics sym date = .ok (some m) ∧ m.dataAvailable = true ∧
    LiquidityPassed m
  sound : ∃ m, source.getRiskMetrics sym date = .ok (some m) ∧ m.dataAvailable = true ∧
    RiskPassed m
  settled : ∃ actions, source.getCorporateActions sym 60 = .ok actions ∧
    ∀ action ∈ actions, ¬InWindow date action

section Chain
variable {candidates : List S}

abbrev liveBuilder (source : DataSource S) : UniverseBuilder S := .new source none none none

abbrev liveModeCfg : List (Text × Json) := Json.ofPairs (modeSection 200 20 ["NIFTY_200"])

/-- A switch that is on in the file lets its filter through. -/
theorem applied_live {switch : String}
    (h : (modeSection 200 20 ["NIFTY_200"]).lookup switch = some (.bool true))
    (filter : Answer (List (FilterVerdict S))) : applied switch liveModeCfg filter = filter := by
  have hon : (Json.get switch (.bool true) liveModeCfg).truthy = true := by
    rw [liveModeCfg, Json.get_ofPairs, h]
    rfl
  rw [applied, if_pos hon]

theorem illiquid_live (hfiles : DefaultPlaces host.files) :
    (applied "apply_liquidity_filters" liveModeCfg do
      (← Answer.ofPy (LiquidityFilter.new host .liveAdvanced none)).apply source candidates date) =
    forEach (LiquidityFilter.check ⟨liquidityCfg, true⟩ source date) candidates := by
  rw [applied_live (by rfl), liquidityFilter_live hfiles]
  rfl

theorem risky_live (hfiles : DefaultPlaces host.files) :
    (applied "apply_risk_filters" liveModeCfg do
      (← Answer.ofPy (RiskFilter.new host .liveAdvanced none)).apply source candidates date) =
    forEach (liveRisk.check true source date) candidates := by
  rw [applied_live (by rfl), riskFilter_live hfiles]
  rfl

theorem adjusted_live (hfiles : DefaultPlaces host.files) :
    (applied "apply_corporate_action_filters" liveModeCfg do
      (← Answer.ofPy (CorporateActionFilter.new host .liveAdvanced none)).apply host source
        candidates date) =
    forEach (CorporateActionFilter.check host
      ⟨.liveAdvanced, Json.ofPairs corporateActionWindow⟩ true source date) candidates := by
  rw [applied_live (by rfl), corporateActionFilter_live hfiles]
  rfl

variable [LinearOrder S]

/-- The cap takes symbols out and puts none in. -/
theorem clear_of_assemble {mode : UniverseMode} {sourceName : String}
    {modeCfg : List (Text × Json)} {candidates : Finset S} {verdicts : List (FilterVerdict S)}
    {snapshot : UniverseSnapshot S}
    (h : assemble mode date sourceName modeCfg candidates verdicts = .ok snapshot)
    (hsym : sym ∈ snapshot.approvedSymbols) :
    sym ∈ candidates ∧ ∀ v ∈ verdicts, v.symbol ≠ sym := by
  rw [assemble, PythonValue.bind_eq_ok] at h
  obtain ⟨⟨kept, past⟩, hcap, h⟩ := h
  obtain ⟨failure, -, h⟩ := PythonValue.bind_eq_ok.mp h
  cases h
  have hmem := mem_of_capAt hcap (List.mem_toFinset.mp hsym)
  rw [List.mem_filter, Finset.mem_sort] at hmem
  refine ⟨hmem.1, fun v hv he => ?_⟩
  have hempty := List.isEmpty_iff.mp hmem.2
  rw [List.filter_eq_nil_iff] at hempty
  exact hempty v hv (decide_eq_true he)

theorem passed_of_runFilters (hfiles : DefaultPlaces host.files)
    {verdicts : List (FilterVerdict S)}
    (h : runFilters host (liveBuilder source) .liveAdvanced date liveModeCfg candidates =
      .ok verdicts)
    (hsym : sym ∈ candidates) (hclear : ∀ v ∈ verdicts, v.symbol ≠ sym) :
    LivePassed source date sym := by
  obtain ⟨excluded, -, h⟩ := Answer.bind_eq_ok.mp h
  obtain ⟨indices, -, h⟩ := Answer.bind_eq_ok.mp h
  obtain ⟨outside, -, h⟩ := Answer.bind_eq_ok.mp h
  obtain ⟨untyped, huntyped, h⟩ := Answer.bind_eq_ok.mp h
  rw [surveillanceFilter_live] at h
  obtain ⟨surveillance, hfilter, h⟩ := Answer.bind_eq_ok.mp h
  cases hfilter
  obtain ⟨watched, hwatched, h⟩ := Answer.bind_eq_ok.mp h
  obtain ⟨illiquid, hilliquid, h⟩ := Answer.bind_eq_ok.mp h
  obtain ⟨risky, hrisky, h⟩ := Answer.bind_eq_ok.mp h
  obtain ⟨adjusted, hadjusted, h⟩ := Answer.bind_eq_ok.mp h
  cases h
  rw [show (liveBuilder source).liqPath = none from rfl, illiquid_live hfiles] at hilliquid
  rw [show (liveBuilder source).riskPath = none from rfl, risky_live hfiles] at hrisky
  rw [show (liveBuilder source).riskPath = none from rfl, adjusted_live hfiles] at hadjusted
  simp only [List.forall_mem_append] at hclear
  obtain ⟨⟨⟨⟨⟨-, hofType⟩, hunwatched⟩, hliquid⟩, hsound⟩, hsettled⟩ := hclear
  exact {
    typed := (equity_check source).mp ((forEach_clear huntyped hsym).mp hofType)
    unwatched := (surveillance_clear hwatched hsym).mp hunwatched
    liquid := (liquidity_check source date sym).mp ((forEach_clear hilliquid hsym).mp hliquid)
    sound := (risk_check source date sym).mp ((forEach_clear hrisky hsym).mp hsound)
    settled := (corporateAction_check source date).mp
      ((forEach_clear hadjusted hsym).mp hsettled) }

/-- A symbol of a live snapshot was let through by every filter. -/
theorem passed_of_approved (hfiles : DefaultPlaces host.files) {failIfNoSnapshot : Bool}
    {validator : UniverseOrderValidator S} {snapshot : UniverseSnapshot S}
    (h : buildValidatorForToday host (.ok source) .liveAdvanced none failIfNoSnapshot date =
      .ok validator)
    (hsnapshot : validator.snapshot = some snapshot) (hsym : sym ∈ snapshot.approvedSymbols) :
    LivePassed source date sym := by
  rw [buildValidatorForToday] at h
  split at h
  · next built hbuilt =>
    cases h
    cases hsnapshot
    obtain ⟨_, hsource, hbuild⟩ := Answer.bind_eq_ok.mp hbuilt
    cases hsource
    obtain ⟨modeCfg, candidates, verdicts, hreads, -, hassemble⟩ := build_eq_ok.mp hbuild
    have hmode := hreads.configured
    rw [getModeCfg_live hfiles] at hmode
    cases hmode
    obtain ⟨hcandidate, hclear⟩ := clear_of_assemble hassemble hsym
    exact passed_of_runFilters hfiles hreads.judged ((host.mem_walk _ _).mpr hcandidate) hclear
  · next e _ =>
    split at h
    · cases h
      cases hsnapshot
    · cases h

end Chain

section Claimed

/-- A figure that was measured and has a property. -/
def Keeps {α : Type} (figure : Option α) (p : α → Prop) : Prop := ∃ x, figure = some x ∧ p x

/-- The bounds on liquidity for live trading. Two sessions without volume are to exclude. -/
structure LiquidityBounds (m : LiquidityMetrics) : Prop where
  advCrores20d : Keeps m.advCrores20d fun x => x.ge 25
  advVolume20d : Keeps m.advVolume20d fun n => 150000 ≤ n
  freeFloatMcapCrores : Keeps m.freeFloatMcapCrores fun x => x.ge 2000
  avgBidAskSpreadBps : Keeps m.avgBidAskSpreadBps fun x => x.le 40
  activeDaysLast20 : Keeps m.activeDaysLast20 fun n => 18 ≤ n
  deliveryPct20d : Keeps m.deliveryPct20d fun x => x.ge (2 / 10)
  zeroVolumeDaysLast20 : Keeps m.zeroVolumeDaysLast20 fun n => n < 2
  advCrores60d : Keeps m.advCrores60d fun x => x.ge 20
  advVolume60d : Keeps m.advVolume60d fun n => 120000 ≤ n
  activeDaysLast60 : Keeps m.activeDaysLast60 fun n => 54 ≤ n

/-- The bounds on risk for live trading. -/
structure RiskBounds (m : RiskMetrics) : Prop where
  lastClosePrice : Keeps m.lastClosePrice fun x => x.ge 30
  circuitHitsLast20d : Keeps m.circuitHitsLast20d fun n => n < 2
  dailyVolatilityPct20d : Keeps m.dailyVolatilityPct20d fun x => x.le 6
  freeFloatPct : Keeps m.freeFloatPct fun x => x.ge 20

/-- What an approval for live trading is to mean: all of it is known, and all of it is good. -/
structure LiveSafe (source : DataSource S) (date : Date) (sym : S) : Prop where
  equity : ∃ master, source.getSymbolMaster sym = .ok (some master) ∧
    master.series ∈ allowedSeries
  unwatched : ∃ asm gsm, source.getAsmSymbols = .ok asm ∧ source.getGsmSymbols = .ok gsm ∧
    sym ∉ asm ∧ sym ∉ gsm
  liquid : ∃ m, source.getLiquidityMetrics sym date = .ok (some m) ∧ m.dataAvailable = true ∧
    LiquidityBounds m
  sound : ∃ m, source.getRiskMetrics sym date = .ok (some m) ∧ m.dataAvailable = true ∧
    RiskBounds m
  settled : ∃ actions, source.getCorporateActions sym 60 = .ok actions ∧
    ∀ action ∈ actions, ¬InWindow date action

/-- The figures the filter would pass over are there, and those it never looks at are good. -/
structure LiquidityMeasured (m : LiquidityMetrics) : Prop where
  advCrores20d : Keeps m.advCrores20d fun x => x ≠ .nan
  advVolume20d : m.advVolume20d ≠ none
  freeFloatMcapCrores : Keeps m.freeFloatMcapCrores fun x => x ≠ .nan
  avgBidAskSpreadBps : Keeps m.avgBidAskSpreadBps fun x => x ≠ .nan
  activeDaysLast20 : m.activeDaysLast20 ≠ none
  deliveryPct20d : Keeps m.deliveryPct20d fun x => x ≠ .nan
  zeroVolumeDaysLast20 : Keeps m.zeroVolumeDaysLast20 fun n => n ≠ 2
  advCrores60d : Keeps m.advCrores60d fun x => x.ge 20
  advVolume60d : Keeps m.advVolume60d fun n => 120000 ≤ n
  activeDaysLast60 : Keeps m.activeDaysLast60 fun n => 54 ≤ n

structure RiskMeasured (m : RiskMetrics) : Prop where
  lastClosePrice : Keeps m.lastClosePrice fun x => x ≠ .nan
  circuitHitsLast20d : m.circuitHitsLast20d ≠ none
  dailyVolatilityPct20d : Keeps m.dailyVolatilityPct20d fun x => x ≠ .nan
  freeFloatPct : Keeps m.freeFloatPct fun x => x ≠ .nan

/-- The data source leaves nothing open that the filters would take for good. -/
structure NothingOpen (source : DataSource S) (date : Date) (sym : S) : Prop where
  series : ∀ master, source.getSymbolMaster sym = .ok (some master) →
    master.series ∈ allowedSeries ∨ master.series ∈ blockedTypes
  asmRead : ∀ e, source.getAsmSymbols ≠ .error e
  gsmRead : ∀ e, source.getGsmSymbols ≠ .error e
  liquidity : ∀ m, source.getLiquidityMetrics sym date = .ok (some m) → LiquidityMeasured m
  risk : ∀ m, source.getRiskMetrics sym date = .ok (some m) → RiskMeasured m

theorem keeps_ge_iff {figure : Option JsonFloat} {q : ℚ} (h : ∀ x ∈ figure, x.lt q = false) :
    Keeps figure (fun x => x.ge q) ↔ Keeps figure fun x => x ≠ .nan := by
  constructor
  · rintro ⟨x, hx, hge⟩
    exact ⟨x, hx, (JsonFloat.ge_iff.mp hge).2⟩
  · rintro ⟨x, hx, hnan⟩
    exact ⟨x, hx, JsonFloat.ge_iff.mpr ⟨h x hx, hnan⟩⟩

theorem keeps_le_iff {figure : Option JsonFloat} {q : ℚ} (h : ∀ x ∈ figure, x.gt q = false) :
    Keeps figure (fun x => x.le q) ↔ Keeps figure fun x => x ≠ .nan := by
  constructor
  · rintro ⟨x, hx, hle⟩
    exact ⟨x, hx, (JsonFloat.le_iff.mp hle).2⟩
  · rintro ⟨x, hx, hnan⟩
    exact ⟨x, hx, JsonFloat.le_iff.mpr ⟨h x hx, hnan⟩⟩

theorem keeps_iff_ne_none {α : Type} {figure : Option α} {p : α → Prop} (h : ∀ x ∈ figure, p x) :
    Keeps figure p ↔ figure ≠ none := by
  rw [Option.ne_none_iff_exists']
  constructor
  · rintro ⟨x, hx, -⟩
    exact ⟨x, hx⟩
  · rintro ⟨x, hx⟩
    exact ⟨x, hx, h x hx⟩

theorem liquidityBounds_iff {m : LiquidityMetrics} (h : LiquidityPassed m) :
    LiquidityBounds m ↔ LiquidityMeasured m := by
  have hzero : Keeps m.zeroVolumeDaysLast20 (fun n => n < 2) ↔
      Keeps m.zeroVolumeDaysLast20 fun n => n ≠ 2 := by
    constructor
    · rintro ⟨n, hn, hlt⟩
      exact ⟨n, hn, ne_of_lt hlt⟩
    · rintro ⟨n, hn, hne⟩
      exact ⟨n, hn, lt_of_le_of_ne (h.zeroVolumeDaysLast20 n hn) hne⟩
  constructor
  · intro hb
    exact {
      advCrores20d := (keeps_ge_iff h.advCrores20d).mp hb.advCrores20d
      advVolume20d := (keeps_iff_ne_none h.advVolume20d).mp hb.advVolume20d
      freeFloatMcapCrores := (keeps_ge_iff h.freeFloatMcapCrores).mp hb.freeFloatMcapCrores
      avgBidAskSpreadBps := (keeps_le_iff h.avgBidAskSpreadBps).mp hb.avgBidAskSpreadBps
      activeDaysLast20 := (keeps_iff_ne_none h.activeDaysLast20).mp hb.activeDaysLast20
      deliveryPct20d := (keeps_ge_iff h.deliveryPct20d).mp hb.deliveryPct20d
      zeroVolumeDaysLast20 := hzero.mp hb.zeroVolumeDaysLast20
      advCrores60d := hb.advCrores60d
      advVolume60d := hb.advVolume60d
      activeDaysLast60 := hb.activeDaysLast60 }
  · intro hm
    exact {
      advCrores20d := (keeps_ge_iff h.advCrores20d).mpr hm.advCrores20d
      advVolume20d := (keeps_iff_ne_none h.advVolume20d).mpr hm.advVolume20d
      freeFloatMcapCrores := (keeps_ge_iff h.freeFloatMcapCrores).mpr hm.freeFloatMcapCrores
      avgBidAskSpreadBps := (keeps_le_iff h.avgBidAskSpreadBps).mpr hm.avgBidAskSpreadBps
      activeDaysLast20 := (keeps_iff_ne_none h.activeDaysLast20).mpr hm.activeDaysLast20
      deliveryPct20d := (keeps_ge_iff h.deliveryPct20d).mpr hm.deliveryPct20d
      zeroVolumeDaysLast20 := hzero.mpr hm.zeroVolumeDaysLast20
      advCrores60d := hm.advCrores60d
      advVolume60d := hm.advVolume60d
      activeDaysLast60 := hm.activeDaysLast60 }

theorem riskBounds_iff {m : RiskMetrics} (h : RiskPassed m) : RiskBounds m ↔ RiskMeasured m := by
  constructor
  · intro hb
    exact {
      lastClosePrice := (keeps_ge_iff h.lastClosePrice).mp hb.lastClosePrice
      circuitHitsLast20d := (keeps_iff_ne_none h.circuitHitsLast20d).mp hb.circuitHitsLast20d
      dailyVolatilityPct20d := (keeps_le_iff h.dailyVolatilityPct20d).mp hb.dailyVolatilityPct20d
      freeFloatPct := (keeps_ge_iff h.freeFloatPct).mp hb.freeFloatPct }
  · intro hm
    exact {
      lastClosePrice := (keeps_ge_iff h.lastClosePrice).mpr hm.lastClosePrice
      circuitHitsLast20d := (keeps_iff_ne_none h.circuitHitsLast20d).mpr hm.circuitHitsLast20d
      dailyVolatilityPct20d := (keeps_le_iff h.dailyVolatilityPct20d).mpr hm.dailyVolatilityPct20d
      freeFloatPct := (keeps_ge_iff h.freeFloatPct).mpr hm.freeFloatPct }

theorem safe_iff_nothingOpen (h : LivePassed source date sym) :
    LiveSafe source date sym ↔ NothingOpen source date sym := by
  obtain ⟨master, hmaster, hseries⟩ := h.typed
  obtain ⟨liq, hliq, havailable, hliqPassed⟩ := h.liquid
  obtain ⟨risk, hrisk, hriskAvailable, hriskPassed⟩ := h.sound
  constructor
  · intro hsafe
    obtain ⟨asm, gsm, hasm, hgsm, -⟩ := hsafe.unwatched
    refine ⟨?_, by rw [hasm]; exact nofun, by rw [hgsm]; exact nofun, ?_, ?_⟩
    · intro found hfound
      obtain ⟨own, hown, hallowed⟩ := hsafe.equity
      rw [hown] at hfound
      cases hfound
      exact .inl hallowed
    · intro found hfound
      obtain ⟨own, hown, -, hbounds⟩ := hsafe.liquid
      rw [hown] at hliq hfound
      cases hliq
      cases hfound
      exact (liquidityBounds_iff hliqPassed).mp hbounds
    · intro found hfound
      obtain ⟨own, hown, -, hbounds⟩ := hsafe.sound
      rw [hown] at hrisk hfound
      cases hrisk
      cases hfound
      exact (riskBounds_iff hriskPassed).mp hbounds
  · intro hopen
    refine ⟨⟨master, hmaster, (hopen.series master hmaster).resolve_right hseries⟩, ?_,
      ⟨liq, hliq, havailable, (liquidityBounds_iff hliqPassed).mpr (hopen.liquidity liq hliq)⟩,
      ⟨risk, hrisk, hriskAvailable, (riskBounds_iff hriskPassed).mpr (hopen.risk risk hrisk)⟩,
      h.settled⟩
    cases hasm : source.getAsmSymbols with
    | error e => exact absurd hasm (hopen.asmRead e)
    | ok asm =>
      cases hgsm : source.getGsmSymbols with
      | error e => exact absurd hgsm (hopen.gsmRead e)
      | ok gsm => exact ⟨asm, gsm, rfl, rfl, h.unwatched asm gsm hasm hgsm⟩

end Claimed

section ClearDay
variable [LinearOrder S] {candidates : Finset S}

/-- A day on which nothing is held against any candidate, of whom there are enough and not too
many. A surveillance list that cannot be read holds nothing against anyone. -/
structure ClearDay (source : DataSource S) (date : Date) (candidates : Finset S) : Prop where
  index : ∀ reading, source.getIndexSymbols reading (.string "NIFTY_200") = .ok candidates
  exclusions : source.getExclusionLists = .ok []
  asm : ∀ e, source.getAsmSymbols = .error e → e.isException = true
  gsm : ∀ e, source.getGsmSymbols = .error e → e.isException = true
  passed : ∀ sym ∈ candidates, LivePassed source date sym
  enough : 20 ≤ candidates.card
  fits : candidates.card ≤ 200
  live : source.sourceName ≠ "yaml_fallback"

theorem indexUnion_clear (h : ClearDay source date candidates) (reading : Reading) :
    indexUnion source reading [.string "NIFTY_200"] = .ok candidates := by
  rw [indexUnion, h.index]
  exact congrArg Except.ok (Finset.union_empty candidates)

theorem surveillance_passes (h : ClearDay source date candidates) (host : Host S) :
    SurveillanceFilter.apply ⟨true, true, false⟩ source (host.walk candidates) = .ok [] := by
  rw [SurveillanceFilter.apply]
  cases hasm : source.getAsmSymbols with
  | error e => exact if_pos (h.asm e hasm)
  | ok asm =>
    cases hgsm : source.getGsmSymbols with
    | error e => exact if_pos (h.gsm e hgsm)
    | ok gsm =>
      refine forEach_of_clear fun sym hsym => congrArg Except.ok ?_
      have hpassed := h.passed sym ((host.mem_walk _ _).mp hsym)
      obtain ⟨hnotAsm, hnotGsm⟩ := hpassed.unwatched asm gsm hasm hgsm
      rw [SurveillanceFilter.check, if_neg fun hin => hnotAsm hin.2,
        if_neg fun hin => hnotGsm hin.2]

theorem runFilters_clear (hfiles : DefaultPlaces host.files) (h : ClearDay source date candidates) :
    runFilters host (liveBuilder source) .liveAdvanced date liveModeCfg (host.walk candidates) =
      .ok [] := by
  have hpassed : ∀ sym ∈ host.walk candidates, LivePassed source date sym :=
    fun sym hsym => h.passed sym ((host.mem_walk _ _).mp hsym)
  have hexcluded : ExclusionListFilter.apply source (host.walk candidates) = .ok [] := by
    rw [ExclusionListFilter.apply, h.exclusions]
    exact forEach_of_clear fun sym _ => rfl
  have houtside : IndexMembershipFilter.apply source [.string "NIFTY_200"]
      (host.walk candidates) = .ok [] := by
    rw [IndexMembershipFilter.apply, indexUnion_clear h]
    exact forEach_of_clear fun sym hsym =>
      congrArg Except.ok (if_pos ((host.mem_walk _ _).mp hsym))
  have huntyped : EquityTypeFilter.apply source (host.walk candidates) = .ok [] :=
    forEach_of_clear fun sym hsym => (equity_check source).mpr (hpassed sym hsym).typed
  have hfilter : Answer.ofPy (surveillanceFilter host (liveBuilder source) .liveAdvanced) =
      .ok ⟨true, true, false⟩ := by
    rw [surveillanceFilter_live]
    rfl
  have hliquid := forEach_of_clear fun sym hsym =>
    (liquidity_check source date sym).mpr (hpassed sym hsym).liquid
  have hsound := forEach_of_clear fun sym hsym =>
    (risk_check source date sym).mpr (hpassed sym hsym).sound
  have hsettled := forEach_of_clear fun sym hsym =>
    (@corporateAction_check S host source date sym).mpr (hpassed sym hsym).settled
  refine Answer.bind_eq_ok.mpr ⟨_, hexcluded, ?_⟩
  refine Answer.bind_eq_ok.mpr ⟨[.string "NIFTY_200"], rfl, ?_⟩
  refine Answer.bind_eq_ok.mpr ⟨_, houtside, ?_⟩
  refine Answer.bind_eq_ok.mpr ⟨_, huntyped, ?_⟩
  refine Answer.bind_eq_ok.mpr ⟨_, hfilter, ?_⟩
  refine Answer.bind_eq_ok.mpr ⟨_, surveillance_passes h host, ?_⟩
  refine Answer.bind_eq_ok.mpr ⟨_, (illiquid_live hfiles).trans hliquid, ?_⟩
  refine Answer.bind_eq_ok.mpr ⟨_, (risky_live hfiles).trans hsound, ?_⟩
  exact Answer.bind_eq_ok.mpr ⟨_, (adjusted_live hfiles).trans hsettled, rfl⟩

theorem assemble_clear (h : ClearDay source date candidates) :
    ∃ snapshot, assemble .liveAdvanced date source.sourceName liveModeCfg candidates [] =
      .ok snapshot ∧ snapshot.approvedSymbols = candidates ∧ snapshot.failureMode = none := by
  have hne : candidates ≠ ∅ := by
    rintro rfl
    exact absurd h.enough (by simp)
  have hall : ((candidates.sort (· ≤ ·)).filter fun sym => (decisionOn [] sym).approved) =
      candidates.sort (· ≤ ·) := List.filter_eq_self.mpr fun _ _ => rfl
  have hcap : capAt (.int 200) (candidates.sort (· ≤ ·)) =
      .ok (candidates.sort (· ≤ ·), []) := by
    have hfits : JsonFloat.less (.finite (200 : ℤ))
        (.finite ((candidates.sort (· ≤ ·)).length : ℤ)) = false := by
      simpa [JsonFloat.less] using h.fits
    rw [capAt, Json.compare_eq (number_int _) (number_int _), hfits]
    rfl
  have hfailure : ∀ approved : Finset S, approved = candidates →
      ∃ failure, failureModeOf (.int 20) source.sourceName approved = .ok failure ∧
        failure.val = none := by
    intro approved heq
    rw [← heq] at hne h
    have henough : JsonFloat.less (.finite (approved.card : ℤ)) (.finite (20 : ℤ)) = false := by
      simpa [JsonFloat.less] using h.enough
    refine ⟨⟨none, fun he => absurd he hne⟩, ?_, rfl⟩
    rw [failureModeOf, dif_neg hne, Json.compare_eq (number_int _) (number_int _), henough]
    exact if_neg h.live
  obtain ⟨failure, hfailure, hnone⟩ := hfailure _ (candidates.sort_toFinset (· ≤ ·))
  exact ⟨_, PythonValue.bind_eq_ok.mpr ⟨_, (congrArg (capAt (.int 200)) hall).trans hcap,
    PythonValue.bind_eq_ok.mpr ⟨failure, hfailure, rfl⟩⟩, candidates.sort_toFinset (· ≤ ·), hnone⟩

theorem approves_clear_day (hfiles : DefaultPlaces host.files)
    (h : ClearDay source date candidates) (failIfNoSnapshot : Bool) :
    ∃ snapshot, buildValidatorForToday host (.ok source) .liveAdvanced none failIfNoSnapshot date =
      .ok ⟨some snapshot, some .liveAdvanced⟩ ∧ snapshot.approvedSymbols = candidates ∧
      snapshot.failureMode = none := by
  obtain ⟨snapshot, hassemble, happroved, hmode⟩ := assemble_clear h
  refine ⟨snapshot, ?_, happroved, hmode⟩
  have hne : candidates ≠ ∅ := by
    rintro rfl
    exact absurd h.enough (by simp)
  have hlisted : (indices liveModeCfg >>= indexUnion source .candidates) = .ok candidates :=
    Answer.bind_eq_ok.mpr ⟨[.string "NIFTY_200"], rfl, indexUnion_clear h .candidates⟩
  have hbuild : (liveBuilder source).build host .liveAdvanced date = .ok snapshot :=
    build_eq_ok.mpr ⟨_, candidates, [],
      ⟨getModeCfg_live hfiles source, hlisted, runFilters_clear hfiles h⟩, hne, hassemble⟩
  have hbuilt : ((Except.ok source : Answer (DataSource S)) >>= fun s =>
      (UniverseBuilder.new s none none none).build host .liveAdvanced date) = .ok snapshot := hbuild
  rw [buildValidatorForToday, hbuilt]

end ClearDay

section Startup

def repositoryFiles (path : String) : Option Json :=
  if path = defaultModesYaml then some universeModesYaml
  else if path = defaultLiquidityYaml then some liquidityFiltersYaml
  else if path = defaultRiskYaml then some riskFiltersYaml
  else none

theorem defaultPlaces : DefaultPlaces repositoryFiles := ⟨rfl, rfl, rfl⟩

def startupHost : Host String where
  files := repositoryFiles
  walk symbols := symbols.sort (· ≤ ·)
  intOfText _ := none
  repr t := t
  mem_walk _ _ := Finset.mem_sort _

def stocks : Finset String :=
  {"ADANIPORTS", "APOLLOHOSP", "ASIANPAINT", "AXISBANK", "BAJAJFINSV", "BHARTIARTL", "BRITANNIA",
    "CIPLA", "DRREDDY", "EICHERMOT", "GRASIM", "HCLTECH", "HDFCBANK", "ICICIBANK", "INFY", "ITC",
    "MARUTI", "RELIANCE", "SBIN", "TCS"}

/-- A source whose records are complete and good, but for what its read of the ASM list gives. -/
def completeSource (asm : Answer (Finset String)) : DataSource String where
  sourceName := "nse_api"
  getIndexSymbols _ _ := .ok stocks
  getAsmSymbols := asm
  getGsmSymbols := .ok ∅
  getSymbolMaster _ := .ok (some ⟨"EQ"⟩)
  getLiquidityMetrics _ _ := .ok (some {
    advCrores20d := some (.finite 900)
    advVolume20d := some 4000000
    advCrores60d := some (.finite 850)
    advVolume60d := some 3900000
    freeFloatMcapCrores := some (.finite 90000)
    avgBidAskSpreadBps := some (.finite 4)
    activeDaysLast20 := some 20
    deliveryPct20d := some (.finite (1 / 2))
    activeDaysLast60 := some 60
    zeroVolumeDaysLast20 := some 0
    dataAvailable := true })
  getRiskMetrics _ _ := .ok (some {
    lastClosePrice := some (.finite 1300)
    dailyVolatilityPct20d := some (.finite 2)
    circuitHitsLast20d := some 0
    freeFloatPct := some (.finite 50)
    isAsmListed := false
    isGsmListed := false
    dataAvailable := true })
  getCorporateActions _ _ := .ok []
  getExclusionLists := .ok []

theorem completeSource_clear {asm : Answer (Finset String)}
    (hread : ∀ symbols, asm = .ok symbols → symbols = ∅)
    (hfailed : ∀ e, asm = .error e → e.isException = true) :
    ClearDay (completeSource asm) 0 stocks where
  index _ := rfl
  exclusions := rfl
  asm := hfailed
  gsm := nofun
  passed sym _ := {
    typed := ⟨⟨"EQ"⟩, rfl, by decide⟩
    unwatched := by
      intro symbols _ hasm hgsm
      cases hgsm
      rw [hread symbols hasm]
      simp
    liquid := ⟨_, rfl, rfl, by
      constructor <;> rintro _ ⟨⟩ <;> norm_num [JsonFloat.lt, JsonFloat.gt]⟩
    sound := ⟨_, rfl, rfl, by
      constructor <;> first | rfl | (rintro _ ⟨⟩; norm_num [JsonFloat.lt, JsonFloat.gt])⟩
    settled := ⟨[], rfl, by simp⟩ }
  enough := by decide
  fits := by decide
  live := (by decide : "nse_api" ≠ "yaml_fallback")

/-- Every symbol of a live snapshot is safe to trade exactly where the data source left nothing
open about it. -/
theorem live_universe_safe_iff [LinearOrder S] (hfiles : DefaultPlaces host.files)
    {failIfNoSnapshot : Bool} {validator : UniverseOrderValidator S}
    {snapshot : UniverseSnapshot S}
    (h : buildValidatorForToday host (.ok source) .liveAdvanced none failIfNoSnapshot date =
      .ok validator)
    (hsnapshot : validator.snapshot = some snapshot) (hsym : sym ∈ snapshot.approvedSymbols) :
    LiveSafe source date sym ↔ NothingOpen source date sym :=
  safe_iff_nothingOpen (passed_of_approved hfiles h hsnapshot hsym)

theorem live_universe_safe_iff_complete : LiveSafe (completeSource (.ok ∅)) 0 "RELIANCE" := by
  have hclear : ClearDay (completeSource (.ok ∅)) 0 stocks :=
    completeSource_clear (fun _ h => (Except.ok.inj h).symm) nofun
  obtain ⟨snapshot, hbuilt, happroved, -⟩ :=
    @approves_clear_day String startupHost _ 0 _ _ defaultPlaces hclear true
  have hsym : "RELIANCE" ∈ snapshot.approvedSymbols := by
    rw [happroved]
    decide
  refine (live_universe_safe_iff defaultPlaces hbuilt rfl hsym).mpr ?_
  refine ⟨fun master h => .inl ?_, nofun, nofun, fun m h => ?_, fun m h => ?_⟩
  · cases h
    decide
  · cases h
    constructor <;>
      first
      | exact Option.some_ne_none _
      | exact ⟨_, rfl, JsonFloat.finite_ne_nan _⟩
      | exact ⟨_, rfl, by norm_num [JsonFloat.ge]⟩
  · cases h
    constructor <;>
      first | exact Option.some_ne_none _ | exact ⟨_, rfl, JsonFloat.finite_ne_nan _⟩

/-- The ASM list cannot be read, and the whole index is approved for live trading. -/
theorem unread_asm_list_approved :
    ∃ validator snapshot,
      buildValidatorForToday startupHost
        (.ok (completeSource (.error (.other "ConnectionError: NSE API")))) .liveAdvanced none true
        0 = .ok validator ∧
      validator.snapshot = some snapshot ∧ snapshot.failureMode = none ∧
      "RELIANCE" ∈ snapshot.approvedSymbols ∧
      ¬LiveSafe (completeSource (.error (.other "ConnectionError: NSE API"))) 0 "RELIANCE" := by
  have hread : ∀ symbols, (.error (.other "ConnectionError: NSE API") : Answer (Finset String)) =
      .ok symbols → symbols = ∅ := by
    rintro _ ⟨⟩
  have hfailed : ∀ e, (.error (.other "ConnectionError: NSE API") : Answer (Finset String)) =
      .error e → e.isException = true := by
    rintro _ ⟨⟩
    rfl
  obtain ⟨snapshot, hbuilt, happroved, hmode⟩ :=
    @approves_clear_day String startupHost _ 0 _ _ defaultPlaces
      (completeSource_clear hread hfailed) true
  refine ⟨_, snapshot, hbuilt, rfl, hmode, ?_, fun hsafe => ?_⟩
  · rw [happroved]
    decide
  · obtain ⟨asm, _, hasm, -⟩ := hsafe.unwatched
    cases hasm

end Startup

end QuantEmbrace.Universe
