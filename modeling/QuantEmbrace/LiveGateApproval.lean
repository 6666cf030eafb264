import QuantEmbrace.LiveGateChecker

/-! When the gate approves, and what its approval then stands for. -/
namespace QuantEmbrace.LiveGate
open DynamoItem PythonValue Strategies.ConfigTable

section Verdict
variable {lib : Library} {w : World}

/-- A check that neither raised nor failed nor warned. -/
def Accepted (check : Option CheckStatus) : Prop :=
  ∃ status, check = some status ∧ status ≠ .fail ∧ status ≠ .warn

@[simp] theorem accepted_none : ¬ Accepted none := by
  rintro ⟨_, h, _⟩
  cases h

@[simp] theorem accepted_some {status : CheckStatus} :
    Accepted (some status) ↔ status ≠ .fail ∧ status ≠ .warn := by
  simp [Accepted]

@[simp] theorem passIf_eq_fail {condition : Bool} :
    passIf condition = .fail ↔ condition = false := by
  cases condition <;> simp [passIf]

@[simp] theorem passIf_ne_warn {condition : Bool} : passIf condition ≠ .warn := by
  cases condition <;> simp [passIf]

theorem accepted_passIf {condition : Bool} :
    Accepted (some (passIf condition)) ↔ condition = true := by
  simp

theorem safeResult_accepted {i : ℕ} {check : String × Option CheckStatus} :
    (safeResult i check).status ≠ .fail ∧ (safeResult i check).status ≠ .warn ↔
      Accepted check.2 := by
  obtain ⟨name, outcome⟩ := check
  cases outcome <;> simp [safeResult]

theorem verdict_approved {results : List CheckResult} :
    verdict results = .approved ↔ ∀ c ∈ results, c.status ≠ .fail ∧ c.status ≠ .warn := by
  have hnone (s : CheckStatus) :
      results.filter (fun c => c.status = s) = [] ↔ ∀ c ∈ results, c.status ≠ s := by
    simp [List.filter_eq_nil_iff]
  rw [verdict]
  by_cases hfail : results.filter (fun c => c.status = .fail) = []
  · rw [if_neg (not_not.mpr hfail)]
    by_cases hwarn : results.filter (fun c => c.status = .warn) = []
    · rw [if_neg (not_not.mpr hwarn)]
      exact iff_of_true rfl fun c hc => ⟨(hnone _).mp hfail c hc, (hnone _).mp hwarn c hc⟩
    · rw [if_pos hwarn]
      exact iff_of_false nofun fun h => hwarn ((hnone _).mpr fun c hc => (h c hc).2)
  · rw [if_pos hfail]
    exact iff_of_false nofun fun h => hfail ((hnone _).mpr fun c hc => (h c hc).1)

theorem checkAll_approved : (checkAll lib w).status = .approved ↔
    ∀ check ∈ checkFns lib w (fetchApprovalRecord w), Accepted check.2 := by
  rw [checkAll, verdict_approved]
  constructor
  · intro h check hcheck
    obtain ⟨i, hi, rfl⟩ := List.getElem_of_mem hcheck
    exact safeResult_accepted.mp (h _ (List.mem_mapIdx.mpr ⟨i, hi, rfl⟩))
  · intro h c hc
    obtain ⟨i, hi, rfl⟩ := List.mem_mapIdx.mp hc
    exact safeResult_accepted.mpr (h _ (List.getElem_mem hi))

/-- No check gets lost, whatever it does. -/
theorem checkAll_length : (checkAll lib w).checks.length = 26 := by
  rw [checkAll, List.length_mapIdx]
  rfl

end Verdict

section Inputs
variable (lib : Library) (w : World)

/-- A record with a time that can be read and is not too old -/
def Fresh (reply : Option Item) (stamp : Item → String) (now : ℚ) : Prop :=
  ∃ item utc, reply = some item ∧ item ≠ [] ∧ stamp item ≠ "" ∧
    lib.fromisoformat (stamp item) = .aware utc ∧ now - utc ≤ ltpMaxAgeSeconds

/-- A flag that was read and is off, or has no record -/
def ReadsClear (reply : Option Item) (name : String) : Prop :=
  ∃ item, reply = some item ∧ item.flag name = false

/-- The alarms in a state were read, and none of them counts. -/
def Quiet (alarms : CloudWatch → Option (List String)) (counts : String → Bool) : Prop :=
  ∃ cw names, w.cloudWatch = some cw ∧ alarms cw = some names ∧ ∀ n ∈ names, counts n = false

/-- A setting as a float of which a check of its bounds finds nothing wrong -/
def Setting (value : Json) (limit : Option ℚ) : Prop :=
  ∃ x, lib.float (value.orElse (.int 0)) = some x ∧ x.le 0 = false ∧
    ∀ bound ∈ limit, x.gt bound = false

/-- What the record of the approval must have -/
structure RecordInOrder (rec : Item) : Prop where
  token : strip (rec.text "approval_token") ≠ ""
  stage : strip (rec.text "live_stage") ∈ approvedStages
  maxCapital : ∀ raw ∈ rec.lookup "max_capital",
    (recCapital lib raw).gt stage1MaxPortfolioValue = false
  alertTested : rec.flag "sns_alert_tested" = true
  rollback : rec.flag "rollback_plan_confirmed" = true
  release : strip (rec.text "release_tag") ≠ ""
  approvedBy : strip (rec.text "approved_by") ≠ ""
  approvedAt : strip (rec.text "approved_at") ≠ ""

structure SettingsInOrder : Prop where
  enabled : lib.lower (strip w.liveTradingVariable) = "true" ∨
    lib.lower (strip w.liveTradingVariable) = "1" ∨ w.settings.liveTradingEnabled = true
  portfolioValue : Setting lib w.settings.portfolioValue (some stage1MaxPortfolioValue)
  orderValue : Setting lib w.settings.maxSingleOrderValue (some stage1MaxOrderValue)
  dailyLoss : Setting lib w.settings.maxDailyLossPct none
  watchlist : w.settings.watchlistNse ≠ []

/-- What the first page of the strategies must show -/
structure ScanInOrder : Prop where
  allowed : w.allowedScanRaises = false
  paperOnly : w.paperOnlyScanRaises = false
  live : ∃ row ∈ w.strategyPages.headD [], tradesLive row = true ∧ enabled row = true
  named : ∀ row ∈ w.strategyPages.headD [], tradesLive row = true →
    strategyOf row.key.pk ∉ paperOnlyStrategies

structure RuntimeInOrder : Prop where
  killSwitch : ReadsClear w.killSwitch "active"
  reconciliation : ReadsClear w.reconciliation "reconciliation_required"
  exitEngine : Fresh lib w.teeHeartbeat updatedAt w.teeNow
  squareOff : nseClose ≤ w.squareOffTime.time ∨
    Fresh lib w.executionHeartbeat updatedAt w.squareOffNow
  ltp : Fresh lib w.ltp capturedAt w.ltpNow
  session : ∃ item, w.session = some item ∧ item.text "access_token" ≠ ""
  margins : w.margins = .readable
  orders : w.ordersProbe.isSome = true
  alarms : Quiet w CloudWatch.insufficientData (tradingAlarm lib)
  alerts : Quiet w CloudWatch.inAlarm (p0Alarm lib)
  weekday : w.windowTime.weekday < 5
  opened : nseOpen ≤ w.windowTime.time
  notClosed : w.windowTime.time < nseClose
  cutoff : w.cutoffTime.time < noNewEntry

/-- All that the gate reads is in order. -/
structure InOrder : Prop where
  record : RecordInOrder lib (fetchApprovalRecord w)
  settings : SettingsInOrder lib w
  scan : ScanInOrder w
  runtime : RuntimeInOrder lib w

end Inputs

section Checks
variable {lib : Library} {w : World} {rec : Item}

theorem accepted_freshness {onMissing onRaise : CheckStatus} {reply : Option Item}
    {stamp : Item → String} {now : ℚ} (hmissing : ¬ Accepted (some onMissing))
    (hraise : ¬ Accepted (some onRaise)) :
    Accepted (some (freshness lib onMissing onRaise reply stamp now)) ↔
      Fresh lib reply stamp now := by
  cases reply with
  | none => exact iff_of_false hraise nofun
  | some item =>
    rw [freshness]
    by_cases hitem : item = []
    · rw [if_pos hitem]
      refine iff_of_false hmissing ?_
      rintro ⟨_, _, h, hne, _⟩
      cases h
      exact hne hitem
    rw [if_neg hitem]
    by_cases hstamp : stamp item = ""
    · rw [if_pos hstamp]
      refine iff_of_false (by simp) ?_
      rintro ⟨_, _, h, _, hne, _⟩
      cases h
      exact hne hstamp
    rw [if_neg hstamp]
    cases htime : lib.fromisoformat (stamp item) with
    | valueError =>
      refine iff_of_false (by simp) ?_
      rintro ⟨_, _, h, _, _, haware, _⟩
      cases h
      rw [htime] at haware
      cases haware
    | naive =>
      refine iff_of_false hraise ?_
      rintro ⟨_, _, h, _, _, haware, _⟩
      cases h
      rw [htime] at haware
      cases haware
    | aware utc =>
      dsimp only
      constructor
      · intro h
        refine ⟨item, utc, rfl, hitem, hstamp, htime, le_of_not_gt fun hold => ?_⟩
        rw [if_pos hold] at h
        exact (accepted_some.mp h).1 rfl
      · rintro ⟨_, utc', h, _, _, haware, hage⟩
        cases h
        rw [htime] at haware
        cases haware
        rw [if_neg (not_lt.mpr hage)]
        simp

theorem accepted_flagOff {reply : Option Item} {name : String} :
    Accepted (some (flagOff reply name)) ↔ ReadsClear reply name := by
  cases reply with
  | none => exact iff_of_false (by simp [flagOff]) nofun
  | some item =>
    rw [flagOff]
    by_cases hitem : item = []
    · rw [if_pos hitem]
      exact iff_of_true (by simp) ⟨item, rfl, by rw [hitem]; rfl⟩
    · rw [if_neg hitem, accepted_passIf, Bool.not_eq_true']
      constructor
      · exact fun h => ⟨item, rfl, h⟩
      · rintro ⟨_, h, hoff⟩
        cases h
        exact hoff

theorem accepted_noAlarm {alarms : CloudWatch → Option (List String)} {counts : String → Bool} :
    Accepted (some (noAlarm w alarms counts)) ↔ Quiet w alarms counts := by
  rw [noAlarm, Quiet]
  cases w.cloudWatch with
  | none => exact iff_of_false (by simp) nofun
  | some cw =>
    dsimp only
    cases halarms : alarms cw with
    | none =>
      dsimp only
      refine iff_of_false (by simp) ?_
      rintro ⟨_, _, h, hnames, _⟩
      cases h
      rw [halarms] at hnames
      cases hnames
    | some names =>
      dsimp only
      rw [accepted_passIf, decide_eq_true_iff, List.filter_eq_nil_iff]
      simp [halarms]

/-- The three checks of a setting are one check, of the same bounds. -/
theorem accepted_setting {value : Json} {check : JsonFloat → CheckStatus} {limit : Option ℚ}
    (h : ∀ x, Accepted (some (check x)) ↔ x.le 0 = false ∧ ∀ bound ∈ limit, x.gt bound = false) :
    Accepted ((lib.float (value.orElse (.int 0))).map check) ↔ Setting lib value limit := by
  rw [Setting]
  cases lib.float (value.orElse (.int 0)) with
  | none => exact iff_of_false accepted_none nofun
  | some x => simpa using h x

theorem checkMaxOrderValueConfigured_eq : checkMaxOrderValueConfigured lib w =
    (lib.float (w.settings.maxSingleOrderValue.orElse (.int 0))).map fun val =>
      passIf (!val.le 0 && !val.gt stage1MaxOrderValue) := by
  rw [checkMaxOrderValueConfigured]
  cases lib.float (w.settings.maxSingleOrderValue.orElse (.int 0)) with
  | none => rfl
  | some val =>
    simp only [Option.bind_eq_bind, Option.bind_some, Option.map_some]
    cases val.le 0 <;> cases val.gt stage1MaxOrderValue <;> rfl

theorem checkMaxDailyLossConfigured_eq : checkMaxDailyLossConfigured lib w =
    (lib.float (w.settings.maxDailyLossPct.orElse (.int 0))).map fun pct => passIf (!pct.le 0) := by
  rw [checkMaxDailyLossConfigured]
  cases lib.float (w.settings.maxDailyLossPct.orElse (.int 0)) with
  | none => rfl
  | some pct =>
    simp only [Option.bind_eq_bind, Option.bind_some, Option.map_some]
    cases pct.le 0 <;> rfl

/-- The capital of the record is looked at first, but not for its own sake. -/
theorem checkMaxCapitalWithinStageLimit_eq : checkMaxCapitalWithinStageLimit lib w rec =
    (lib.float (w.settings.portfolioValue.orElse (.int 0))).map fun value =>
      passIf (!((rec.lookup "max_capital").any fun raw =>
        (recCapital lib raw).gt stage1MaxPortfolioValue) &&
          (!value.le 0 && !value.gt stage1MaxPortfolioValue)) := by
  rw [checkMaxCapitalWithinStageLimit]
  cases lib.float (w.settings.portfolioValue.orElse (.int 0)) with
  | none => rfl
  | some value =>
    simp only [Option.bind_eq_bind, Option.bind_some, Option.map_some]
    cases (rec.lookup "max_capital").any fun raw =>
        (recCapital lib raw).gt stage1MaxPortfolioValue <;>
      cases value.gt stage1MaxPortfolioValue <;> cases value.le 0 <;> rfl

theorem accepted_maxCapital : Accepted (checkMaxCapitalWithinStageLimit lib w rec) ↔
    (∀ raw ∈ rec.lookup "max_capital", (recCapital lib raw).gt stage1MaxPortfolioValue = false) ∧
      Setting lib w.settings.portfolioValue (some stage1MaxPortfolioValue) := by
  rw [checkMaxCapitalWithinStageLimit_eq, Setting]
  cases lib.float (w.settings.portfolioValue.orElse (.int 0)) with
  | none =>
    refine iff_of_false accepted_none ?_
    rintro ⟨_, _, h, _⟩
    cases h
  | some value =>
    cases hcapital : rec.lookup "max_capital" <;> simp

theorem accepted_maxOrderValue : Accepted (checkMaxOrderValueConfigured lib w) ↔
    Setting lib w.settings.maxSingleOrderValue (some stage1MaxOrderValue) := by
  rw [checkMaxOrderValueConfigured_eq]
  exact accepted_setting fun x => by simp

theorem accepted_maxDailyLoss : Accepted (checkMaxDailyLossConfigured lib w) ↔
    Setting lib w.settings.maxDailyLossPct none := by
  rw [checkMaxDailyLossConfigured_eq]
  exact accepted_setting fun x => by simp

theorem mem_scanned {row : Row} :
    row ∈ scanned w ↔ row ∈ w.strategyPages.headD [] ∧ tradesLive row = true := by
  rw [scanned, Paging.serve_first, List.mem_filter]

theorem accepted_allowedStrategies : Accepted (some (checkAllowedStrategiesConfigured w)) ↔
    w.allowedScanRaises = false ∧
      ∃ row ∈ w.strategyPages.headD [], tradesLive row = true ∧ enabled row = true := by
  rw [checkAllowedStrategiesConfigured]
  cases w.allowedScanRaises with
  | true => simp
  | false =>
    rw [if_neg Bool.false_ne_true, accepted_passIf, decide_eq_true_iff, Ne, List.filter_eq_nil_iff]
    simp only [mem_scanned, not_forall, not_not, true_and, exists_prop, and_assoc]

theorem accepted_noPaperOnly : Accepted (some (checkNoPaperOnlyStrategyInLive w)) ↔
    w.paperOnlyScanRaises = false ∧ ∀ row ∈ w.strategyPages.headD [], tradesLive row = true →
      strategyOf row.key.pk ∉ paperOnlyStrategies := by
  rw [checkNoPaperOnlyStrategyInLive]
  cases w.paperOnlyScanRaises with
  | true => simp
  | false =>
    rw [if_neg Bool.false_ne_true]
    dsimp only
    rw [accepted_passIf, decide_eq_true_iff, List.filter_eq_nil_iff, List.forall_mem_map]
    simp only [mem_scanned, decide_eq_true_iff, true_and, and_imp]

theorem accepted_misSquareOff : Accepted (some (checkMisSquareOffArmed lib w)) ↔
    nseClose ≤ w.squareOffTime.time ∨ Fresh lib w.executionHeartbeat updatedAt w.squareOffNow := by
  rw [checkMisSquareOffArmed]
  by_cases h : nseClose ≤ w.squareOffTime.time
  · rw [if_pos h]
    exact iff_of_true (by simp) (.inl h)
  · rw [if_neg h, accepted_freshness (by simp) (by simp)]
    exact (or_iff_right h).symm

theorem accepted_ltpFresh : Accepted (some (checkLtpFresh lib w)) ↔
    w.settings.watchlistNse ≠ [] ∧ Fresh lib w.ltp capturedAt w.ltpNow := by
  rw [checkLtpFresh]
  by_cases h : w.settings.watchlistNse = []
  · rw [if_pos h]
    exact iff_of_false (by simp) fun hand => hand.1 h
  · rw [if_neg h, accepted_freshness (by simp) (by simp)]
    exact (and_iff_right h).symm

theorem accepted_session : Accepted (some (checkBrokerSessionValid w)) ↔
    ∃ item, w.session = some item ∧ item.text "access_token" ≠ "" := by
  rw [checkBrokerSessionValid]
  cases w.session with
  | none => exact iff_of_false (by simp) nofun
  | some item =>
    dsimp only
    rw [accepted_passIf, Bool.and_eq_true, decide_eq_true_iff, decide_eq_true_iff]
    constructor
    · exact fun h => ⟨item, rfl, h.2⟩
    · rintro ⟨_, h, htoken⟩
      cases h
      refine ⟨?_, htoken⟩
      rintro rfl
      exact htoken rfl

theorem accepted_margins : Accepted (some (checkMarginsReadable w)) ↔ w.margins = .readable := by
  rw [checkMarginsReadable]
  cases w.margins <;> simp

theorem accepted_tradingWindow : Accepted (some (checkTradingWindow w)) ↔
    w.windowTime.weekday < 5 ∧ nseOpen ≤ w.windowTime.time ∧ w.windowTime.time < nseClose := by
  rw [checkTradingWindow]
  by_cases hday : 5 ≤ w.windowTime.weekday
  · rw [if_pos hday]
    exact iff_of_false (by simp) fun h => absurd h.1 (not_lt.mpr hday)
  rw [if_neg hday, and_iff_right (not_le.mp hday)]
  by_cases htime : w.windowTime.time < nseOpen ∨ nseClose ≤ w.windowTime.time
  · rw [if_pos htime]
    refine iff_of_false (by simp) fun h => ?_
    exact htime.elim (not_lt.mpr h.1) (not_le.mpr h.2)
  · rw [if_neg htime]
    rw [not_or, not_lt, not_le] at htime
    exact iff_of_true (by simp) htime

theorem accepted_liveTradingEnabled : Accepted (some (checkLiveTradingEnabled lib w)) ↔
    lib.lower (strip w.liveTradingVariable) = "true" ∨
      lib.lower (strip w.liveTradingVariable) = "1" ∨ w.settings.liveTradingEnabled = true := by
  rw [checkLiveTradingEnabled, accepted_passIf, Bool.or_eq_true, Bool.or_eq_true,
    decide_eq_true_iff, decide_eq_true_iff, or_assoc]

/-- The first check adds nothing to the one of the stage. -/
theorem live_stage_ne_empty (h : strip (rec.text "live_stage") ∈ approvedStages) :
    rec.text "live_stage" ≠ "" := by
  intro hempty
  rw [hempty] at h
  exact absurd h (by decide)

/-- The gate approves if and only if all that it reads is in order. -/
theorem approved_iff : (checkAll lib w).status = .approved ↔ InOrder lib w := by
  rw [checkAll_approved]
  simp only [checkFns, List.forall_mem_cons, List.not_mem_nil, false_imp_iff, implies_true,
    and_true, checkKillSwitchOff, checkReconciliationClean, checkTradeExitEngineRunning,
    checkCloudwatchAlarmsActive, checkNoUnresolvedCriticalAlerts]
  constructor
  · rintro ⟨-, henabled, htoken, hstage, hcapital, horder, hloss, hwatch, hallowed, hkill, htee,
      hsquare, hrecon, hltp, hsession, hmargins, horders, halarms, hsns, halerts, hwindow, hcutoff,
      hrollback, hrelease, hhuman, hpaper⟩
    rw [accepted_maxCapital] at hcapital
    rw [accepted_allowedStrategies] at hallowed
    rw [accepted_noPaperOnly] at hpaper
    rw [accepted_tradingWindow] at hwindow
    simp only [checkHumanApprovalRecorded, accepted_passIf, Bool.and_eq_true,
      decide_eq_true_iff] at hhuman
    constructor
    · constructor
      · simpa [checkManualApprovalToken] using htoken
      · simpa [checkLiveStageApproved] using hstage
      · exact hcapital.1
      · simpa [checkSnsAlertTested] using hsns
      · simpa [checkRollbackPlanExists] using hrollback
      · simpa [checkReleaseTagRecorded] using hrelease
      · exact hhuman.1
      · exact hhuman.2
    · constructor
      · exact accepted_liveTradingEnabled.mp henabled
      · exact hcapital.2
      · exact accepted_maxOrderValue.mp horder
      · exact accepted_maxDailyLoss.mp hloss
      · simpa [checkAllowedSymbolsConfigured] using hwatch
    · exact ⟨hallowed.1, hpaper.1, hallowed.2, hpaper.2⟩
    · constructor
      · exact accepted_flagOff.mp hkill
      · exact accepted_flagOff.mp hrecon
      · exact (accepted_freshness (by simp) (by simp)).mp htee
      · exact accepted_misSquareOff.mp hsquare
      · exact (accepted_ltpFresh.mp hltp).2
      · exact accepted_session.mp hsession
      · exact accepted_margins.mp hmargins
      · exact accepted_passIf.mp horders
      · exact accepted_noAlarm.mp halarms
      · exact accepted_noAlarm.mp halerts
      · exact hwindow.1
      · exact hwindow.2.1
      · exact hwindow.2.2
      · simpa [checkNoNewEntryCutoff] using hcutoff
  · rintro ⟨hrec, hset, hscan, hrun⟩
    have hlive := live_stage_ne_empty hrec.stage
    refine ⟨by simp [checkTradingModeLive, hlive],
      accepted_liveTradingEnabled.mpr hset.enabled, ?_, ?_,
      accepted_maxCapital.mpr ⟨hrec.maxCapital, hset.portfolioValue⟩,
      accepted_maxOrderValue.mpr hset.orderValue, accepted_maxDailyLoss.mpr hset.dailyLoss, ?_,
      accepted_allowedStrategies.mpr ⟨hscan.allowed, hscan.live⟩,
      accepted_flagOff.mpr hrun.killSwitch,
      (accepted_freshness (by simp) (by simp)).mpr hrun.exitEngine,
      accepted_misSquareOff.mpr hrun.squareOff, accepted_flagOff.mpr hrun.reconciliation,
      accepted_ltpFresh.mpr ⟨hset.watchlist, hrun.ltp⟩, accepted_session.mpr hrun.session,
      accepted_margins.mpr hrun.margins, ?_, accepted_noAlarm.mpr hrun.alarms, ?_,
      accepted_noAlarm.mpr hrun.alerts,
      accepted_tradingWindow.mpr ⟨hrun.weekday, hrun.opened, hrun.notClosed⟩, ?_, ?_, ?_, ?_,
      accepted_noPaperOnly.mpr ⟨hscan.paperOnly, hscan.named⟩⟩
    · simpa [checkManualApprovalToken] using hrec.token
    · simpa [checkLiveStageApproved] using hrec.stage
    · simpa [checkAllowedSymbolsConfigured] using hset.watchlist
    · exact accepted_passIf.mpr hrun.orders
    · simpa [checkSnsAlertTested] using hrec.alertTested
    · simpa [checkNoNewEntryCutoff] using hrun.cutoff
    · simpa [checkRollbackPlanExists] using hrec.rollback
    · simpa [checkReleaseTagRecorded] using hrec.release
    · simpa [checkHumanApprovalRecorded] using And.intro hrec.approvedBy hrec.approvedAt

end Checks

section Soundness
variable (lib : Library) (w : World)

/-- The names with which the service registers the strategies that may trade on paper only -/
def registeredPaperOnly : List String := ["nse_scalp_1m"]

/-- The number in an attribute, if it is one -/
def number : AttributeValue → Option JsonFloat
  | .n t => lib.floatOfText t
  | _ => none

/-- A setting that is a positive number, and not above a limit -/
def Within (value : Json) (limit : Option ℚ) : Prop :=
  ∃ x, lib.float (value.orElse (.int 0)) = some x ∧ x.gt 0 = true ∧
    ∀ bound ∈ limit, x.le bound = true

/-- What an approval stands for -/
structure Safe : Prop where
  killSwitch : ReadsClear w.killSwitch "active"
  reconciliation : ReadsClear w.reconciliation "reconciliation_required"
  paperOnly : ∀ row ∈ w.strategyPages.flatten, strategyOf row.key.pk ∈ registeredPaperOnly →
    tradesLive row = false
  live : ∃ row ∈ w.strategyPages.flatten, tradesLive row = true ∧ enabled row = true
  maxCapital : ∀ raw ∈ (fetchApprovalRecord w).lookup "max_capital",
    ∃ x, number lib raw = some x ∧ x.le stage1MaxPortfolioValue = true
  portfolioValue : Within lib w.settings.portfolioValue (some stage1MaxPortfolioValue)
  orderCap : Within lib w.settings.maxSingleOrderValue (some stage1MaxOrderValue)
  dailyLoss : Within lib w.settings.maxDailyLossPct none

/-- What the checks do not look at: all pages, the registered names, a capital that is no number,
and a NaN among the settings. -/
structure Unchecked : Prop where
  rows : ∀ row ∈ w.strategyPages.flatten, strategyOf row.key.pk ∈ registeredPaperOnly →
    tradesLive row = false
  capital : ∀ raw ∈ (fetchApprovalRecord w).lookup "max_capital",
    ∃ x, number lib raw = some x ∧ x ≠ .nan
  settings : ∀ value ∈ [w.settings.portfolioValue, w.settings.maxSingleOrderValue,
    w.settings.maxDailyLossPct], lib.float (value.orElse (.int 0)) ≠ some .nan

variable {lib : Library} {w : World}

theorem recCapital_of_number {raw : AttributeValue} {x : JsonFloat} (h : number lib raw = some x) :
    recCapital lib raw = x := by
  cases raw with
  | n t =>
    rw [number] at h
    rw [recCapital, h, Option.getD_some]
  | _ => cases h

theorem within_iff {value : Json} {limit : Option ℚ} (h : Setting lib value limit) :
    Within lib value limit ↔ lib.float (value.orElse (.int 0)) ≠ some .nan := by
  obtain ⟨x, hx, hpositive, hlimit⟩ := h
  constructor
  · rintro ⟨y, hy, hgt, _⟩ hnan
    rw [hy, Option.some.injEq] at hnan
    exact (JsonFloat.gt_iff.mp hgt).2 hnan
  · intro hnan
    have hne : x ≠ .nan := fun he => hnan (he ▸ hx)
    exact ⟨x, hx, JsonFloat.gt_iff.mpr ⟨hpositive, hne⟩,
      fun bound hbound => JsonFloat.le_iff.mpr ⟨hlimit bound hbound, hne⟩⟩

theorem headD_subset {row : Row} (h : row ∈ w.strategyPages.headD []) :
    row ∈ w.strategyPages.flatten := by
  cases hpages : w.strategyPages with
  | nil =>
    rw [hpages] at h
    cases h
  | cons page pages =>
    rw [hpages] at h
    exact List.mem_append_left _ h

/-- With all that is read in order, the rest decides. -/
theorem safe_iff (h : InOrder lib w) : Safe lib w ↔ Unchecked lib w := by
  constructor
  · intro hsafe
    refine ⟨hsafe.paperOnly, fun raw hraw => ?_, ?_⟩
    · obtain ⟨x, hx, hle⟩ := hsafe.maxCapital raw hraw
      exact ⟨x, hx, (JsonFloat.le_iff.mp hle).2⟩
    · simp only [List.forall_mem_cons, List.not_mem_nil, false_imp_iff, implies_true, and_true]
      exact ⟨(within_iff h.settings.portfolioValue).mp hsafe.portfolioValue,
        (within_iff h.settings.orderValue).mp hsafe.orderCap,
        (within_iff h.settings.dailyLoss).mp hsafe.dailyLoss⟩
  · rintro ⟨hrows, hcapital, hsettings⟩
    simp only [List.forall_mem_cons, List.not_mem_nil, false_imp_iff, implies_true,
      and_true] at hsettings
    obtain ⟨row, hrow, hlive⟩ := h.scan.live
    constructor
    · exact h.runtime.killSwitch
    · exact h.runtime.reconciliation
    · exact hrows
    · exact ⟨row, headD_subset hrow, hlive⟩
    · intro raw hraw
      obtain ⟨x, hx, hnan⟩ := hcapital raw hraw
      have hgt := h.record.maxCapital raw hraw
      rw [recCapital_of_number hx] at hgt
      exact ⟨x, hx, JsonFloat.le_iff.mpr ⟨hgt, hnan⟩⟩
    · exact (within_iff h.settings.portfolioValue).mpr hsettings.1
    · exact (within_iff h.settings.orderValue).mpr hsettings.2.1
    · exact (within_iff h.settings.dailyLoss).mpr hsettings.2.2

variable (lib : Library) (w : World)

/-- Every run ends with a result on each check, and its approval is sound exactly when something
that is read is not in order or what is not checked is fine. -/
theorem approval_sound_iff : (checkAll lib w).checks.length = 26 ∧
    (((checkAll lib w).status = .approved → Safe lib w) ↔
      (InOrder lib w → Unchecked lib w)) := by
  refine ⟨checkAll_length, ?_⟩
  rw [approved_iff]
  constructor
  · exact fun h hin => (safe_iff hin).mp (h hin)
  · exact fun h hin => (safe_iff hin).mpr (h hin)

end Soundness

section Promoted

def sampleLibrary : Library where
  lower := id
  reprValue _ := "\x7b'S': ''\x7d"
  floatOfText _ := none
  fromisoformat _ := .aware 0

def heartbeat : Item := [("updated_at", .s "1970-01-01T00:00:00+00:00")]

def signedOff : Item := [("approval_token", .s "t-1"), ("live_stage", .s "STAGE_1_ONE_SHARE"),
  ("approved_by", .s "operator"), ("approved_at", .s "2026-06-02T09:00:00+05:30"),
  ("release_tag", .s "v1"), ("rollback_plan_confirmed", .bool true),
  ("sns_alert_tested", .bool true)]

/-- The scalp strategy, under the name it is registered with, promoted to live -/
def scalpRow : Row := ⟨⟨"STRATEGY_CONFIG#nse_scalp_1m", "ENV#production"⟩,
  [("paper_trade", .bool false), ("enabled", .bool true)]⟩

def scalpPromoted : World where
  settings :=
    { environment := "production"
      liveTradingEnabled := true
      portfolioValue := .float (.finite 500000)
      maxSingleOrderValue := .float (.finite 5000)
      maxDailyLossPct := .float (.finite (1 / 2))
      watchlistNse := ["INFY"] }
  approval := some signedOff
  strategyPages := [[scalpRow]]
  killSwitch := some []
  reconciliation := some []
  teeHeartbeat := some heartbeat
  executionHeartbeat := some heartbeat
  ltp := some heartbeat
  session := some [("access_token", .s "a-1")]
  ordersProbe := some []
  margins := .readable
  cloudWatch := some ⟨some [], some []⟩
  teeNow := 60
  squareOffNow := 60
  ltpNow := 60
  squareOffTime := ⟨1, 36000⟩
  windowTime := ⟨1, 36000⟩
  cutoffTime := ⟨1, 36000⟩

/-- The gate approves with the paper-only strategy live. -/
theorem paper_only_strategy_approved :
    (checkAll sampleLibrary scalpPromoted).status = .approved ∧
      ¬ Safe sampleLibrary scalpPromoted := by
  constructor
  · decide +kernel
  · intro h
    have hrow := h.paperOnly scalpRow (by simp [scalpPromoted]) (by decide +kernel)
    exact absurd hrow (by decide)

end Promoted

end QuantEmbrace.LiveGate
