import QuantEmbrace.Lib.Consecutive
import QuantEmbrace.Lib.GuardedRun
import QuantEmbrace.Lib.PythonInt
import Mathlib.Algebra.GroupWithZero.Nat

/-! The watchdog that moves the risk engine between the enriched topic and the pending one:
its two counters, and what a switch says of the checks before it. -/
namespace QuantEmbrace
open GuardedRun Consecutive

/-- What the watchdog reads of the item `ENRICHMENT_CONFIG`; an absent item has no attribute. -/
structure EnrichmentConfig where
  lagThreshold : Option String := none
  window : Option String := none
  recoveryWindow : Option String := none
  enrichmentRequired : Option Bool := none
  deriving DecidableEq, Repr

/-- A partition of the group's offsets: the committed offset, if any, and the watermarks. -/
structure PartitionOffsets where
  committed : Option ℤ
  low : ℤ
  high : ℤ
  deriving DecidableEq, Repr

/-- What the admin client says of the group: the query failed (or there are no brokers to
ask), the group has no result, or its partitions. -/
inductive GroupOffsets where
  | failed
  | noResult
  | partitions (ps : List PartitionOffsets)
  deriving DecidableEq, Repr

def PartitionOffsets.lag (p : PartitionOffsets) : ℕ := (p.high - p.committed.getD p.low).toNat

def GroupOffsets.measureLag : GroupOffsets → Option ℕ
  | .failed => none
  | .noResult => some 0
  | .partitions ps => some (ps.map PartitionOffsets.lag).sum

/-- What one check reads; a failed read of the table is `none`. -/
structure WatchdogCheck where
  config : Option EnrichmentConfig := some {}
  override : Option EnrichmentConfig := some {}
  offsets : GroupOffsets
  now : ℕ := 0
  deriving DecidableEq, Repr

structure EnrichmentState where
  useEnriched : Bool := true
  fallbackActivatedAt : Option ℕ := none
  fallbackCount : ℕ := 0
  consecutiveLagBreaches : ℕ := 0
  consecutiveClearChecks : ℕ := 0
  deriving DecidableEq, Repr

structure EnrichmentWatchdog extends EnrichmentState where
  lagThreshold : ℤ := 10
  window : ℤ := 2
  recoveryWindow : ℤ := 5
  deriving DecidableEq, Repr

/-- `if raw: current = int(raw)`; `none` when `int` raises. -/
def tuned (raw : Option String) (current : ℤ) : Option ℤ :=
  match raw with
  | none => some current
  | some raw => if raw = "" then some current else PythonInt.parse raw.toList

namespace EnrichmentWatchdog

/-- The parameters are set one after another; the first that is no number ends the refresh. -/
def refreshConfig (w : EnrichmentWatchdog) : Option EnrichmentConfig → EnrichmentWatchdog
  | none => w
  | some item =>
    match tuned item.lagThreshold w.lagThreshold with
    | none => w
    | some lagThreshold =>
      match tuned item.window w.window with
      | none => { w with lagThreshold }
      | some window =>
        match tuned item.recoveryWindow w.recoveryWindow with
        | none => { w with lagThreshold, window }
        | some recoveryWindow => { w with lagThreshold, window, recoveryWindow }

def isManuallyDisabled : Option EnrichmentConfig → Bool
  | none => false
  | some item => !item.enrichmentRequired.getD true

def activateFallback (w : EnrichmentWatchdog) (now : ℕ) : EnrichmentWatchdog :=
  { w with
    useEnriched := false
    fallbackActivatedAt := some now
    fallbackCount := w.fallbackCount + 1
    consecutiveLagBreaches := 0 }

def activateRecovery (w : EnrichmentWatchdog) : EnrichmentWatchdog :=
  { w with
    useEnriched := true
    fallbackActivatedAt := none
    consecutiveClearChecks := 0 }

def countBreach (w : EnrichmentWatchdog) : EnrichmentWatchdog :=
  { w with
    consecutiveLagBreaches := w.consecutiveLagBreaches + 1
    consecutiveClearChecks := 0 }

def countClear (w : EnrichmentWatchdog) : EnrichmentWatchdog :=
  { w with consecutiveClearChecks := w.consecutiveClearChecks + 1 }

/-- What a measured lag does to the watchdog whose parameters are fresh. -/
def judgeLag (w : EnrichmentWatchdog) (lag now : ℕ) : EnrichmentWatchdog :=
  if w.useEnriched then
    if w.lagThreshold ≤ lag then
      let w := w.countBreach
      if w.window ≤ w.consecutiveLagBreaches then w.activateFallback now else w
    else { w with consecutiveLagBreaches := 0 }
  else
    if lag = 0 then
      let w := w.countClear
      if w.recoveryWindow ≤ w.consecutiveClearChecks then w.activateRecovery else w
    else { w with consecutiveClearChecks := 0 }

def checkOnce (w : EnrichmentWatchdog) (c : WatchdogCheck) : EnrichmentWatchdog :=
  let w := w.refreshConfig c.config
  if isManuallyDisabled c.override then
    if w.useEnriched then w.activateFallback c.now else w
  else
    match c.offsets.measureLag with
    -- cannot measure: preserve the current state
    | none => w
    | some lag => w.judgeLag lag c.now

end EnrichmentWatchdog

/-- What is on record of one check: the mode before and after it, what it found, and the
parameters in force. -/
structure CheckRecord where
  enriched : Bool
  overridden : Bool
  lag : Option ℕ
  lagThreshold : ℤ
  window : ℤ
  recoveryWindow : ℤ
  enrichedAfter : Bool
  deriving DecidableEq, Repr

namespace CheckRecord
variable (r : CheckRecord)

def Breach : Prop := r.enriched = true ∧ ∃ lag ∈ r.lag, r.lagThreshold ≤ lag

def Clear : Prop := r.lag = some 0

/-- The check moved the engine to the pending topic, and not for the override. -/
def FellBack : Prop := r.enriched = true ∧ r.enrichedAfter = false ∧ r.overridden = false

def Returned : Prop := r.enriched = false ∧ r.enrichedAfter = true

/-- The check measured the lag. -/
def measured : Bool := r.lag.isSome

/-- The check was not void for want of a measurement: it measured the lag or was overridden. -/
def attended : Bool := r.overridden || r.lag.isSome

instance : Decidable r.Breach := inferInstanceAs (Decidable (_ ∧ ∃ lag ∈ r.lag, _))
instance : Decidable r.Clear := inferInstanceAs (Decidable (_ = _))
instance : Decidable r.FellBack := inferInstanceAs (Decidable (_ ∧ _))
instance : Decidable r.Returned := inferInstanceAs (Decidable (_ ∧ _))

end CheckRecord

/-- The watchdog with the record of its checks, newest first. -/
structure WatchedRun where
  dog : EnrichmentWatchdog := {}
  records : List CheckRecord := []

namespace WatchedRun

def record (w : EnrichmentWatchdog) (c : WatchdogCheck) : CheckRecord :=
  let overridden := EnrichmentWatchdog.isManuallyDisabled c.override
  let fresh := w.refreshConfig c.config
  { enriched := w.useEnriched
    overridden
    lag := if overridden then none else c.offsets.measureLag
    lagThreshold := fresh.lagThreshold
    window := fresh.window
    recoveryWindow := fresh.recoveryWindow
    enrichedAfter := (w.checkOnce c).useEnriched }

def next (r : WatchedRun) (c : WatchdogCheck) : WatchedRun :=
  ⟨r.dog.checkOnce c, record r.dog c :: r.records⟩

/-- What the newest check must have before it to switch, of the checks that are kept: the last
`window` of them breached the threshold, or the last `recoveryWindow` of them were clear. -/
def Hysteresis (keepBreach keepClear : CheckRecord → Bool) (r : WatchedRun) : Prop :=
  match r.records with
  | [] => True
  | c :: cs =>
    (c.FellBack → LastAll CheckRecord.Breach c.window.toNat ((c :: cs).filter keepBreach)) ∧
    (c.Returned → c.overridden = false ∧
      LastAll CheckRecord.Clear c.recoveryWindow.toNat ((c :: cs).filter keepClear))

instance (keepBreach keepClear : CheckRecord → Bool) :
    DecidablePred (Hysteresis keepBreach keepClear) := fun r =>
  match h : r.records with
  | [] => .isTrue (by simp only [Hysteresis, h])
  | c :: cs => decidable_of_iff
      ((c.FellBack → LastAll CheckRecord.Breach c.window.toNat ((c :: cs).filter keepBreach)) ∧
        (c.Returned → c.overridden = false ∧
          LastAll CheckRecord.Clear c.recoveryWindow.toNat ((c :: cs).filter keepClear)))
      (by simp only [Hysteresis, h])

/-- No check is overridden while clear checks are being counted. -/
def CountUndisturbed (r : WatchedRun) (c : WatchdogCheck) : Prop :=
  EnrichmentWatchdog.isManuallyDisabled c.override = true → r.dog.consecutiveClearChecks = 0

instance (r : WatchedRun) (c : WatchdogCheck) : Decidable (r.CountUndisturbed c) :=
  inferInstanceAs (Decidable (_ → _))

/-- What the counters stand for; only the counter of the current mode is ever positive. -/
structure Counts (keep : CheckRecord → Bool) (r : WatchedRun) : Prop where
  enriched : r.dog.useEnriched = true → r.dog.consecutiveClearChecks = 0
  fallback : r.dog.useEnriched = false → r.dog.consecutiveLagBreaches = 0
  breaches : LastAll CheckRecord.Breach r.dog.consecutiveLagBreaches
    (r.records.filter CheckRecord.attended)
  clears : LastAll CheckRecord.Clear r.dog.consecutiveClearChecks (r.records.filter keep)
  hysteresis : r.Hysteresis CheckRecord.attended keep

end WatchedRun

@[simp] theorem EnrichmentWatchdog.refreshConfig_state (w : EnrichmentWatchdog)
    (item : Option EnrichmentConfig) :
    (w.refreshConfig item).toEnrichmentState = w.toEnrichmentState := by
  fun_cases EnrichmentWatchdog.refreshConfig w item <;> rfl

namespace EnrichmentWatchdog
variable (w : EnrichmentWatchdog) {c : WatchdogCheck} {lag : ℕ}

theorem checkOnce_overridden (h : isManuallyDisabled c.override = true) :
    w.checkOnce c = if w.useEnriched then (w.refreshConfig c.config).activateFallback c.now
      else w.refreshConfig c.config := by
  simp only [checkOnce, h, if_true, refreshConfig_state]

theorem checkOnce_unmeasured (h : isManuallyDisabled c.override = false)
    (hl : c.offsets.measureLag = none) : w.checkOnce c = w.refreshConfig c.config := by
  simp only [checkOnce, h, hl, Bool.false_eq_true, if_false]

theorem checkOnce_measured (h : isManuallyDisabled c.override = false)
    (hl : c.offsets.measureLag = some lag) :
    w.checkOnce c = (w.refreshConfig c.config).judgeLag lag c.now := by
  simp only [checkOnce, h, hl, Bool.false_eq_true, if_false]

/-- In enriched mode a breach is counted and may end in the fallback; any other lag clears the
count. -/
theorem judgeLag_enriched (he : w.useEnriched = true) (lag now : ℕ) :
    (w.lagThreshold ≤ lag ∧ w.window ≤ w.consecutiveLagBreaches + 1 ∧
      w.judgeLag lag now = w.countBreach.activateFallback now) ∨
    (w.lagThreshold ≤ lag ∧ w.judgeLag lag now = w.countBreach) ∨
    w.judgeLag lag now = { w with consecutiveLagBreaches := 0 } := by
  by_cases ht : w.lagThreshold ≤ lag
  · by_cases hw : w.window ≤ w.consecutiveLagBreaches + 1
    · exact .inl ⟨ht, hw, by simp [judgeLag, he, ht, countBreach, hw]⟩
    · exact .inr (.inl ⟨ht, by simp [judgeLag, he, ht, countBreach, hw]⟩)
  · exact .inr (.inr (by simp [judgeLag, he, ht]))

theorem judgeLag_fallback (he : w.useEnriched = false) (lag now : ℕ) :
    (lag = 0 ∧ w.recoveryWindow ≤ w.consecutiveClearChecks + 1 ∧
      w.judgeLag lag now = w.countClear.activateRecovery) ∨
    (lag = 0 ∧ w.judgeLag lag now = w.countClear) ∨
    w.judgeLag lag now = { w with consecutiveClearChecks := 0 } := by
  by_cases ht : lag = 0
  · by_cases hw : w.recoveryWindow ≤ w.consecutiveClearChecks + 1
    · exact .inl ⟨ht, hw, by simp [judgeLag, he, ht, countClear, hw]⟩
    · exact .inr (.inl ⟨ht, by simp [judgeLag, he, ht, countClear, hw]⟩)
  · exact .inr (.inr (by simp [judgeLag, he, ht]))

end EnrichmentWatchdog

namespace WatchedRun
variable {keep : CheckRecord → Bool} {r : WatchedRun} {c : WatchdogCheck}

theorem Counts.next_overridden (hc : Counts keep r)
    (ho : EnrichmentWatchdog.isManuallyDisabled c.override = true)
    (hk : keep (record r.dog c) = false ∨ r.dog.consecutiveClearChecks = 0) :
    Counts keep (r.next c) := by
  have hd := r.dog.checkOnce_overridden ho
  have hclears : LastAll CheckRecord.Clear r.dog.consecutiveClearChecks
      ((record r.dog c :: r.records).filter keep) := by
    obtain hk | hk := hk
    · exact hc.clears.skip hk
    · rw [hk]
      exact lastAll_zero
  cases he : r.dog.useEnriched with
  | true =>
    rw [he, if_pos rfl] at hd
    refine ⟨?_, ?_, ?_, ?_, ?_⟩
    · simp [next, hd, EnrichmentWatchdog.activateFallback]
    · simp [next, hd, EnrichmentWatchdog.activateFallback]
    · simp [next, hd, EnrichmentWatchdog.activateFallback]
    · simpa [next, hd, EnrichmentWatchdog.activateFallback] using hclears
    · simp [next, Hysteresis, record, ho, CheckRecord.FellBack, CheckRecord.Returned, he]
  | false =>
    rw [he, if_neg (by simp)] at hd
    refine ⟨?_, ?_, ?_, ?_, ?_⟩
    · simp [next, hd, he]
    · simpa [next, hd, he] using hc.fallback he
    · simp [next, hd, hc.fallback he]
    · simpa [next, hd] using hclears
    · simp [next, Hysteresis, record, ho, CheckRecord.FellBack, CheckRecord.Returned, he, hd]

theorem Counts.next_unmeasured (hc : Counts keep r)
    (ho : EnrichmentWatchdog.isManuallyDisabled c.override = false)
    (hl : c.offsets.measureLag = none) (hk : keep (record r.dog c) = false) :
    Counts keep (r.next c) := by
  have hd := r.dog.checkOnce_unmeasured ho hl
  have ha : (record r.dog c).attended = false := by
    simp [record, CheckRecord.attended, ho, hl]
  refine ⟨?_, ?_, ?_, ?_, ?_⟩
  · simpa [next, hd] using hc.enriched
  · simpa [next, hd] using hc.fallback
  · simpa [next, hd] using hc.breaches.skip ha
  · simpa [next, hd] using hc.clears.skip hk
  · cases he : r.dog.useEnriched <;>
      simp [next, Hysteresis, record, CheckRecord.FellBack, CheckRecord.Returned, hd, he]

/-- A measured check in enriched mode: a breach is counted, and the fallback comes with the
count that reaches the window. -/
theorem Counts.next_enriched {lag : ℕ} (hc : Counts keep r)
    (ho : EnrichmentWatchdog.isManuallyDisabled c.override = false)
    (hl : c.offsets.measureLag = some lag) (he : r.dog.useEnriched = true) :
    Counts keep (r.next c) := by
  have hd := r.dog.checkOnce_measured ho hl
  have hs := r.dog.refreshConfig_state c.config
  have ha : (record r.dog c).attended = true := by
    simp [record, CheckRecord.attended, ho, hl]
  have hclear := hc.enriched he
  have hcount : (r.dog.refreshConfig c.config).lagThreshold ≤ lag →
      LastAll CheckRecord.Breach (r.dog.consecutiveLagBreaches + 1)
        ((record r.dog c :: r.records).filter CheckRecord.attended) := by
    intro ht
    exact hc.breaches.keep ha ⟨he, lag, by simp [record, ho, hl], ht⟩
  obtain ⟨ht, hw, hj⟩ | ⟨ht, hj⟩ | hj := (r.dog.refreshConfig c.config).judgeLag_enriched
    (by rw [hs, he]) lag c.now
  · rw [hj] at hd
    rw [hs] at hw
    refine ⟨?_, ?_, ?_, ?_, ?_⟩
    · simp [next, hd, EnrichmentWatchdog.activateFallback]
    · simp [next, hd, EnrichmentWatchdog.activateFallback]
    · simp [next, hd, EnrichmentWatchdog.activateFallback]
    · simp [next, hd, EnrichmentWatchdog.activateFallback, EnrichmentWatchdog.countBreach]
    · refine ⟨fun _ => (hcount ht).mono ?_, fun hr => ?_⟩
      · simp only [record]
        omega
      · simp [record, CheckRecord.Returned, he] at hr
  · rw [hj] at hd
    refine ⟨?_, ?_, ?_, ?_, ?_⟩
    · simp [next, hd, EnrichmentWatchdog.countBreach]
    · simp [next, hd, EnrichmentWatchdog.countBreach, he]
    · simpa [next, hd, EnrichmentWatchdog.countBreach] using hcount ht
    · simp [next, hd, EnrichmentWatchdog.countBreach]
    · simp [next, Hysteresis, record, CheckRecord.FellBack, CheckRecord.Returned, he, hd,
        EnrichmentWatchdog.countBreach]
  · rw [hj] at hd
    refine ⟨?_, ?_, ?_, ?_, ?_⟩
    · simp [next, hd, hclear]
    · simp [next, hd]
    · simp [next, hd]
    · simp [next, hd, hclear]
    · simp [next, Hysteresis, record, CheckRecord.FellBack, CheckRecord.Returned, he, hd]

/-- A measured check in fallback mode: a clear check is counted, and the return comes with the
count that reaches the recovery window. -/
theorem Counts.next_fallback {lag : ℕ} (hc : Counts keep r)
    (ho : EnrichmentWatchdog.isManuallyDisabled c.override = false)
    (hl : c.offsets.measureLag = some lag) (hk : keep (record r.dog c) = true)
    (he : r.dog.useEnriched = false) : Counts keep (r.next c) := by
  have hd := r.dog.checkOnce_measured ho hl
  have hs := r.dog.refreshConfig_state c.config
  have hbreach := hc.fallback he
  have hcount : lag = 0 → LastAll CheckRecord.Clear (r.dog.consecutiveClearChecks + 1)
      ((record r.dog c :: r.records).filter keep) := by
    rintro rfl
    exact hc.clears.keep hk (by simp [record, CheckRecord.Clear, ho, hl])
  obtain ⟨ht, hw, hj⟩ | ⟨ht, hj⟩ | hj := (r.dog.refreshConfig c.config).judgeLag_fallback
    (by rw [hs, he]) lag c.now
  · rw [hj] at hd
    rw [hs] at hw
    refine ⟨?_, ?_, ?_, ?_, ?_⟩
    · simp [next, hd, EnrichmentWatchdog.activateRecovery]
    · simp [next, hd, EnrichmentWatchdog.activateRecovery]
    · simp [next, hd, EnrichmentWatchdog.activateRecovery, EnrichmentWatchdog.countClear, hbreach]
    · simp [next, hd, EnrichmentWatchdog.activateRecovery]
    · refine ⟨fun hf => ?_, fun _ => ⟨ho, (hcount ht).mono ?_⟩⟩
      · simp [record, CheckRecord.FellBack, he] at hf
      · simp only [record]
        omega
  · rw [hj] at hd
    refine ⟨?_, ?_, ?_, ?_, ?_⟩
    · simp [next, hd, EnrichmentWatchdog.countClear, he]
    · simp [next, hd, EnrichmentWatchdog.countClear, hbreach]
    · simp [next, hd, EnrichmentWatchdog.countClear, hbreach]
    · simpa [next, hd, EnrichmentWatchdog.countClear] using hcount ht
    · simp [next, Hysteresis, record, CheckRecord.FellBack, CheckRecord.Returned, he, hd,
        EnrichmentWatchdog.countClear]
  · rw [hj] at hd
    refine ⟨?_, ?_, ?_, ?_, ?_⟩
    · simp [next, hd]
    · simp [next, hd, hbreach]
    · simp [next, hd, hbreach]
    · simp [next, hd]
    · simp [next, Hysteresis, record, CheckRecord.FellBack, CheckRecord.Returned, he, hd]

/-- The records that count: every check that measured the lag, none that was void. -/
def KeepsMeasured (keep : CheckRecord → Bool) : Prop :=
  ∀ c : CheckRecord, (c.measured = true → keep c = true) ∧ (c.attended = false → keep c = false)

theorem Counts.next (hkeep : KeepsMeasured keep) (hc : Counts keep r)
    (hover : EnrichmentWatchdog.isManuallyDisabled c.override = true →
      keep (record r.dog c) = false ∨ r.dog.consecutiveClearChecks = 0) :
    Counts keep (r.next c) := by
  cases ho : EnrichmentWatchdog.isManuallyDisabled c.override with
  | true => exact hc.next_overridden ho (hover ho)
  | false =>
    cases hl : c.offsets.measureLag with
    | none =>
      exact hc.next_unmeasured ho hl
        ((hkeep _).2 (by simp [record, CheckRecord.attended, ho, hl]))
    | some lag =>
      cases he : r.dog.useEnriched with
      | true => exact hc.next_enriched ho hl he
      | false =>
        exact hc.next_fallback ho hl
          ((hkeep _).1 (by simp [record, CheckRecord.measured, ho, hl])) he

theorem counts_start (keep : CheckRecord → Bool) : Counts keep {} :=
  ⟨fun _ => rfl, nofun, lastAll_zero, lastAll_zero, trivial⟩

theorem keepsMeasured_measured : KeepsMeasured CheckRecord.measured := by
  refine fun c => ⟨id, fun h => ?_⟩
  rw [CheckRecord.attended, Bool.or_eq_false_iff] at h
  exact h.2

theorem keepsMeasured_attended : KeepsMeasured CheckRecord.attended :=
  fun c => ⟨fun h => by rw [CheckRecord.measured] at h; simp [CheckRecord.attended, h], id⟩

theorem overridden_not_measured
    (ho : EnrichmentWatchdog.isManuallyDisabled c.override = true) :
    (record r.dog c).measured = false := by
  simp [record, CheckRecord.measured, ho]

end WatchedRun

open WatchedRun

/-- Whatever the checks find, a fallback not caused by the override follows a full window of
breaches among the checks that were not void, and a return a full window of clear measurements.
While no override disturbs a count of clear checks, none lies among them. -/
theorem topic_fallback_hysteresis (cs : List WatchdogCheck) :
    AlongRun next (Hysteresis CheckRecord.attended CheckRecord.measured) {} cs ∧
    (StepsMeet next CountUndisturbed {} cs →
      AlongRun next (Hysteresis CheckRecord.attended CheckRecord.attended) {} cs) := by
  constructor
  · have hrun : AlongRun next (Counts CheckRecord.measured) {} cs :=
      AlongRun.of_keep (fun r c hc => hc.next keepsMeasured_measured
        (fun ho => .inl (overridden_not_measured ho))) (counts_start _) cs
    exact fun pre hp => (hrun pre hp).hysteresis
  · intro h
    have hrun : AlongRun next (Counts CheckRecord.attended) {} cs :=
      h.invariant (fun r c hc hok => hc.next keepsMeasured_attended (fun ho => .inr (hok ho)))
        (counts_start _)
    exact fun pre hp => (hrun pre hp).hysteresis

/-- A check that finds one partition `lag` messages behind. -/
def lagCheck (lag : ℤ) : WatchdogCheck where
  offsets := .partitions [⟨some 0, 0, lag⟩]

/-- Two breaches and the fallback, an unanswered check, five clear ones and the return. -/
def fallbackAndReturn : List WatchdogCheck :=
  [lagCheck 15, lagCheck 12, { offsets := .failed }, lagCheck 0, lagCheck 0, lagCheck 0,
    lagCheck 0, lagCheck 0]

theorem topic_fallback_hysteresis_return :
    (fallbackAndReturn.foldl next {}).dog.useEnriched = true ∧
    (fallbackAndReturn.foldl next {}).dog.fallbackCount = 1 ∧
    AlongRun next (Hysteresis CheckRecord.attended CheckRecord.attended) {} fallbackAndReturn :=
  ⟨by decide, by decide, (topic_fallback_hysteresis fallbackAndReturn).2 (by decide)⟩

/-- A breach, a check that could not measure, and a breach: the fallback comes although the last
two checks in a row did not both find the lag. -/
theorem unmeasured_check_between_breaches :
    ¬ ∀ cs, AlongRun next (Hysteresis (fun _ => true) fun _ => true) {} cs := by
  intro h
  exact absurd (h [lagCheck 15, { offsets := .failed }, lagCheck 12]) (by decide)

end QuantEmbrace
