import QuantEmbrace.Lib.ChangeLog
import QuantEmbrace.Lib.LineFile
import QuantEmbrace.Lib.PythonInt
import QuantEmbrace.Lib.PythonValue

/-! The monitoring agent's incident log: it reports the components whose status has changed, with
a line for each in a file from which a new agent takes up what the old one knew. -/
namespace QuantEmbrace.MonitoringAgent
open PythonValue LineFile

inductive Status where
  | ok | degraded | down | unknown
  deriving DecidableEq, Repr

namespace Status

def value : Status → String
  | .ok => "ok"
  | .degraded => "degraded"
  | .down => "down"
  | .unknown => "unknown"

def all : List Status := [.ok, .degraded, .down, .unknown]

/-- `Status(text)` -/
def ofValue (text : String) : Option Status := all.find? fun s => s.value = text

/-- `_RANK` and `_SEVERITY_ORDER` -/
def rank : Status → ℕ
  | .ok => 0
  | .unknown => 1
  | .degraded => 2
  | .down => 3

/-- `ALERTING_STATUSES` -/
def alerting : Status → Bool
  | .ok => false
  | _ => true

/-- The first of the worst ones, OK if there is none. -/
def worst : List Status → Status
  | [] => .ok
  | s :: ss => ss.foldl (fun w x => if w.rank < x.rank then x else w) s

@[simp] theorem ofValue_value (s : Status) : ofValue s.value = some s := by
  cases s <;> decide

theorem value_injective {s t : Status} (h : s.value = t.value) : s = t := by
  have hs := ofValue_value s
  rw [h, ofValue_value] at hs
  exact (Option.some.inj hs).symm

end Status

/-- `str.lower`, for the comparison with words of ASCII letters: beside those only the Kelvin
sign becomes one of them. -/
def lower (cs : List Char) : List Char :=
  cs.map fun c => if c = '\u212A' then 'k' else c.toLower

/-- `str(value).strip().lower()` -/
def normalised (text : String) : String := String.ofList (lower (PythonInt.strip text.toList))

/-- `_coerce_status` -/
def coerceStatus (text : String) : Status := (Status.ofValue (normalised text)).getD .degraded

@[simp] theorem coerceStatus_value (s : Status) : coerceStatus s.value = s := by
  have hnormalised : normalised s.value = s.value := by
    cases s <;> decide +kernel
  rw [coerceStatus, hnormalised, Status.ofValue_value]
  rfl

structure CollectorResult where
  name : String
  status : Status
  summary : String
  details : List (Text × Json) := []
  error : Option String := none

structure HealthSnapshot where
  results : List CollectorResult
  phase : ℕ := 2

def HealthSnapshot.overallStatus (snapshot : HealthSnapshot) : Status :=
  Status.worst (snapshot.results.map CollectorResult.status)

structure Transition where
  component : String
  previous : Option String
  current : String
  summary : String
  isRecovery : Bool
  alertworthy : Bool
  deriving DecidableEq, Repr

/-- A line of the log. -/
structure LogRecord where
  transition : Transition
  overallStatus : Status
  phase : ℕ
  deriving DecidableEq, Repr

/-- The status would be alerted about. -/
def reaches (minStatus : String) (status : Status) : Bool :=
  status.alerting && (coerceStatus minStatus).rank ≤ status.rank

/-- `_alertworthy` -/
def alertworthy (minStatus : String) (previous : Option String) (current : String) : Bool :=
  let currentStatus := coerceStatus current
  reaches minStatus currentStatus ||
    currentStatus = .ok && previous.any fun p => reaches minStatus (coerceStatus p)

def Transition.change (t : Transition) : ChangeLog.Change String String :=
  ⟨t.component, t.previous, t.current⟩

/-- What a reader of the log gets from its lines: one without component or status is passed
over. -/
def replayed (records : List LogRecord) : String → Option String :=
  ChangeLog.replay (fun _ => none) <| (records.map fun r => r.transition.change).filter fun c =>
    c.key ≠ "" ∧ c.after ≠ ""

/-- The agent's `_last` while it runs; the appends to the file, and what `record` has returned,
so far. -/
structure World where
  running : Bool := true
  last : String → Option String := fun _ => none
  appends : List (LogRecord × Extent) := []
  returned : List Transition := []

/-- A cycle, with what becomes of the line of each result if it appends one; or a restart of the
agent. -/
inductive Event where
  | cycle (phase : ℕ) (results : List (CollectorResult × Extent))
  | restart

namespace World
variable (minStatus : String)

def file (w : World) : File LogRecord := w.appends.foldl File.append {}

/-- `_restore`: that the file is no text is not caught, and the agent does not start. -/
def restart (w : World) : World :=
  match w.file.content with
  | none => { w with running := false }
  | some records => { w with running := true, last := replayed records }

/-- The body of `record`'s loop. -/
def recordOne (snapshot : HealthSnapshot) (w : World) (result : CollectorResult × Extent) :
    World :=
  let previous := w.last result.1.name
  let current := result.1.status.value
  if previous = some current then w
  else
    let transition : Transition := {
      component := result.1.name
      previous
      current
      summary := result.1.summary
      isRecovery := current = Status.ok.value
      alertworthy := alertworthy minStatus previous current }
    { w with
      last := Function.update w.last result.1.name (some current)
      appends := w.appends ++ [(⟨transition, snapshot.overallStatus, snapshot.phase⟩, result.2)]
      returned := w.returned ++ [transition] }

def record (phase : ℕ) (results : List (CollectorResult × Extent)) (w : World) : World :=
  results.foldl (recordOne minStatus ⟨results.map Prod.fst, phase⟩) w

def step (w : World) : Event → World
  | .restart => w.restart
  | .cycle phase results => if w.running then w.record minStatus phase results else w

def run (events : List Event) : World := events.foldl (step minStatus) {}

end World

def Event.results : Event → List (CollectorResult × Extent)
  | .cycle _ results => results
  | .restart => []

/-- What the collectors have seen, cycle after cycle. -/
def observed (events : List Event) : List (String × String) :=
  (events.flatMap Event.results).map fun r => (r.1.name, r.1.status.value)

namespace World
variable {minStatus : String}
open ChangeLog

/-- The log and the memory of an agent that has seen `obs` and whose appends were all written. -/
structure Follows (minStatus : String) (obs : List (String × String)) (w : World) : Prop where
  running : w.running = true
  last : w.last = remember (fun _ => none) obs
  reports : w.returned.map Transition.change = changes (fun _ => none) obs
  appends : w.appends.map (fun r => r.1.transition) = w.returned
  written : ∀ r ∈ w.appends, r.2 = .all
  alerts : ∀ t ∈ w.returned, t.alertworthy = alertworthy minStatus t.previous t.current
  statuses : ∀ t ∈ w.returned, ∃ s : Status, t.current = s.value

theorem follows_nil : Follows minStatus [] {} where
  running := rfl
  last := rfl
  reports := rfl
  appends := rfl
  written := by simp
  alerts := by simp
  statuses := by simp

theorem Follows.recordOne {obs : List (String × String)} {w : World} (h : Follows minStatus obs w)
    (snapshot : HealthSnapshot) {result : CollectorResult × Extent} (hall : result.2 = .all) :
    Follows minStatus (obs ++ [(result.1.name, result.1.status.value)])
      (w.recordOne minStatus snapshot result) := by
  have hlast := congrFun h.last result.1.name
  by_cases hknown : w.last result.1.name = some result.1.status.value
  · have hsame : w.recordOne minStatus snapshot result = w := by
      rw [World.recordOne, if_pos hknown]
    rw [hsame]
    refine ⟨h.running, ?_, ?_, h.appends, h.written, h.alerts, h.statuses⟩
    · rw [remember_append, ← h.last]
      exact (learn_of_known hknown).symm
    · rw [changes_append, ← h.last, h.reports, ChangeLog.changes, if_pos hknown, ChangeLog.changes,
        List.append_nil]
  · rw [World.recordOne, if_neg hknown]
    refine ⟨h.running, ?_, ?_, ?_, ?_, ?_, ?_⟩
    · rw [remember_append, ← h.last]
      rfl
    · rw [changes_append, ← h.last, List.map_append, h.reports, ChangeLog.changes, if_neg hknown]
      rfl
    · rw [List.map_append, h.appends]
      rfl
    · rw [List.forall_mem_append]
      exact ⟨h.written, fun r hr => (List.mem_singleton.mp hr) ▸ hall⟩
    · intro t ht
      obtain ht | ht := List.mem_append.mp ht
      · exact h.alerts t ht
      · obtain rfl := List.mem_singleton.mp ht
        rfl
    · intro t ht
      obtain ht | ht := List.mem_append.mp ht
      · exact h.statuses t ht
      · obtain rfl := List.mem_singleton.mp ht
        exact ⟨result.1.status, rfl⟩

theorem Follows.record {obs : List (String × String)} {w : World} (h : Follows minStatus obs w)
    (phase : ℕ) {results : List (CollectorResult × Extent)} (hall : ∀ r ∈ results, r.2 = .all) :
    Follows minStatus (obs ++ results.map fun r => (r.1.name, r.1.status.value))
      (w.record minStatus phase results) := by
  rw [World.record]
  generalize (⟨results.map Prod.fst, phase⟩ : HealthSnapshot) = snapshot
  induction results generalizing obs w with
  | nil => simpa using h
  | cons result results ih =>
    obtain ⟨hresult, hresults⟩ := List.forall_mem_cons.mp hall
    rw [List.map_cons, List.foldl_cons, List.append_cons]
    exact ih (h.recordOne snapshot hresult) hresults

/-- A reader finds in the file what the agent remembers. -/
theorem Follows.restart {obs : List (String × String)} {w : World} (h : Follows minStatus obs w)
    (hobs : ∀ o ∈ obs, o.1 ≠ "" ∧ o.2 ≠ "") : w.restart = w := by
  have hcontent : w.file.content = some (w.appends.map Prod.fst) := by
    rw [file, content_foldl_append, if_pos fun r hr => by rw [h.written r hr]; nofun,
      kept_of_all h.written]
  have hchanges : (w.appends.map Prod.fst).map (fun r => r.transition.change) =
      changes (fun _ => none) obs := by
    rw [← h.reports, ← h.appends, List.map_map, List.map_map]
    rfl
  have hnamed : ∀ c ∈ changes (fun _ => none) obs, decide (c.key ≠ "" ∧ c.after ≠ "") = true := by
    intro c hc
    obtain ⟨past, rest, rfl, -, -⟩ := mem_changes_iff.mp hc
    exact decide_eq_true (hobs (c.key, c.after) (by simp))
  have hreplayed : replayed (w.appends.map Prod.fst) = w.last := by
    rw [replayed, hchanges, List.filter_eq_self.mpr hnamed, replay_changes, h.last]
  rw [World.restart, hcontent]
  change { w with running := true, last := replayed (w.appends.map Prod.fst) } = w
  rw [hreplayed, ← h.running]

theorem observed_append (a b : List Event) : observed (a ++ b) = observed a ++ observed b := by
  rw [observed, List.flatMap_append, List.map_append]
  rfl

theorem observed_named {events : List Event}
    (hnamed : ∀ e ∈ events, ∀ r ∈ e.results, r.1.name ≠ "") :
    ∀ o ∈ observed events, o.1 ≠ "" ∧ o.2 ≠ "" := by
  intro o ho
  obtain ⟨r, hr, rfl⟩ := List.mem_map.mp ho
  obtain ⟨e, he, hr⟩ := List.mem_flatMap.mp hr
  refine ⟨hnamed e he r hr, ?_⟩
  change r.1.status.value ≠ ""
  cases r.1.status <;> decide

/-- Every step, also a restart, follows what the collectors see. -/
theorem follows_run (minStatus : String) {events : List Event}
    (hnamed : ∀ e ∈ events, ∀ r ∈ e.results, r.1.name ≠ "")
    (hall : ∀ e ∈ events, ∀ r ∈ e.results, r.2 = .all) :
    Follows minStatus (observed events) (run minStatus events) := by
  induction events using List.reverseRecOn with
  | nil => exact follows_nil
  | append_singleton events e ih =>
    obtain ⟨hpastNamed, -⟩ := List.forall_mem_append.mp hnamed
    obtain ⟨hpastAll, hlast⟩ := List.forall_mem_append.mp hall
    have h := ih hpastNamed hpastAll
    rw [run, List.foldl_append, observed_append]
    change Follows minStatus _ ((run minStatus events).step minStatus e)
    cases e with
    | restart =>
      change Follows minStatus (observed events ++ []) (run minStatus events).restart
      rw [h.restart (observed_named hpastNamed), List.append_nil]
      exact h
    | cycle phase results =>
      rw [step, if_pos h.running]
      simpa [observed, Event.results] using
        h.record phase (hlast (.cycle phase results) (List.mem_singleton_self _))

def Event.isCycle : Event → Bool
  | .cycle _ _ => true
  | .restart => false

theorem filter_isCycle_append (events : List Event) (e : Event) :
    (events ++ [e]).filter Event.isCycle =
      events.filter Event.isCycle ++ [e].filter Event.isCycle :=
  List.filter_append events [e]

/-- A restart leaves no trace. -/
theorem run_filter_isCycle {events : List Event}
    (hnamed : ∀ e ∈ events, ∀ r ∈ e.results, r.1.name ≠ "")
    (hall : ∀ e ∈ events, ∀ r ∈ e.results, r.2 = .all) :
    run minStatus (events.filter Event.isCycle) = run minStatus events := by
  induction events using List.reverseRecOn with
  | nil => rfl
  | append_singleton events e ih =>
    obtain ⟨hpastNamed, -⟩ := List.forall_mem_append.mp hnamed
    obtain ⟨hpastAll, -⟩ := List.forall_mem_append.mp hall
    rw [filter_isCycle_append, run, run, List.foldl_append, List.foldl_append]
    change ([e].filter Event.isCycle).foldl (step minStatus)
        (run minStatus (events.filter Event.isCycle)) =
      (run minStatus events).step minStatus e
    rw [ih hpastNamed hpastAll]
    cases e with
    | restart =>
      have h := follows_run minStatus hpastNamed hpastAll
      exact (h.restart (observed_named hpastNamed)).symm
    | cycle phase results => rfl

theorem reaches_ok (minStatus : String) : reaches minStatus .ok = false := rfl

/-- A recovery is announced when the status it ends was one to be alerted about. -/
theorem alertworthy_ok {p : String} :
    alertworthy minStatus (some p) Status.ok.value = reaches minStatus (coerceStatus p) := by
  rw [alertworthy, coerceStatus_value, reaches_ok]
  rfl

theorem alertworthy_of_ne_ok {previous : Option String} {current : String}
    (h : coerceStatus current ≠ .ok) :
    alertworthy minStatus previous current = reaches minStatus (coerceStatus current) := by
  simp [alertworthy, h]

/-- The transition with which the component came into the status that another one leaves. -/
theorem Follows.entered {obs : List (String × String)} {w : World} (h : Follows minStatus obs w)
    {pre post : List Transition} {t : Transition} (hsplit : w.returned = pre ++ t :: post)
    {p : String} (hprevious : t.previous = some p) :
    p ≠ t.current ∧ ∃ before u between, pre = before ++ u :: between ∧
      u.component = t.component ∧ u.current = p ∧ ∀ v ∈ between, v.component ≠ t.component := by
  have hreports := h.reports
  rw [hsplit, List.map_append, List.map_cons] at hreports
  obtain ⟨hbefore, hne⟩ := before_eq_replay hreports.symm
  refine ⟨fun he => hne (hprevious.trans (congrArg some he)), ?_⟩
  have hlatest := hbefore.symm.trans hprevious
  rw [replay, remember_none, List.map_map, latest_eq_some_iff] at hlatest
  obtain ⟨past, rest, heq, hrest⟩ := hlatest
  obtain ⟨before, others, rfl, -, hothers⟩ := List.map_eq_append_iff.mp heq
  obtain ⟨u, between, rfl, hu, hbetween⟩ := List.map_eq_cons_iff.mp hothers
  obtain ⟨hcomponent, hcurrent⟩ := Prod.mk.inj hu
  refine ⟨before, u, between, rfl, hcomponent, hcurrent, fun v hv => ?_⟩
  exact hrest _ (hbetween ▸ List.mem_map_of_mem hv)

/-- A recovery is announced exactly when the trouble it ends had been. -/
theorem Follows.recovery_iff {obs : List (String × String)} {w : World}
    (h : Follows minStatus obs w) {pre post : List Transition} {t : Transition}
    (hsplit : w.returned = pre ++ t :: post) (hok : t.current = Status.ok.value) :
    t.alertworthy = true ↔ ∃ before u between, pre = before ++ u :: between ∧
      u.component = t.component ∧ t.previous = some u.current ∧ u.alertworthy = true ∧
      ∀ v ∈ between, v.component ≠ t.component := by
  have ht := h.alerts t (by rw [hsplit]; simp)
  rw [hok] at ht
  cases hprevious : t.previous with
  | none =>
    rw [hprevious] at ht
    simp [ht, alertworthy, reaches_ok]
  | some p =>
    obtain ⟨hne, before, u, between, rfl, hcomponent, rfl, hbetween⟩ := h.entered hsplit hprevious
    have hmem : u ∈ w.returned := by
      rw [hsplit]
      simp
    obtain ⟨s, hs⟩ := h.statuses u hmem
    have hs' : coerceStatus u.current ≠ .ok := by
      rw [hs, coerceStatus_value]
      rintro rfl
      exact hne (hs.trans hok.symm)
    have hu : u.alertworthy = reaches minStatus (coerceStatus u.current) :=
      (h.alerts u hmem).trans (alertworthy_of_ne_ok hs')
    rw [ht, hprevious, alertworthy_ok, ← hu]
    constructor
    · intro halert
      exact ⟨before, u, between, rfl, hcomponent, rfl, halert, hbetween⟩
    · rintro ⟨before', u', between', heq, hcomponent', hcurrent, halert, hbetween'⟩
      rw [hu, Option.some.inj hcurrent]
      have hmem' : u' ∈ w.returned := by
        rw [hsplit, heq]
        simp
      rw [h.alerts u' hmem'] at halert
      rwa [alertworthy_of_ne_ok] at halert
      rwa [← Option.some.inj hcurrent]

/-- As long as every line is written, the agent may be restarted at any time: it reports the
changes of the status of each component once, and announces the end of what it has announced. -/
theorem restarts_unnoticed (minStatus : String) {events : List Event}
    (hnamed : ∀ e ∈ events, ∀ r ∈ e.results, r.1.name ≠ "")
    (hall : ∀ e ∈ events, ∀ r ∈ e.results, r.2 = .all) :
    let w := run minStatus events
    w.running = true ∧ (∀ c, w.last c = latest c (observed events)) ∧
      run minStatus (events.filter Event.isCycle) = w ∧
      w.returned.map Transition.change = changes (fun _ => none) (observed events) ∧
      ∀ pre t post, w.returned = pre ++ t :: post → t.current = Status.ok.value →
        (t.alertworthy = true ↔ ∃ before u between, pre = before ++ u :: between ∧
          u.component = t.component ∧ t.previous = some u.current ∧ u.alertworthy = true ∧
          ∀ v ∈ between, v.component ≠ t.component) := by
  have h := follows_run minStatus hnamed hall
  refine ⟨h.running, fun c => ?_, run_filter_isCycle hnamed hall, h.reports,
    fun pre t post hsplit hok => h.recovery_iff hsplit hok⟩
  rw [h.last, remember_none]

/-- A service goes down, the agent is restarted, the service comes back. -/
def outage : List Event :=
  [.cycle 2 [(⟨"services", .ok, "up", [], none⟩, .all)],
    .cycle 2 [(⟨"services", .down, "unreachable", [], none⟩, .all)], .restart,
    .cycle 2 [(⟨"services", .down, "unreachable", [], none⟩, .all)],
    .cycle 2 [(⟨"services", .ok, "up", [], none⟩, .all)]]

theorem restarts_unnoticed_outage :
    (run "degraded" outage).returned.map Transition.change =
      [⟨"services", none, "ok"⟩, ⟨"services", some "ok", "down"⟩,
        ⟨"services", some "down", "ok"⟩] := by
  have hnamed : ∀ e ∈ outage, ∀ r ∈ e.results, r.1.name ≠ "" := by
    simp [outage, Event.results]
  have hall : ∀ e ∈ outage, ∀ r ∈ e.results, r.2 = .all := by
    simp [outage, Event.results]
  rw [(restarts_unnoticed "degraded" hnamed hall).2.2.2.1]
  decide

/-- The lines appended have a component and a status. -/
def Lined (w : World) : Prop :=
  ∀ r ∈ w.appends, r.1.transition.component ≠ "" ∧ r.1.transition.current ≠ ""

theorem Lined.recordOne {w : World} (h : Lined w) (snapshot : HealthSnapshot)
    {result : CollectorResult × Extent} (hname : result.1.name ≠ "") :
    Lined (w.recordOne minStatus snapshot result) := by
  rw [World.recordOne]
  split
  · exact h
  · refine List.forall_mem_append.mpr ⟨h, fun r hr => ?_⟩
    obtain rfl := List.mem_singleton.mp hr
    refine ⟨hname, ?_⟩
    change result.1.status.value ≠ ""
    cases result.1.status <;> decide

theorem Lined.step {w : World} (h : Lined w) {e : Event} (hnamed : ∀ r ∈ e.results, r.1.name ≠ "") :
    Lined (w.step minStatus e) := by
  cases e with
  | restart =>
    change Lined w.restart
    rw [restart]
    split <;> exact h
  | cycle phase results =>
    rw [World.step]
    split
    · rw [record]
      generalize (⟨results.map Prod.fst, phase⟩ : HealthSnapshot) = snapshot
      exact List.foldlRecOn results _ h fun w hw r hr => hw.recordOne snapshot (hnamed r hr)
    · exact h

theorem lined_run {events : List Event} (hnamed : ∀ e ∈ events, ∀ r ∈ e.results, r.1.name ≠ "") :
    Lined (run minStatus events) :=
  List.foldlRecOn events _ (fun _ hr => nomatch hr) fun _ hw e he => hw.step (hnamed e he)

/-- What the restarted agent goes by. -/
theorem restart_of_isText {w : World} (h : Lined w) (htext : ∀ r ∈ w.appends, r.2 ≠ .part true) :
    w.restart.running = true ∧ w.restart.returned = w.returned ∧ ∀ c, w.restart.last c =
      latest c ((kept true w.appends).map fun r =>
        (r.transition.component, r.transition.current)) := by
  have hcontent : w.file.content = some (kept true w.appends) := by
    rw [file, content_foldl_append, if_pos htext]
  have hlined : ∀ c ∈ (kept true w.appends).map (fun r => r.transition.change),
      decide (c.key ≠ "" ∧ c.after ≠ "") = true := by
    rw [List.forall_mem_map]
    intro r hr
    obtain ⟨attempt, hattempt, rfl⟩ := List.mem_map.mp ((kept_sublist true w.appends).subset hr)
    exact decide_eq_true (h attempt hattempt)
  rw [restart, hcontent]
  refine ⟨rfl, rfl, fun c => ?_⟩
  change replayed (kept true w.appends) c = _
  rw [replayed, List.filter_eq_self.mpr hlined, replay, remember_none, List.map_map]
  rfl

/-- An agent that cannot read the file does not come back. -/
theorem restart_of_not_isText {w : World} (htext : ¬∀ r ∈ w.appends, r.2 ≠ .part true)
    (later : List Event) : later.foldl (step minStatus) w.restart = w.restart := by
  have hdown (v : World) (hv : v.appends = w.appends) : v.restart = { v with running := false } := by
    rw [restart, file, content_foldl_append, hv, if_neg htext]
  induction later with
  | nil => rfl
  | cons e later ih =>
    have hstep : w.restart.step minStatus e = w.restart := by
      cases e with
      | restart =>
        change w.restart.restart = w.restart
        rw [hdown w rfl]
        exact hdown { w with running := false } rfl
      | cycle phase results =>
        rw [hdown w rfl]
        rfl
    rw [List.foldl_cons, hstep, ih]

/-- Where appends fail the agent restarts from the lines that are left, and passes over a status
that the last of them gives. An append that stops inside a character is its end. -/
theorem restart_exact (minStatus : String) {events : List Event}
    (hnamed : ∀ e ∈ events, ∀ r ∈ e.results, r.1.name ≠ "") :
    let w := run minStatus events
    ((∀ r ∈ w.appends, r.2 ≠ .part true) →
      w.restart.running = true ∧ ∀ snapshot (result : CollectorResult × Extent),
        ((w.restart.recordOne minStatus snapshot result).returned = w.returned ↔
          latest result.1.name ((kept true w.appends).map fun r =>
            (r.transition.component, r.transition.current)) = some result.1.status.value)) ∧
      ((∃ r ∈ w.appends, r.2 = .part true) →
        ∀ later : List Event, (later.foldl (step minStatus) w.restart).running = false ∧
          (later.foldl (step minStatus) w.restart).returned = w.returned) := by
  intro w
  have hlined : Lined w := lined_run hnamed
  constructor
  · intro htext
    obtain ⟨hrunning, hreturned, hlast⟩ := restart_of_isText hlined htext
    refine ⟨hrunning, fun snapshot result => ?_⟩
    rw [← hlast, ← hreturned, recordOne]
    by_cases hknown : w.restart.last result.1.name = some result.1.status.value
    · rw [if_pos hknown]
      exact iff_of_true rfl hknown
    · rw [if_neg hknown]
      exact iff_of_false (by simp) hknown
  · rintro ⟨r, hr, hpart⟩ later
    have htext : ¬∀ r ∈ w.appends, r.2 ≠ .part true := fun h => h r hr hpart
    rw [restart_of_not_isText htext, restart, file, content_foldl_append, if_neg htext]
    exact ⟨rfl, rfl⟩

/-- The recovery is not written; after a restart the next outage is passed over. -/
theorem restart_exact_unwritten :
    let events : List Event := [.cycle 2 [(⟨"kafka", .down, "unreachable", [], none⟩, .all)],
      .cycle 2 [(⟨"kafka", .ok, "up", [], none⟩, .nothing)]]
    let w := run "degraded" events
    (w.restart.recordOne "degraded" ⟨[], 2⟩
      (⟨"kafka", .down, "unreachable", [], none⟩, .all)).returned = w.returned := by
  intro events w
  have hnamed : ∀ e ∈ events, ∀ r ∈ e.results, r.1.name ≠ "" := by
    simp [events, Event.results]
  have htext : ∀ r ∈ w.appends, r.2 ≠ .part true := by
    decide +kernel
  exact (((restart_exact "degraded" hnamed).1 htext).2 _ _).mpr (by decide +kernel)

end World
end QuantEmbrace.MonitoringAgent
