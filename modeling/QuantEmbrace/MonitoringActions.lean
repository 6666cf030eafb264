import QuantEmbrace.MonitoringFindings
import QuantEmbrace.SafeActionAudit
import QuantEmbrace.Lib.IsoFormat
import QuantEmbrace.Lib.Stamped

/-! What the monitoring agent does about its findings: which readings of the collectors make it
trip the kill switch or block entries, and how often over a day. -/
namespace QuantEmbrace.MonitoringAgent
open PythonValue SafeActions Json

/-- `proposed_action_types[:1]`, the one that is attempted -/
def Finding.firstAction (f : Finding) : Option ActionType :=
  (classifyFinding f.code f.subject).proposedActionTypes.head?

section Classifier
variable {code : Code} {subject : String}

def killCodes : List Code := [⟨"service", "down"⟩, ⟨"kafka", "unreachable"⟩, ⟨"dynamodb", "down"⟩]

def blockCodes : List Code :=
  [⟨"kafka", "missing_topics"⟩, ⟨"kafka", "group_lag_critical"⟩, ⟨"dynamodb", "degraded"⟩,
    ⟨"broker", "no_fresh_prices"⟩, ⟨"broker", "feed_very_stale"⟩]

def aiEngineCodes : List Code :=
  [⟨"service", "down"⟩, ⟨"docker", "down"⟩, ⟨"docker", "restart_loop"⟩]

/-- The answer of the two tables in their order. -/
def expectedAction (code : Code) (subject : String) : ActionType :=
  if subject = "ai_engine" ∧ code ∈ aiEngineCodes then .blockNewEntries
  else if code ∈ killCodes then .activateKillSwitch
  else if code ∈ blockCodes then .blockNewEntries
  else .sendAlert

theorem subjectOverride_of_ne (h : subject ≠ "ai_engine") :
    subjectOverride.lookup (subject, code) = none := by
  rw [List.lookup_eq_none_iff]
  intro entry hentry
  rw [bne_iff_ne]
  rintro heq
  have hall : ∀ entry ∈ subjectOverride, entry.1.1 = "ai_engine" := by decide
  exact h ((congrArg Prod.fst heq).trans (hall entry hentry))

theorem lookup_of_unknown (h : code ∉ codeTable.map Prod.fst) : codeTable.lookup code = none := by
  rw [List.lookup_eq_none_iff]
  intro entry hentry
  rw [bne_iff_ne]
  exact fun heq => h (heq ▸ List.mem_map_of_mem hentry)

theorem expectedAction_of_unknown (h : code ∉ codeTable.map Prod.fst) (subject : String) :
    expectedAction code subject = .sendAlert := by
  have hknown : ∀ c ∈ aiEngineCodes ++ killCodes ++ blockCodes, c ∈ codeTable.map Prod.fst := by
    decide
  simp only [List.mem_append] at hknown
  have hai : code ∉ aiEngineCodes := fun hc => h (hknown code (.inl (.inl hc)))
  have hkill : code ∉ killCodes := fun hc => h (hknown code (.inl (.inr hc)))
  have hblock : code ∉ blockCodes := fun hc => h (hknown code (.inr hc))
  rw [expectedAction, if_neg fun hc => hai hc.2, if_neg hkill, if_neg hblock]

/-- A code that is in neither table is alerted about. -/
theorem classifyFinding_of_unknown (h : code ∉ codeTable.map Prod.fst) (subject : String) :
    (classifyFinding code subject).proposedActionTypes = [.sendAlert] := by
  have hoverride : subjectOverride.lookup (subject, code) = none := by
    rw [List.lookup_eq_none_iff]
    intro entry hentry
    rw [bne_iff_ne]
    rintro heq
    have hknown : ∀ entry ∈ subjectOverride, entry.1.2 ∈ codeTable.map Prod.fst := by decide
    have hcode : code = entry.1.2 := congrArg Prod.snd heq
    exact h (hcode ▸ hknown entry hentry)
  rw [classifyFinding, hoverride, lookup_of_unknown h]
  rfl

theorem head_classifyFinding (code : Code) (subject : String) :
    (classifyFinding code subject).proposedActionTypes.head? =
      some (expectedAction code subject) := by
  by_cases hknown : code ∈ codeTable.map Prod.fst
  · by_cases hs : subject = "ai_engine"
    · subst hs
      revert code
      decide
    · rw [classifyFinding, subjectOverride_of_ne hs, expectedAction, if_neg fun hc => hs hc.1]
      revert code
      decide
  · rw [classifyFinding_of_unknown hknown, expectedAction_of_unknown hknown]
    rfl

theorem firstAction_eq (f : Finding) : f.firstAction = some (expectedAction f.code f.subject) :=
  head_classifyFinding f.code f.subject

end Classifier

/-- The findings of a kind that are acted on: critical ones, and the blockers. -/
def Acted (found : List Finding) (type : ActionType) : Prop :=
  ∃ f ∈ found, Severity.critical.rank ≤ f.severity.rank ∧ f.firstAction = some type

section Detectors
variable (lib : PythonLib)

/-- What a list of the details shows in one of its dictionaries. -/
def Shows (items : Json) (status : Status) (p : List (Text × Json) → Prop) : Prop :=
  ∃ entry ∈ dicts items, statusOf lib (field entry "status") = status ∧
    flag "critical" true entry = true ∧ p entry

variable {lib}

theorem rank_severityForStatus {critical : Bool} {status : Status} (h : status ≠ .ok) :
    Severity.critical.rank ≤ (severityForStatus critical status).rank ↔ critical = true := by
  cases status <;> cases critical <;> first | exact absurd rfl h | decide

/-- A detector that goes over the dictionaries of a list by their status. -/
theorem acted_filterMap {items : Json} {type : ActionType} (make : List (Text × Json) → Finding)
    (hseverity : ∀ entry, (make entry).severity =
      severityForStatus (flag "critical" true entry) (statusOf lib (field entry "status"))) :
    Acted ((dicts items).filterMap fun entry =>
        if statusOf lib (field entry "status") = .ok then none else some (make entry)) type ↔
      ∃ status, status ≠ .ok ∧ Shows lib items status fun entry =>
        (make entry).firstAction = some type := by
  constructor
  · rintro ⟨f, hf, hrank, haction⟩
    obtain ⟨entry, hentry, hmake⟩ := List.mem_filterMap.mp hf
    by_cases hok : statusOf lib (field entry "status") = .ok
    · rw [if_pos hok] at hmake
      cases hmake
    · rw [if_neg hok, Option.some.injEq] at hmake
      subst hmake
      rw [hseverity, rank_severityForStatus hok] at hrank
      exact ⟨_, hok, entry, hentry, rfl, hrank, haction⟩
  · rintro ⟨status, hne, entry, hentry, rfl, hcritical, haction⟩
    refine ⟨make entry, List.mem_filterMap.mpr ⟨entry, hentry, by rw [if_neg hne]⟩, ?_, haction⟩
    rw [hseverity, rank_severityForStatus hne]
    exact hcritical

theorem not_acted_nil (type : ActionType) : ¬Acted [] type := by
  rintro ⟨f, hf, -⟩
  cases hf

theorem acted_singleton {f : Finding} {type : ActionType} :
    Acted [f] type ↔ Severity.critical.rank ≤ f.severity.rank ∧
      expectedAction f.code f.subject = type := by
  simp [Acted, firstAction_eq]

theorem acted_append {first second : List Finding} {type : ActionType} :
    Acted (first ++ second) type ↔ Acted first type ∨ Acted second type := by
  simp only [Acted, List.mem_append, or_and_right, exists_or]

/-- A loop none of whose bodies raises. -/
theorem acted_inTurn {α : Type} {f : α → Py (List Finding)} {as : List α} {found : List Finding}
    (h : inTurn f as = .ok found) (type : ActionType) (P : α → Prop)
    (hbody : ∀ a found, f a = .ok found → (Acted found type ↔ P a)) :
    Acted found type ↔ ∃ a ∈ as, P a := by
  induction as generalizing found with
  | nil =>
    cases h
    simp [not_acted_nil]
  | cons a as ih =>
    rw [inTurn, bind_eq_ok] at h
    obtain ⟨first, hfirst, h⟩ := h
    obtain ⟨others, hothers, h⟩ := bind_eq_ok.mp h
    cases h
    rw [acted_append, hbody a first hfirst, ih hothers, List.exists_mem_cons_iff]

/-- The name a service or a container goes by. -/
def nameOf (lib : PythonLib) (entry : List (Text × Json)) : String :=
  str lib (Json.get "name" (.string "?") entry)

theorem expectedAction_service (status : Status) (subject : String) :
    expectedAction ⟨"service", status.value⟩ subject =
      if status = .down then
        if subject = "ai_engine" then .blockNewEntries else .activateKillSwitch
      else .sendAlert := by
  by_cases hs : subject = "ai_engine"
  · subst hs
    cases status <;> decide
  · simp only [expectedAction, hs, false_and, if_false]
    cases status <;> decide

theorem expectedAction_dynamodb (status : Status) (subject : String) :
    expectedAction ⟨"dynamodb", status.value⟩ subject =
      match status with
      | .down => .activateKillSwitch
      | .degraded => .blockNewEntries
      | _ => .sendAlert := by
  have hai : ⟨"dynamodb", status.value⟩ ∉ aiEngineCodes := by
    cases status <;> decide
  rw [expectedAction, if_neg fun h => hai h.2]
  cases status <;> decide

/-- One status leads to the action. -/
theorem exists_shows {items : Json} {target : Status} {P : Status → List (Text × Json) → Prop}
    {Q : List (Text × Json) → Prop} (htarget : target ≠ .ok)
    (h : ∀ status entry, P status entry ↔ status = target ∧ Q entry) :
    (∃ status, status ≠ .ok ∧ Shows lib items status (P status)) ↔ Shows lib items target Q := by
  constructor
  · rintro ⟨status, -, entry, hentry, hstatus, hcritical, hp⟩
    obtain ⟨rfl, hq⟩ := (h status entry).mp hp
    exact ⟨entry, hentry, hstatus, hcritical, hq⟩
  · rintro ⟨entry, hentry, hstatus, hcritical, hq⟩
    exact ⟨target, htarget, entry, hentry, hstatus, hcritical, (h target entry).mpr ⟨rfl, hq⟩⟩

theorem acted_services (lib : PythonLib) (details : List (Text × Json)) :
    (Acted (detectServices lib details) .activateKillSwitch ↔
      Shows lib (field details "services") .down fun svc => nameOf lib svc ≠ "ai_engine") ∧
    (Acted (detectServices lib details) .blockNewEntries ↔
      Shows lib (field details "services") .down fun svc => nameOf lib svc = "ai_engine") := by
  have hacted (type : ActionType) : Acted (detectServices lib details) type ↔
      ∃ status, status ≠ .ok ∧ Shows lib (field details "services") status fun svc =>
        expectedAction ⟨"service", status.value⟩ (nameOf lib svc) = type := by
    refine (acted_filterMap (fun svc => {
      component := "services"
      severity := severityForStatus (flag "critical" true svc) (statusOf lib (field svc "status"))
      code := ⟨"service", (statusOf lib (field svc "status")).value⟩
      subject := nameOf lib svc }) fun _ => rfl).trans ?_
    refine exists_congr fun status => and_congr_right fun _ => exists_congr fun svc => ?_
    refine and_congr_right fun _ => and_congr_right fun hstatus => and_congr_right fun _ => ?_
    beta_reduce
    rw [firstAction_eq, Option.some.injEq, hstatus]
  rw [hacted, hacted]
  refine ⟨exists_shows (by decide) fun status svc => ?_,
    exists_shows (by decide) fun status svc => ?_⟩ <;>
  · rw [expectedAction_service]
    by_cases hdown : status = .down <;> by_cases hai : nameOf lib svc = "ai_engine" <;>
      simp [hdown, hai]

theorem acted_dynamodb (lib : PythonLib) (details : List (Text × Json)) :
    (Acted (detectDynamoDB lib details) .activateKillSwitch ↔
      Shows lib (field details "tables") .down fun _ => True) ∧
    (Acted (detectDynamoDB lib details) .blockNewEntries ↔
      Shows lib (field details "tables") .degraded fun _ => True) := by
  have hacted (type : ActionType) : Acted (detectDynamoDB lib details) type ↔
      ∃ status, status ≠ .ok ∧ Shows lib (field details "tables") status fun _ =>
        expectedAction ⟨"dynamodb", status.value⟩ "" = type := by
    refine (acted_filterMap (fun entry => {
      component := "dynamodb"
      severity := severityForStatus (flag "critical" true entry)
        (statusOf lib (field entry "status"))
      code := ⟨"dynamodb", (statusOf lib (field entry "status")).value⟩
      subject := str lib ((field entry "table").orElse ((field entry "suffix").orElse
        (.string "?"))) }) fun _ => rfl).trans ?_
    refine exists_congr fun status => and_congr_right fun _ => exists_congr fun entry => ?_
    refine and_congr_right fun _ => and_congr_right fun hstatus => and_congr_right fun _ => ?_
    beta_reduce
    rw [firstAction_eq, Option.some.injEq, hstatus, expectedAction_dynamodb,
      expectedAction_dynamodb]
  rw [hacted, hacted]
  refine ⟨exists_shows (by decide) fun status _ => ?_,
    exists_shows (by decide) fun status _ => ?_⟩ <;>
  · rw [expectedAction_dynamodb]
    cases status <;> simp

/-- A critical group that has been found, and lags by its critical bound in a partition. -/
def LagCritical (lib : PythonLib) : Json → Prop
  | .dict info =>
    flag "critical" true info = true ∧ (field info "error").truthy = false ∧
      flag "found" false info = true ∧ ∃ lag bound, asInt lib 0 (field info "max_lag") = .ok lag ∧
        asInt lib 10000 (field info "critical_lag") = .ok bound ∧ bound ≤ lag
  | _ => False

def groupKinds : List String :=
  ["group_offset_read_error", "group_idle", "group_lag_critical", "group_lag_warning"]

/-- All that a group can be reported for. -/
theorem detectGroup_cases {gid : Text} {info : Json} {found : List Finding}
    (h : detectGroup lib gid info = .ok found) :
    (found = [] ∧ ¬LagCritical lib info) ∨ ∃ severity kind, kind ∈ groupKinds ∧
      found = [⟨"kafka", severity, ⟨"kafka", kind⟩, str lib (.text gid)⟩] ∧
      (LagCritical lib info ↔ kind = "group_lag_critical" ∧
        Severity.critical.rank ≤ severity.rank) := by
  cases info with
  | dict info =>
    rw [detectGroup] at h
    by_cases herror : (field info "error").truthy = true
    · rw [if_pos herror] at h
      cases h
      refine .inr ⟨_, "group_offset_read_error", by decide, rfl, ?_⟩
      simp [LagCritical, herror]
    by_cases hidle : (flag "critical" true info && !flag "found" false info) = true
    · rw [if_neg herror, if_pos hidle] at h
      cases h
      rw [Bool.and_eq_true, Bool.not_eq_true'] at hidle
      refine .inr ⟨.critical, "group_idle", by decide, rfl, ?_⟩
      simp [LagCritical, hidle]
    rw [if_neg herror, if_neg hidle] at h
    obtain ⟨lag, hlag, h⟩ := bind_eq_ok.mp h
    obtain ⟨warn, -, h⟩ := bind_eq_ok.mp h
    obtain ⟨bound, hbound, h⟩ := bind_eq_ok.mp h
    obtain ⟨total, -, h⟩ := bind_eq_ok.mp h
    by_cases hle : bound ≤ lag
    · rw [if_pos hle] at h
      cases h
      refine .inr ⟨_, "group_lag_critical", by decide, rfl, ?_⟩
      cases hcritical : flag "critical" true info with
      | false => simp [LagCritical, hcritical, Severity.rank]
      | true =>
        have hfound : flag "found" false info = true := by
          simpa [hcritical] using hidle
        simp [LagCritical, hcritical, herror, hfound, hlag, hbound, hle, Severity.rank]
    have hno : ¬LagCritical lib (.dict info) := by
      rintro ⟨-, -, -, lag', bound', hlag', hbound', hle'⟩
      rw [hlag] at hlag'
      rw [hbound] at hbound'
      cases hlag'
      cases hbound'
      exact hle hle'
    rw [if_neg hle] at h
    split at h
    · cases h
      refine .inr ⟨.warning, "group_lag_warning", by decide, rfl, iff_of_false hno ?_⟩
      decide
    · cases h
      exact .inl ⟨rfl, hno⟩
  | _ =>
    cases h
    exact .inl ⟨rfl, id⟩

theorem expectedAction_group {kind : String} (h : kind ∈ groupKinds) (subject : String) :
    expectedAction ⟨"kafka", kind⟩ subject =
      if kind = "group_lag_critical" then .blockNewEntries else .sendAlert := by
  have hai : ∀ kind ∈ groupKinds, (⟨"kafka", kind⟩ : Code) ∉ aiEngineCodes := by decide
  rw [expectedAction, if_neg fun hc => hai kind h hc.2]
  revert kind
  decide

theorem acted_group {gid : Text} {info : Json} {found : List Finding}
    (h : detectGroup lib gid info = .ok found) :
    (Acted found .blockNewEntries ↔ LagCritical lib info) ∧ ¬Acted found .activateKillSwitch := by
  obtain ⟨rfl, hno⟩ | ⟨severity, kind, hkind, rfl, hlag⟩ := detectGroup_cases h
  · exact ⟨iff_of_false (not_acted_nil _) hno, not_acted_nil _⟩
  · rw [acted_singleton, acted_singleton, expectedAction_group hkind, hlag]
    by_cases hcritical : kind = "group_lag_critical"
    · simp [hcritical]
    · simp [hcritical]

/-- The topics that are missing, as far as they are counted. -/
def missingTopics (details : List (Text × Json)) : Json :=
  (field details "missing_critical_topics").orElse (.list [])

def groupsOf (details : List (Text × Json)) : List (Text × Json) :=
  match field details "groups" with
  | .dict groups => groups
  | _ => []

theorem acted_kafka {details : List (Text × Json)} {found : List Finding}
    (h : detectKafka lib details = .ok found) :
    (Acted found .activateKillSwitch ↔ flag "reachable" false details = false) ∧
      (Acted found .blockNewEntries ↔ flag "reachable" false details = true ∧
        (lengthOf (missingTopics details) ≠ .ok 0 ∨
          ∃ g ∈ groupsOf details, LagCritical lib g.2)) := by
  rw [detectKafka] at h
  cases hreachable : flag "reachable" false details with
  | false =>
    rw [hreachable, if_neg Bool.false_ne_true] at h
    cases h
    rw [acted_singleton, acted_singleton]
    refine ⟨by decide, iff_of_false (by decide) ?_⟩
    simp
  | true =>
    rw [hreachable, if_pos rfl] at h
    obtain ⟨missing, hmissing, h⟩ := bind_eq_ok.mp h
    obtain ⟨inGroups, hgroups, h⟩ := bind_eq_ok.mp h
    cases h
    change inTurn _ (groupsOf details) = .ok inGroups at hgroups
    have hblock := acted_inTurn hgroups .blockNewEntries (fun g => LagCritical lib g.2)
      fun g found hfound => (acted_group hfound).1
    have hkill := acted_inTurn hgroups .activateKillSwitch (fun _ => False)
      fun g found hfound => iff_of_false (acted_group hfound).2 id
    rw [acted_append, acted_append, hblock, hkill]
    change lengthOf (missingTopics details) = .ok missing at hmissing
    rw [hmissing]
    by_cases hzero : missing = 0
    · simp [hzero, not_acted_nil]
    · have hmissingAction (type : ActionType) :
          Acted [⟨"kafka", .critical, ⟨"kafka", "missing_topics"⟩, "topics"⟩] type ↔
            .blockNewEntries = type := by
        rw [acted_singleton]
        cases type <;> decide
      simp [hzero, hmissingAction]

/-- The feed has no age, or one of more than three times the bound. -/
def FeedStopped (lib : PythonLib) (details : List (Text × Json)) : Prop :=
  asFloat lib (field details "newest_age_seconds") = .ok none ∨
    ∃ age given, asFloat lib (field details "newest_age_seconds") = .ok (some age) ∧
      asFloat lib (field details "max_age_seconds") = .ok given ∧
      JsonFloat.less (lib.times (.finite 3) (maxAgeOf given)) age = true

theorem acted_brokerFinding (severity : Severity) (kind : String) (type : ActionType) :
    Acted [brokerFinding severity kind] type ↔ Severity.critical.rank ≤ severity.rank ∧
      expectedAction ⟨"broker", kind⟩ "feed" = type :=
  acted_singleton

theorem acted_feedFindings (lib : PythonLib) (maxAge : JsonFloat) (newest : Option JsonFloat) :
    ¬Acted (feedFindings lib maxAge newest) .activateKillSwitch ∧
      (Acted (feedFindings lib maxAge newest) .blockNewEntries ↔
        ∀ age, newest = some age → JsonFloat.less (lib.times (.finite 3) maxAge) age = true) := by
  cases newest with
  | none =>
    rw [feedFindings, acted_brokerFinding, acted_brokerFinding]
    refine ⟨by decide, iff_of_true (by decide) ?_⟩
    nofun
  | some age =>
    rw [feedFindings]
    by_cases hvery : JsonFloat.less (lib.times (.finite 3) maxAge) age = true
    · rw [if_pos hvery, acted_brokerFinding, acted_brokerFinding]
      refine ⟨by decide, iff_of_true (by decide) ?_⟩
      rintro _ ⟨⟩
      exact hvery
    · have hno : ¬∀ a, some age = some a →
          JsonFloat.less (lib.times (.finite 3) maxAge) a = true := fun h => hvery (h age rfl)
      rw [if_neg hvery]
      split
      · rw [acted_brokerFinding, acted_brokerFinding]
        exact ⟨by decide, iff_of_false (by decide) hno⟩
      · exact ⟨not_acted_nil _, iff_of_false (not_acted_nil _) hno⟩

theorem acted_broker {result : CollectorResult} {found : List Finding}
    (h : detectBroker lib result = .ok found) :
    ¬Acted found .activateKillSwitch ∧ (Acted found .blockNewEntries ↔
      result.status ≠ .unknown ∧ flag "market_open" false result.details = true ∧
        FeedStopped lib result.details) := by
  rw [detectBroker] at h
  by_cases hunknown : result.status = .unknown
  · rw [if_pos hunknown] at h
    cases h
    rw [acted_brokerFinding, acted_brokerFinding]
    refine ⟨by decide, iff_of_false (by decide) ?_⟩
    simp [hunknown]
  rw [if_neg hunknown] at h
  by_cases hopen : flag "market_open" false result.details = true
  · rw [if_pos hopen] at h
    obtain ⟨newest, hnewest, h⟩ := bind_eq_ok.mp h
    obtain ⟨given, hgiven, h⟩ := bind_eq_ok.mp h
    obtain ⟨sampled, -, h⟩ := bind_eq_ok.mp h
    cases h
    obtain ⟨hkill, hblock⟩ := acted_feedFindings lib (maxAgeOf given) newest
    refine ⟨hkill, hblock.trans ?_⟩
    rw [FeedStopped, hnewest, hgiven]
    cases newest <;> simp [hunknown, hopen]
  · rw [if_neg hopen] at h
    cases h
    refine ⟨not_acted_nil _, iff_of_false (not_acted_nil _) ?_⟩
    simp [hopen]

/-- A container that has been restarted up to its critical bound. -/
def RestartLoop (lib : PythonLib) (container : List (Text × Json)) : Prop :=
  ∃ restarts bound, asInt lib 0 (field container "restart_count") = .ok restarts ∧
    asInt lib 3 (field container "restart_critical") = .ok bound ∧ bound ≤ restarts

theorem acted_containerFindings (status : Status) (restarts warn crit : ℤ) (subject : String) :
    ¬Acted (containerFindings status restarts warn crit subject) .activateKillSwitch ∧
      (Acted (containerFindings status restarts warn crit subject) .blockNewEntries ↔
        subject = "ai_engine" ∧ crit ≤ restarts) := by
  by_cases hcrit : crit ≤ restarts
  · have hfound : containerFindings status restarts warn crit subject =
        [⟨"docker", .critical, ⟨"docker", "restart_loop"⟩, subject⟩] := by
      cases status <;> simp [containerFindings, hcrit, Severity.worst, Severity.rank]
    rw [hfound, acted_singleton, acted_singleton]
    by_cases hs : subject = "ai_engine"
    · subst hs
      exact ⟨by decide, iff_of_true (by decide) ⟨rfl, hcrit⟩⟩
    · simp [expectedAction, hs, hcrit, killCodes, blockCodes]
  · have hwarning : ∀ f ∈ containerFindings status restarts warn crit subject,
        f.severity = .warning := by
      cases status <;> by_cases hwarn : warn ≤ restarts <;>
        simp [containerFindings, hcrit, hwarn, Severity.worst, Severity.rank]
    have hno (type : ActionType) :
        ¬Acted (containerFindings status restarts warn crit subject) type := by
      rintro ⟨f, hf, hrank, -⟩
      rw [hwarning f hf] at hrank
      exact absurd hrank (by decide)
    exact ⟨hno _, iff_of_false (hno _) fun h => hcrit h.2⟩

theorem acted_container {container : List (Text × Json)} {found : List Finding}
    (h : detectContainer lib container = .ok found) :
    ¬Acted found .activateKillSwitch ∧ (Acted found .blockNewEntries ↔
      nameOf lib container = "ai_engine" ∧ RestartLoop lib container) := by
  obtain ⟨restarts, hrestarts, h⟩ := bind_eq_ok.mp h
  obtain ⟨warn, -, h⟩ := bind_eq_ok.mp h
  obtain ⟨crit, hcrit, h⟩ := bind_eq_ok.mp h
  cases h
  have hloop : RestartLoop lib container ↔ crit ≤ restarts := by
    simp [RestartLoop, hrestarts, hcrit]
  rw [hloop]
  exact acted_containerFindings ..

theorem acted_docker {details : List (Text × Json)} {found : List Finding}
    (h : detectDocker lib details = .ok found) :
    ¬Acted found .activateKillSwitch ∧ (Acted found .blockNewEntries ↔
      ∃ container ∈ dicts (field details "containers"),
        nameOf lib container = "ai_engine" ∧ RestartLoop lib container) := by
  refine ⟨?_, acted_inTurn h _ _ fun container found hfound => (acted_container hfound).2⟩
  have hkill := acted_inTurn h .activateKillSwitch (fun _ => False)
    fun container found hfound => iff_of_false (acted_container hfound).1 id
  rw [hkill]
  simp

/-- What comes of the logs is alerted about. -/
theorem acted_logs {details : List (Text × Json)} {found : List Finding}
    (h : detectLogs lib details = .ok found) {type : ActionType} (htype : type ≠ .sendAlert) :
    ¬Acted found type := by
  obtain ⟨total, -, h⟩ := bind_eq_ok.mp h
  split at h
  · cases h
    exact not_acted_nil _
  · obtain ⟨byPattern, -, h⟩ := bind_eq_ok.mp h
    obtain ⟨criticals, -, h⟩ := bind_eq_ok.mp h
    obtain ⟨files, -, h⟩ := bind_eq_ok.mp h
    cases h
    rw [acted_singleton]
    exact fun hc => htype hc.2.symm

theorem not_acted_containerLog (severity : Severity) {kind : String}
    (hkind : (⟨"container_logs", kind⟩ : Code) ∉ codeTable.map Prod.fst) {type : ActionType}
    (htype : type ≠ .sendAlert) :
    ¬Acted [⟨"container_logs", severity, ⟨"container_logs", kind⟩, "logs"⟩] type := by
  rw [acted_singleton, expectedAction_of_unknown hkind]
  exact fun hc => htype hc.2.symm

theorem acted_containerLogs {details : List (Text × Json)} {found : List Finding}
    (h : detectContainerLogs lib details = .ok found) {type : ActionType}
    (htype : type ≠ .sendAlert) : ¬Acted found type := by
  obtain ⟨blockers, -, h⟩ := bind_eq_ok.mp h
  obtain ⟨criticals, -, h⟩ := bind_eq_ok.mp h
  obtain ⟨warnings, -, h⟩ := bind_eq_ok.mp h
  obtain ⟨first, hfirst, h⟩ := bind_eq_ok.mp h
  obtain ⟨second, hsecond, h⟩ := bind_eq_ok.mp h
  cases h
  rw [acted_append, acted_append]
  have hpart {hits : ℤ} {samples : Py Unit} {severity : Severity} {kind : String}
      {part : List Finding} (hkind : (⟨"container_logs", kind⟩ : Code) ∉ codeTable.map Prod.fst)
      (hpart : (if hits = 0 then pure [] else do
        samples
        pure [⟨"container_logs", severity, ⟨"container_logs", kind⟩, "logs"⟩] :
          Py (List Finding)) = .ok part) : ¬Acted part type := by
    split at hpart
    · cases hpart
      exact not_acted_nil _
    · obtain ⟨-, -, hpart⟩ := bind_eq_ok.mp hpart
      cases hpart
      exact not_acted_containerLog severity hkind htype
  rintro ((hacted | hacted) | hacted)
  · exact hpart (by decide) hfirst hacted
  · exact hpart (by decide) hsecond hacted
  · split at hacted
    · exact not_acted_nil _ hacted
    · exact not_acted_containerLog .warning (by decide) htype hacted

/-- The collectors that have a detector of their own -/
def collectorNames : List String :=
  ["services", "kafka", "dynamodb", "broker", "docker", "logs", "container_logs"]

theorem expectedAction_other {name : String} (h : name ∉ collectorNames) (status : Status) :
    expectedAction ⟨name, status.value⟩ name =
      if name = "service" ∧ status = .down then .activateKillSwitch else .sendAlert := by
  by_cases hname : name = "service"
  · subst hname
    cases status <;> decide
  · rw [if_neg fun hc => hname hc.1]
    refine expectedAction_of_unknown (fun hmem => ?_) name
    have hfamily : ∀ code ∈ codeTable.map Prod.fst,
        code.family = "service" ∨ code.family ∈ collectorNames := by decide
    exact (hfamily _ hmem).elim hname h

theorem acted_other {result : CollectorResult} (h : result.name ∉ collectorNames) :
    (Acted (detectOther result) .activateKillSwitch ↔
      result.name = "service" ∧ result.status = .down) ∧
      ¬Acted (detectOther result) .blockNewEntries := by
  rw [detectOther]
  by_cases hok : result.status = .ok
  · rw [if_pos hok]
    refine ⟨iff_of_false (not_acted_nil _) ?_, not_acted_nil _⟩
    simp [hok]
  · rw [if_neg hok, acted_singleton, acted_singleton, expectedAction_other h]
    have hrank : Severity.critical.rank ≤ (severityForStatus true result.status).rank :=
      (rank_severityForStatus hok).mpr rfl
    by_cases hc : result.name = "service" ∧ result.status = .down
    · rw [if_pos hc]
      exact ⟨iff_of_true ⟨hrank, rfl⟩ hc, by simp⟩
    · rw [if_neg hc]
      exact ⟨iff_of_false (by simp) hc, by simp⟩

variable (lib)

/-- A critical service other than the AI engine is down, the collector of Kafka gives no cluster,
or a critical table is gone. -/
def KillShown (r : CollectorResult) : Prop :=
  (r.name = "services" ∧ Shows lib (field r.details "services") .down fun svc =>
    nameOf lib svc ≠ "ai_engine") ∨
  (r.name = "kafka" ∧ flag "reachable" false r.details = false) ∨
  (r.name = "dynamodb" ∧ Shows lib (field r.details "tables") .down fun _ => True) ∨
  (r.name = "service" ∧ r.status = .down)

/-- The AI engine is down as a critical service, topics are missing or a critical group lags, a
critical table is impaired, the feed has stopped in an open market, or the AI engine's container
is restarted over and over; and the detector does not raise. -/
def BlockShown (r : CollectorResult) : Prop :=
  (r.name = "services" ∧ Shows lib (field r.details "services") .down fun svc =>
    nameOf lib svc = "ai_engine") ∨
  (r.name = "dynamodb" ∧ Shows lib (field r.details "tables") .degraded fun _ => True) ∨
  (∃ found, detect lib r = .ok found) ∧
    ((r.name = "kafka" ∧ flag "reachable" false r.details = true ∧
      (lengthOf (missingTopics r.details) ≠ .ok 0 ∨
        ∃ g ∈ groupsOf r.details, LagCritical lib g.2)) ∨
    (r.name = "broker" ∧ r.status ≠ .unknown ∧ flag "market_open" false r.details = true ∧
      FeedStopped lib r.details) ∨
    (r.name = "docker" ∧ ∃ container ∈ dicts (field r.details "containers"),
      nameOf lib container = "ai_engine" ∧ RestartLoop lib container))

theorem detect_other {r : CollectorResult} (h : r.name ∉ collectorNames) :
    detect lib r = .ok (detectOther r) := by
  unfold detect
  split <;> first | rfl | (next hname => exact absurd (hname ▸ (by decide)) h)

theorem acted_findingsOf_ok {r : CollectorResult} {found : List Finding}
    (h : detect lib r = .ok found) : findingsOf lib r = found := by
  rw [findingsOf, h]

theorem findingsOf_error {r : CollectorResult} {e : Exc} (h : detect lib r = .error e) :
    findingsOf lib r = [] := by
  rw [findingsOf, h]

/-- A collector whose detector may raise, and shows nothing that leads to the kill switch. -/
theorem acted_of_detect {r : CollectorResult} {P : Prop}
    (h : ∀ found, detect lib r = .ok found →
      ¬Acted found .activateKillSwitch ∧ (Acted found .blockNewEntries ↔ P)) :
    ¬Acted (findingsOf lib r) .activateKillSwitch ∧
      (Acted (findingsOf lib r) .blockNewEntries ↔ (∃ found, detect lib r = .ok found) ∧ P) := by
  cases hd : detect lib r with
  | error e =>
    rw [findingsOf_error lib hd]
    exact ⟨not_acted_nil _, iff_of_false (not_acted_nil _) (by simp)⟩
  | ok found =>
    rw [acted_findingsOf_ok lib hd]
    obtain ⟨hkill, hblock⟩ := h found hd
    exact ⟨hkill, by simp [hblock]⟩

theorem acted_findingsOf (r : CollectorResult) :
    (Acted (findingsOf lib r) .activateKillSwitch ↔ KillShown lib r) ∧
      (Acted (findingsOf lib r) .blockNewEntries ↔ BlockShown lib r) := by
  by_cases hmem : r.name ∈ collectorNames
  · simp only [collectorNames, List.mem_cons, List.not_mem_nil, or_false] at hmem
    obtain hname | hname | hname | hname | hname | hname | hname := hmem
    · have hd : detect lib r = .ok (detectServices lib r.details) := by
        simp only [detect, hname]
      obtain ⟨hkill, hblock⟩ := acted_services lib r.details
      rw [acted_findingsOf_ok lib hd, hkill, hblock]
      simp [KillShown, BlockShown, hname]
    · have hd : detect lib r = detectKafka lib r.details := by
        simp only [detect, hname]
      cases hreachable : flag "reachable" false r.details with
      | false =>
        have hfound : detect lib r = .ok
            [⟨"kafka", .blocker, ⟨"kafka", "unreachable"⟩, "cluster"⟩] := by
          rw [hd, detectKafka, hreachable, if_neg Bool.false_ne_true]
        obtain ⟨hkill, hblock⟩ := acted_kafka (hd ▸ hfound)
        rw [acted_findingsOf_ok lib hfound, hkill, hblock]
        simp [KillShown, BlockShown, hname, hreachable]
      | true =>
        obtain ⟨hkill, hblock⟩ := acted_of_detect lib fun found h =>
          (acted_kafka (hd ▸ h)).imp_left fun hkill => by rw [hkill, hreachable]; nofun
        refine ⟨iff_of_false hkill ?_, hblock.trans ?_⟩
        · simp [KillShown, hname, hreachable]
        · simp [BlockShown, hname, hreachable]
    · have hd : detect lib r = .ok (detectDynamoDB lib r.details) := by
        simp only [detect, hname]
      obtain ⟨hkill, hblock⟩ := acted_dynamodb lib r.details
      rw [acted_findingsOf_ok lib hd, hkill, hblock]
      simp [KillShown, BlockShown, hname]
    · have hd : detect lib r = detectBroker lib r := by
        simp only [detect, hname]
      obtain ⟨hkill, hblock⟩ := acted_of_detect lib fun found h => acted_broker (hd ▸ h)
      refine ⟨iff_of_false hkill ?_, hblock.trans ?_⟩
      · simp [KillShown, hname]
      · simp [BlockShown, hname]
    · have hd : detect lib r = detectDocker lib r.details := by
        simp only [detect, hname]
      obtain ⟨hkill, hblock⟩ := acted_of_detect lib fun found h => acted_docker (hd ▸ h)
      refine ⟨iff_of_false hkill ?_, hblock.trans ?_⟩
      · simp [KillShown, hname]
      · simp [BlockShown, hname]
    · have hd : detect lib r = detectLogs lib r.details := by
        simp only [detect, hname]
      obtain ⟨hkill, hblock⟩ := acted_of_detect lib (P := False) fun found h =>
        ⟨acted_logs (hd ▸ h) (by decide), iff_of_false (acted_logs (hd ▸ h) (by decide)) id⟩
      refine ⟨iff_of_false hkill ?_, hblock.trans ?_⟩
      · simp [KillShown, hname]
      · simp [BlockShown, hname]
    · have hd : detect lib r = detectContainerLogs lib r.details := by
        simp only [detect, hname]
      obtain ⟨hkill, hblock⟩ := acted_of_detect lib (P := False) fun found h =>
        ⟨acted_containerLogs (hd ▸ h) (by decide),
          iff_of_false (acted_containerLogs (hd ▸ h) (by decide)) id⟩
      refine ⟨iff_of_false hkill ?_, hblock.trans ?_⟩
      · simp [KillShown, hname]
      · simp [BlockShown, hname]
  · have hd := detect_other lib hmem
    obtain ⟨hkill, hblock⟩ := acted_other hmem
    simp only [collectorNames, List.mem_cons, List.not_mem_nil, or_false, not_or] at hmem
    rw [acted_findingsOf_ok lib hd, hkill]
    refine ⟨?_, iff_of_false hblock ?_⟩
    · simp [KillShown, hmem]
    · simp [BlockShown, hmem]

/-- The agent sets out to trip the kill switch, or to block entries, on these readings and no
others; beside that it alerts. -/
theorem decisions_exact (snapshot : HealthSnapshot) :
    let attempted := (findingsAtOrAbove .critical (evaluate lib snapshot)).map Finding.firstAction
    (some .activateKillSwitch ∈ attempted ↔ ∃ r ∈ snapshot.results, KillShown lib r) ∧
      (some .blockNewEntries ∈ attempted ↔ ∃ r ∈ snapshot.results, BlockShown lib r) ∧
      ∀ action ∈ attempted, action = some .activateKillSwitch ∨ action = some .blockNewEntries ∨
        action = some .sendAlert := by
  intro attempted
  have hattempted (type : ActionType) : some type ∈ attempted ↔
      ∃ r ∈ snapshot.results, Acted (findingsOf lib r) type := by
    simp only [attempted, findingsAtOrAbove, evaluate, List.mem_map, List.mem_filter,
      List.mem_flatMap, decide_eq_true_eq, Acted]
    constructor
    · rintro ⟨f, ⟨⟨r, hr, hf⟩, hrank⟩, haction⟩
      exact ⟨r, hr, f, hf, hrank, haction⟩
    · rintro ⟨r, hr, f, hf, hrank, haction⟩
      exact ⟨f, ⟨⟨r, hr, hf⟩, hrank⟩, haction⟩
  refine ⟨?_, ?_, fun action haction => ?_⟩
  · rw [hattempted]
    exact exists_congr fun r => and_congr_right fun _ => (acted_findingsOf lib r).1
  · rw [hattempted]
    exact exists_congr fun r => and_congr_right fun _ => (acted_findingsOf lib r).2
  · obtain ⟨f, -, rfl⟩ := List.mem_map.mp haction
    rw [firstAction_eq, expectedAction]
    split
    · exact .inr (.inl rfl)
    · split
      · exact .inl rfl
      · split
        · exact .inr (.inl rfl)
        · exact .inr (.inr rfl)

end Detectors

section Runs
variable (mode : SafeActions.TradingMode)

/-- `scope_map` -/
def scopeOf : ActionType → ActionScope
  | .sendAlert | .readRuntimeState => .readOnly
  | .generateRunbookCommand => .liveHumanGated
  | _ => .riskReduction

/-- An action that is to be attempted for a finding, on a day, with the answers of the audit, the
notifier and the writer. -/
structure Attempt where
  today : String
  finding : Finding
  actionId : String
  audit : ℕ → AuditOutcome
  notifier : Option (Except String Bool)
  writer : Option (Except String RowWrite)

namespace Attempt
variable (a : Attempt)

/-- `finding.subject or finding.component` -/
def label : String := if a.finding.subject = "" then a.finding.component else a.finding.subject

def actionType : ActionType := a.finding.firstAction.getD .forbidden

def idempotencyKey : String :=
  String.ofList (lower a.actionType.value.toList) ++ "-" ++ a.label ++ "-" ++ a.today

def action : PayloadAction where
  actionId := a.actionId
  actionType := a.actionType
  scope := scopeOf a.actionType
  requiresHumanApproval := false
  idempotencyKey := a.idempotencyKey
  message := .ok (classifyFinding a.finding.code a.finding.subject).reasoning
  subject := .ok "default"

/-- What `execute` answers, if it does not raise; `store` is the executor's own memory of keys,
and there is no durable one. -/
def response (store : List (String × String)) : Option Response :=
  if a.actionType = .forbidden then none
  else (execute {
    audit := a.audit
    notifier := a.notifier
    writer := a.writer
    remembered := store.lookup a.idempotencyKey } mode a.action true "").2.toOption

/-- The attempt, as `_run_safe_actions` counts it. -/
def executed (store : List (String × String)) : Bool :=
  (a.response mode store).any fun r => r.executed && !r.idempotencySkipped

def run (store : List (String × String)) : List (String × String) :=
  if a.executed mode store then (a.idempotencyKey, a.actionId) :: store else store

end Attempt

/-- A cycle of the agent, with what it meets at each of its attempts. -/
structure Cycle where
  today : String
  snapshot : HealthSnapshot
  actionId : ℕ → String
  audit : ℕ → ℕ → AuditOutcome
  notifier : ℕ → Option (Except String Bool)
  writer : ℕ → Option (Except String RowWrite)

/-- `_run_safe_actions` -/
def Cycle.attempts (lib : PythonLib) (c : Cycle) : List Attempt :=
  (findingsAtOrAbove .critical (evaluate lib c.snapshot)).zipIdx.map fun f =>
    ⟨c.today, f.1, c.actionId f.2, c.audit f.2, c.notifier f.2, c.writer f.2⟩

/-- The keys executed since the agent was started. -/
def storeAfter (attempts : List Attempt) : List (String × String) :=
  attempts.foldl (fun store a => a.run mode store) []

variable {mode}

theorem row_isSome_iff {type : ActionType} :
    type.row.isSome = true ↔ type = .activateKillSwitch ∨ type = .blockNewEntries := by
  cases type <;> decide

def ran (x : Except String Response) : Bool :=
  x.toOption.any fun r => r.executed && !r.idempotencySkipped

theorem ran_writeAudit (c : Collaborators) (trail : Trail) {r : Response}
    (h : r.executed = false) : ran (writeAudit c trail r).2 = false := by
  rw [writeAudit]
  cases c.audit trail.length <;> simp [ran, Except.toOption, h]

/-- The handler of a write, without a durable store: what counts is that the writer succeeds. -/
theorem ran_dispatch {c : Collaborators} (hdurable : c.durable = none) {a : PayloadAction}
    (hrow : a.actionType.row.isSome = true) :
    ran (dispatch c a []).2 = true ↔ ∃ write, c.writer = some (.ok write) ∧
      write.success = true := by
  obtain ⟨flag, hhandle⟩ : ∃ flag, handle c a [] = handleWrite c [] flag := by
    obtain h | h := row_isSome_iff.mp hrow
    · exact ⟨"active", by rw [handle, h]; rfl⟩
    · exact ⟨"blocked", by rw [handle, h]; rfl⟩
  rw [dispatch, hhandle, handleWrite]
  cases c.writer with
  | none => simp [ran_writeAudit]
  | some answer =>
    cases answer with
    | error errorType => simp [ran_writeAudit]
    | ok write => cases hsuccess : write.success <;> simp [ran, Except.toOption, hdurable, hsuccess]

/-- A write is executed when the mode allows it, its key is new, and the writer succeeds. -/
theorem Attempt.executed_iff (a : Attempt) (hrow : a.actionType.row.isSome = true)
    (store : List (String × String)) :
    a.executed mode store = true ↔ mode.denial a.actionType (scopeOf a.actionType) = none ∧
      store.lookup a.idempotencyKey = none ∧
      ∃ write, a.writer = some (.ok write) ∧ write.success = true := by
  have htype := row_isSome_iff.mp hrow
  have hforbidden : a.actionType ≠ .forbidden := by
    obtain h | h := htype <;> rw [h] <;> decide
  have happroval : ¬NeedsApproval a.action := by
    change ¬(false = true ∨ SafeActions.requiresHumanApproval a.actionType
      (scopeOf a.actionType) = true)
    obtain h | h := htype <;> rw [h] <;> decide
  have hran : a.executed mode store = ran (execute {
      audit := a.audit
      notifier := a.notifier
      writer := a.writer
      remembered := store.lookup a.idempotencyKey } mode a.action true "").2 := by
    rw [Attempt.executed, Attempt.response, if_neg hforbidden]
    rfl
  rw [hran, execute]
  cases hdenial : mode.denial a.actionType (scopeOf a.actionType) with
  | some reason =>
    rw [show mode.denial a.action.actionType a.action.scope = _ from hdenial]
    refine iff_of_false ?_ (by simp)
    simp [ran_writeAudit]
  | none =>
    rw [show mode.denial a.action.actionType a.action.scope = _ from hdenial]
    cases hstored : store.lookup a.idempotencyKey with
    | some prior =>
      refine iff_of_false ?_ (by simp)
      simp [happroval, durableCheck, ran_writeAudit]
    | none =>
      simp only [happroval, durableCheck, Option.map_none, ite_self, if_false, true_and,
        Bool.true_eq_false]
      exact ran_dispatch rfl hrow

theorem storeAfter_append (attempts : List Attempt) (a : Attempt) :
    storeAfter mode (attempts ++ [a]) = a.run mode (storeAfter mode attempts) :=
  List.foldl_append

/-- The store has the keys of what was executed. -/
theorem lookup_storeAfter {attempts : List Attempt} {key : String} :
    (storeAfter mode attempts).lookup key = none ↔ ∀ early b mid, attempts = early ++ b :: mid →
      b.executed mode (storeAfter mode early) = true → b.idempotencyKey ≠ key := by
  induction attempts using List.reverseRecOn with
  | nil => simp [storeAfter]
  | append_singleton attempts a ih =>
    have hlast : (storeAfter mode (attempts ++ [a])).lookup key = none ↔
        (storeAfter mode attempts).lookup key = none ∧
          (a.executed mode (storeAfter mode attempts) = true → a.idempotencyKey ≠ key) := by
      rw [storeAfter_append, Attempt.run]
      by_cases hexecuted : a.executed mode (storeAfter mode attempts) = true
      · rw [if_pos hexecuted, List.lookup_cons]
        by_cases hkey : key = a.idempotencyKey
        · simp [hkey, hexecuted]
        · simp [beq_false_of_ne hkey, hexecuted, Ne.symm hkey]
      · simp [hexecuted]
    rw [hlast, ih]
    constructor
    · rintro ⟨hpast, ha⟩ early b mid heq
      obtain ⟨-, rfl, rfl⟩ | ⟨mid, -, hsplit⟩ := Stamped.split_snoc.mp heq
      · exact ha
      · exact hpast early b mid hsplit
    · intro h
      refine ⟨fun early b mid heq => h early b (mid ++ [a]) (by simp [heq]), h attempts a [] rfl⟩

def keyPrefix (type : ActionType) : List Char := lower type.value.toList

theorem separator_not_mem_keyPrefix (type : ActionType) : '-' ∉ keyPrefix type := by
  cases type <;> decide

theorem keyPrefix_injective {s t : ActionType} (h : keyPrefix s = keyPrefix t) : s = t := by
  revert h
  cases s <;> cases t <;> decide

theorem Attempt.toList_idempotencyKey (a : Attempt) : a.idempotencyKey.toList =
    keyPrefix a.actionType ++ '-' :: (a.label.toList ++ '-' :: a.today.toList) := by
  simp [Attempt.idempotencyKey, keyPrefix]

/-- The days of two keys are written equally long. -/
theorem Attempt.idempotencyKey_inj {a b : Attempt} (hday : a.today.length = b.today.length) :
    a.idempotencyKey = b.idempotencyKey ↔
      a.actionType = b.actionType ∧ a.label = b.label ∧ a.today = b.today := by
  constructor
  · intro h
    have hlist := congrArg String.toList h
    rw [a.toList_idempotencyKey, b.toList_idempotencyKey] at hlist
    obtain ⟨htype, hrest⟩ := IsoFormat.eq_of_append_separator (separator_not_mem_keyPrefix _)
      (separator_not_mem_keyPrefix _) hlist
    obtain ⟨hlabel, htoday⟩ := List.append_inj' hrest
      (by rw [List.length_cons, List.length_cons, String.length_toList, String.length_toList, hday])
    exact ⟨keyPrefix_injective htype, String.ext hlabel, String.ext (List.cons.inj htoday).2⟩
  · rintro ⟨htype, hlabel, htoday⟩
    rw [Attempt.idempotencyKey, Attempt.idempotencyKey, htype, hlabel, htoday]

/-- Over all cycles since it was started the agent executes a write of an allowed kind whenever
the writer succeeds, but for one subject only once a day, whatever becomes of the row in between. -/
theorem write_executed_iff (lib : PythonLib) {cycles : List Cycle}
    (hday : ∀ c ∈ cycles, c.today.length = 8) {past later : List Attempt} {a : Attempt}
    (hsplit : cycles.flatMap (Cycle.attempts lib) = past ++ a :: later)
    (hrow : a.actionType.row.isSome = true) :
    a.executed mode (storeAfter mode past) = true ↔
      mode.denial a.actionType (scopeOf a.actionType) = none ∧
      (∃ write, a.writer = some (.ok write) ∧ write.success = true) ∧
      ∀ early b mid, past = early ++ b :: mid → b.executed mode (storeAfter mode early) = true →
        ¬(b.actionType = a.actionType ∧ b.label = a.label ∧ b.today = a.today) := by
  have hlength : ∀ b ∈ past ++ a :: later, b.today.length = 8 := by
    rw [← hsplit]
    intro b hb
    obtain ⟨c, hc, hb⟩ := List.mem_flatMap.mp hb
    obtain ⟨f, -, rfl⟩ := List.mem_map.mp hb
    exact hday c hc
  rw [a.executed_iff hrow, lookup_storeAfter, and_congr_right_iff, and_comm]
  intro _
  refine and_congr_right fun _ => ?_
  refine forall₃_congr fun early b mid => forall₂_congr fun heq _ => not_congr ?_
  refine Attempt.idempotencyKey_inj ?_
  rw [hlength b (by simp [heq]), hlength a (by simp)]

/-- A lib for details that are empty. -/
def noTexts : PythonLib := ⟨fun _ => none, fun _ => none, fun _ => none, fun x _ => x, fun _ => ""⟩

/-- The agent's image lacks the client library, and the collector says so. -/
def blindCycle : Cycle where
  today := "20260105"
  snapshot := ⟨[⟨"kafka", .unknown, "kafka: confluent-kafka not available", [], none⟩], 2⟩
  actionId := fun _ => "a1"
  audit := fun _ _ => .written
  notifier := fun _ => none
  writer := fun _ => some (.ok ⟨true, "risk-state", "KILLSWITCH", "GLOBAL", none⟩)

def blindAttempt : Attempt where
  today := "20260105"
  finding := ⟨"kafka", .blocker, ⟨"kafka", "unreachable"⟩, "cluster"⟩
  actionId := "a1"
  audit := fun _ => .written
  notifier := none
  writer := some (.ok ⟨true, "risk-state", "KILLSWITCH", "GLOBAL", none⟩)

/-- In two cycles of a day it trips the kill switch once. -/
theorem write_executed_iff_blind :
    [blindCycle, blindCycle].flatMap (Cycle.attempts noTexts) = [blindAttempt, blindAttempt] ∧
      blindAttempt.executed .paper (storeAfter .paper []) = true ∧
      ¬blindAttempt.executed .paper (storeAfter .paper [blindAttempt]) = true := by
  have hday : ∀ c ∈ [blindCycle, blindCycle], c.today.length = 8 := by decide
  have hsplit : [blindCycle, blindCycle].flatMap (Cycle.attempts noTexts) =
      [] ++ blindAttempt :: [blindAttempt] := by rfl
  have hlast : [blindCycle, blindCycle].flatMap (Cycle.attempts noTexts) =
      [blindAttempt] ++ blindAttempt :: [] := hsplit
  have hfirst : blindAttempt.executed .paper (storeAfter .paper []) = true := by
    refine (write_executed_iff noTexts hday hsplit (by decide)).mpr
      ⟨by decide, ⟨_, rfl, rfl⟩, ?_⟩
    simp
  refine ⟨hsplit, hfirst, fun hsecond => ?_⟩
  obtain ⟨-, -, hnew⟩ := (write_executed_iff noTexts hday hlast (by decide)).mp hsecond
  exact hnew [] blindAttempt [] rfl hfirst ⟨rfl, rfl, rfl⟩

end Runs

end QuantEmbrace.MonitoringAgent
