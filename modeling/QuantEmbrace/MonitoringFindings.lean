import QuantEmbrace.IncidentLog
import QuantEmbrace.Lib.ConfigValue
import QuantEmbrace.SafeActions

/-! The monitoring agent's findings: what its detectors make of the details the collectors give,
and the safe actions the classifier proposes for a finding. -/
namespace QuantEmbrace.MonitoringAgent
open PythonValue SafeActions

inductive Severity where
  | info | warning | critical | blocker
  deriving DecidableEq, Repr

namespace Severity

/-- `severity_rank` -/
def rank : Severity → ℕ
  | .info => 0
  | .warning => 1
  | .critical => 2
  | .blocker => 3

/-- `worst_severity` of two -/
def worst (a b : Severity) : Severity := if a.rank < b.rank then b else a

end Severity

def severityForStatus (critical : Bool) : Status → Severity
  | .ok => .info
  | .down => if critical then .blocker else .warning
  | .degraded => if critical then .critical else .warning
  | .unknown => if critical then .critical else .info

/-- The text of a code is `family.kind`, and no kind has a dot. -/
structure Code where
  family : String
  kind : String
  deriving DecidableEq, Repr

/-- A finding, without its message and its context. -/
structure Finding where
  component : String
  severity : Severity
  code : Code
  subject : String
  deriving DecidableEq, Repr

/-- Python's conversions and its arithmetic of floats. -/
structure PythonLib where
  intOfText : Text → Option ℤ
  floatOfText : Text → Option JsonFloat
  /-- `none` where the integer is too large. -/
  floatOfInt : ℤ → Option JsonFloat
  times : JsonFloat → JsonFloat → JsonFloat
  /-- `str` of a value that is no text. -/
  repr : Json → String

section Coercions
variable (lib : PythonLib)

/-- `str(value)`; half a surrogate pair, which no name has, is replaced. -/
def str : Json → String
  | .text t => String.ofList <| t.map fun
      | .scalar c => c
      | .surrogate _ => '\uFFFD'
  | value => lib.repr value

/-- `_as_int`: an overflow is not caught. -/
def asInt (default : ℤ) (value : Json) : Py ℤ :=
  match value.toInt lib.intOfText id with
  | .ok n => .ok n
  | .error e => if e.isValueError || e.isTypeError then .ok default else .error e

/-- `_as_float`: an overflow is not caught. -/
def asFloat : Json → Py (Option JsonFloat)
  | .float x => .ok (some x)
  | .bool b => .ok (some (.finite (if b then 1 else 0)))
  | .int n =>
    match lib.floatOfInt n with
    | some x => .ok (some x)
    | none => .error (.overflowError "int too large to convert to float")
  | .text t => .ok (lib.floatOfText t)
  | _ => .ok none

/-- `_status_of`: what is no text is not the name of a status either. -/
def statusOf : Json → Status
  | .text t => (Status.ofValue (normalised (str lib (.text t)))).getD .unknown
  | _ => .unknown

/-- The dictionaries of a list, `[]` of what is no list. -/
def dicts : Json → List (List (Text × Json))
  | .list items => items.filterMap fun
      | .dict entries => some entries
      | _ => none
  | _ => []

/-- `list(value)`, as far as it is looked at: how many there are. -/
def lengthOf : Json → Py ℕ
  | .list items => .ok items.length
  | .dict entries => .ok entries.length
  | .text t => .ok t.length
  | value => .error (.typeError (Text.of ("'" ++ value.typeName ++ "' object is not iterable")))

/-- `value[:1]` of a text or a list -/
def firstOf : Json → Py Unit
  | .list _ | .text _ => .ok ()
  | value => .error (.typeError (Text.of ("'" ++ value.typeName ++ "' object is not subscriptable")))

/-- `bool(entries.get(name, default))` -/
def flag (name : String) (default : Bool) (entries : List (Text × Json)) : Bool :=
  (Json.get name (.bool default) entries).truthy

end Coercions

section Detectors
variable (lib : PythonLib)
open Json

/-- `ServiceDetector.detect` -/
def detectServices (details : List (Text × Json)) : List Finding :=
  (dicts (field details "services")).filterMap fun svc =>
    let status := statusOf lib (field svc "status")
    if status = .ok then none
    else some {
      component := "services"
      severity := severityForStatus (flag "critical" true svc) status
      code := ⟨"service", status.value⟩
      subject := str lib (Json.get "name" (.string "?") svc) }

/-- The group of `KafkaDetector.detect`'s loop -/
def detectGroup (gid : Text) : Json → Py (List Finding)
  | .dict info =>
    let critical := flag "critical" true info
    let finding (severity : Severity) (kind : String) : Finding :=
      ⟨"kafka", severity, ⟨"kafka", kind⟩, str lib (.text gid)⟩
    let raised : Severity := if critical then .critical else .warning
    if (field info "error").truthy then .ok [finding raised "group_offset_read_error"]
    else if critical && !flag "found" false info then .ok [finding .critical "group_idle"]
    else do
      let maxLag ← asInt lib 0 (field info "max_lag")
      let warnLag ← asInt lib 1000 (field info "warn_lag")
      let criticalLag ← asInt lib 10000 (field info "critical_lag")
      let _ ← asInt lib 0 (field info "total_lag")
      if criticalLag ≤ maxLag then pure [finding raised "group_lag_critical"]
      else if warnLag ≤ maxLag then pure [finding .warning "group_lag_warning"]
      else pure []
  | _ => .ok []

/-- The bodies of a loop one after another, up to the first that raises. -/
def inTurn {α : Type} (f : α → Py (List Finding)) : List α → Py (List Finding)
  | [] => .ok []
  | a :: as => do
    let found ← f a
    let others ← inTurn f as
    pure (found ++ others)

/-- `KafkaDetector.detect` -/
def detectKafka (details : List (Text × Json)) : Py (List Finding) :=
  if flag "reachable" false details then do
    let missing ← lengthOf ((field details "missing_critical_topics").orElse (.list []))
    let groups := match field details "groups" with
      | .dict groups => groups
      | _ => []
    let found ← inTurn (fun g => detectGroup lib g.1 g.2) groups
    pure ((if missing = 0 then [] else
      [⟨"kafka", .critical, ⟨"kafka", "missing_topics"⟩, "topics"⟩]) ++ found)
  else .ok [⟨"kafka", .blocker, ⟨"kafka", "unreachable"⟩, "cluster"⟩]

/-- `DynamoDBDetector.detect` -/
def detectDynamoDB (details : List (Text × Json)) : List Finding :=
  (dicts (field details "tables")).filterMap fun entry =>
    let status := statusOf lib (field entry "status")
    if status = .ok then none
    else some {
      component := "dynamodb"
      severity := severityForStatus (flag "critical" true entry) status
      code := ⟨"dynamodb", status.value⟩
      subject := str lib ((field entry "table").orElse ((field entry "suffix").orElse
        (.string "?"))) }

def brokerFinding (severity : Severity) (kind : String) : Finding :=
  ⟨"broker", severity, ⟨"broker", kind⟩, "feed"⟩

/-- The age of the newest price against the bound. -/
def feedFindings (maxAge : JsonFloat) : Option JsonFloat → List Finding
  | none => [brokerFinding .critical "no_fresh_prices"]
  | some age =>
    if JsonFloat.less (lib.times (.finite 3) maxAge) age then
      [brokerFinding .critical "feed_very_stale"]
    else if JsonFloat.less maxAge age then [brokerFinding .warning "feed_stale"]
    else []

/-- `_as_float(...) or 60.0` -/
def maxAgeOf (given : Option JsonFloat) : JsonFloat :=
  (given.filter fun x => x ≠ .finite 0).getD (.finite 60)

/-- `BrokerDetector.detect` -/
def detectBroker (result : CollectorResult) : Py (List Finding) :=
  if result.status = .unknown then .ok [brokerFinding .warning "state_unknown"]
  else if flag "market_open" false result.details then do
    let newestAge ← asFloat lib (field result.details "newest_age_seconds")
    let given ← asFloat lib (field result.details "max_age_seconds")
    let _ ← asInt lib 0 (field result.details "sampled")
    pure (feedFindings lib (maxAgeOf given) newestAge)
  else .ok []

/-- The restarts of a container against their bounds, and its state. -/
def containerFindings (status : Status) (restarts warn crit : ℤ) (subject : String) :
    List Finding :=
  let fromRestarts : Severity :=
    if crit ≤ restarts then .critical else if warn ≤ restarts then .warning else .info
  let severity := if status = .down ∨ status = .degraded then fromRestarts.worst .warning
    else fromRestarts
  if severity = .info then []
  else [{
    component := "docker"
    severity
    code := ⟨"docker", if crit ≤ restarts then "restart_loop"
      else if warn ≤ restarts then "restarting" else status.value⟩
    subject }]

/-- The container of `DockerDetector.detect`'s loop -/
def detectContainer (container : List (Text × Json)) : Py (List Finding) := do
  let restarts ← asInt lib 0 (field container "restart_count")
  let warn ← asInt lib 1 (field container "restart_warn")
  let crit ← asInt lib 3 (field container "restart_critical")
  pure (containerFindings (statusOf lib (field container "status")) restarts warn crit
    (str lib (Json.get "name" (.string "?") container)))

/-- `DockerDetector.detect` -/
def detectDocker (details : List (Text × Json)) : Py (List Finding) :=
  inTurn (detectContainer lib) (dicts (field details "containers"))

/-- `LogDetector.detect` -/
def detectLogs (details : List (Text × Json)) : Py (List Finding) := do
  let total ← asInt lib 0 (field details "total_matches")
  if total ≤ 0 then pure []
  else do
    let byPattern ← ((field details "matches_by_pattern").orElse (.dict [])).entries
    let criticals ← asInt lib 0 (field byPattern "CRITICAL")
    let _ ← lengthOf ((field details "files_scanned").orElse (.list []))
    pure [⟨"logs", if 0 < criticals then .critical else .warning, ⟨"logs", "errors_present"⟩, "logs"⟩]

/-- `ContainerLogDetector.detect`; the samples of the warnings are not cut. -/
def detectContainerLogs (details : List (Text × Json)) : Py (List Finding) := do
  let blockers ← asInt lib 0 (field details "total_blocker_hits")
  let criticals ← asInt lib 0 (field details "total_critical_hits")
  let warnings ← asInt lib 0 (field details "total_warning_hits")
  let finding (severity : Severity) (kind : String) : Finding :=
    ⟨"container_logs", severity, ⟨"container_logs", kind⟩, "logs"⟩
  let found (hits : ℤ) (samples : String) (f : Finding) : Py (List Finding) :=
    if hits = 0 then pure []
    else do
      firstOf ((field details samples).orElse (.list []))
      pure [f]
  let first ← found blockers "blocker_samples" (finding .blocker "blocker_pattern")
  let second ← found criticals "critical_samples" (finding .critical "critical_pattern")
  pure (first ++ second ++ if warnings = 0 then [] else [finding .warning "warning_pattern"])

/-- `GenericDetector.detect` -/
def detectOther (result : CollectorResult) : List Finding :=
  if result.status = .ok then []
  else [⟨result.name, severityForStatus true result.status, ⟨result.name, result.status.value⟩,
    result.name⟩]

/-- `_detector_for`, and `detect` of the detector -/
def detect (result : CollectorResult) : Py (List Finding) :=
  match result.name with
  | "services" => .ok (detectServices lib result.details)
  | "kafka" => detectKafka lib result.details
  | "dynamodb" => .ok (detectDynamoDB lib result.details)
  | "broker" => detectBroker lib result
  | "docker" => detectDocker lib result.details
  | "logs" => detectLogs lib result.details
  | "container_logs" => detectContainerLogs lib result.details
  | _ => .ok (detectOther result)

/-- What a detector that raises had found is lost. -/
def findingsOf (result : CollectorResult) : List Finding :=
  match detect lib result with
  | .ok found => found
  | .error _ => []

/-- `SeverityEngine.evaluate` -/
def evaluate (snapshot : HealthSnapshot) : List Finding := snapshot.results.flatMap (findingsOf lib)

/-- `findings_at_or_above` -/
def findingsAtOrAbove (severity : Severity) (findings : List Finding) : List Finding :=
  findings.filter fun f => severity.rank ≤ f.severity.rank

end Detectors

inductive ClassificationResult where
  | alertOnly | blockEntries | killSwitch
  deriving DecidableEq, Repr

structure ClassifiedObservation where
  classification : ClassificationResult
  proposedActionTypes : List ActionType
  reasoning : String
  suppressDockerRestart : Bool := true
  deriving DecidableEq, Repr

/-- `_CODE_TABLE` -/
def codeTable : List (Code × ClassifiedObservation) := [
  (⟨"service", "down"⟩, ⟨.killSwitch, [.activateKillSwitch, .sendAlert],
    "Critical service unreachable — unmanaged exposure risk", true⟩),
  (⟨"service", "degraded"⟩, ⟨.alertOnly, [.sendAlert],
    "Service degraded but reachable — alert and monitor", true⟩),
  (⟨"kafka", "unreachable"⟩, ⟨.killSwitch, [.activateKillSwitch, .sendAlert],
    "Kafka event bus down — signals cannot flow; trading must pause", true⟩),
  (⟨"kafka", "missing_topics"⟩, ⟨.blockEntries, [.blockNewEntries, .sendAlert],
    "Critical topic missing — signal path broken; block new entries", true⟩),
  (⟨"kafka", "group_idle"⟩, ⟨.alertOnly, [.sendAlert, .readRuntimeState],
    "Consumer group has no committed offsets — consumer not running", true⟩),
  (⟨"kafka", "group_lag_critical"⟩, ⟨.blockEntries, [.blockNewEntries, .sendAlert],
    "Consumer lag at critical threshold — signals backed up", true⟩),
  (⟨"kafka", "group_lag_warning"⟩, ⟨.alertOnly, [.sendAlert],
    "Consumer lag elevated — monitor closely", true⟩),
  (⟨"kafka", "group_offset_read_error"⟩, ⟨.alertOnly, [.sendAlert],
    "Could not read committed offsets — state may be stale", true⟩),
  (⟨"dynamodb", "down"⟩, ⟨.killSwitch, [.activateKillSwitch, .sendAlert],
    "Critical DynamoDB table unavailable — risk/execution state unreachable", true⟩),
  (⟨"dynamodb", "degraded"⟩, ⟨.blockEntries, [.blockNewEntries, .sendAlert],
    "DynamoDB table degraded — block entries until fully active", true⟩),
  (⟨"broker", "state_unknown"⟩, ⟨.alertOnly, [.sendAlert, .readRuntimeState],
    "Cannot infer price-feed health — alert and verify manually", true⟩),
  (⟨"broker", "no_fresh_prices"⟩, ⟨.blockEntries, [.blockNewEntries, .sendAlert],
    "No parseable prices during market hours — block new entries", true⟩),
  (⟨"broker", "feed_very_stale"⟩, ⟨.blockEntries, [.blockNewEntries, .sendAlert],
    "Price feed very stale (>3× max age) — strategies would trade on stale data", true⟩),
  (⟨"broker", "feed_stale"⟩, ⟨.alertOnly, [.sendAlert],
    "Price feed stale (>max age) — alert; exits unaffected", true⟩),
  (⟨"docker", "restart_loop"⟩, ⟨.alertOnly, [.sendAlert, .generateRunbookCommand],
    "Container crash loop — alert and generate restart runbook (human executes)", true⟩),
  (⟨"docker", "restarting"⟩, ⟨.alertOnly, [.sendAlert],
    "Container restarting — monitor; alert if escalates", true⟩),
  (⟨"docker", "down"⟩, ⟨.alertOnly, [.sendAlert, .generateRunbookCommand],
    "Container down — alert and generate restart runbook (human executes)", true⟩),
  (⟨"logs", "errors_present"⟩, ⟨.alertOnly, [.sendAlert],
    "Error-pattern matches in recent logs — alert for operator review", true⟩)]

/-- `_SUBJECT_OVERRIDE` -/
def subjectOverride : List ((String × Code) × ClassifiedObservation) := [
  (("ai_engine", ⟨"service", "down"⟩), ⟨.alertOnly, [.blockNewEntries, .sendAlert],
    "ai_engine DOWN — block AI-dependent entries; fallback path active; " ++
      "alert operator for manual restart (see runbook)", true⟩),
  (("ai_engine", ⟨"docker", "down"⟩),
    ⟨.alertOnly, [.blockNewEntries, .sendAlert, .generateRunbookCommand],
    "ai_engine container down — block AI-dependent entries; " ++
      "generate manual restart runbook; do not auto-restart", true⟩),
  (("ai_engine", ⟨"docker", "restart_loop"⟩),
    ⟨.alertOnly, [.blockNewEntries, .sendAlert, .generateRunbookCommand],
    "ai_engine crash loop — block AI-dependent entries; generate runbook; " ++
      "human must diagnose root cause before restart", true⟩)]

/-- `classify_finding` -/
def classifyFinding (code : Code) (subject : String) : ClassifiedObservation :=
  match subjectOverride.lookup (subject, code) with
  | some observation => observation
  | none => (codeTable.lookup code).getD {
      classification := .alertOnly
      proposedActionTypes := [.sendAlert]
      reasoning := "unknown finding code '" ++ (code.family ++ "." ++ code.kind) ++
        "' — defaulting to ALERT_ONLY" }

end QuantEmbrace.MonitoringAgent
