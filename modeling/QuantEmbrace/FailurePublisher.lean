import QuantEmbrace.Lib.LossyUtf8
import QuantEmbrace.Lib.PythonInt

/-! The failure publisher: a record that could not be processed is wrapped in an envelope for
the retry topic, or for the dead letters once its attempts are used up. -/
namespace QuantEmbrace
open LossyUtf8

/-- The value of a Kafka header. -/
inductive HeaderValue where
  | absent
  | bytes (b : Bytes)
  | text (s : String)
  deriving DecidableEq, Repr

abbrev KafkaHeaders : Type := List (String × HeaderValue)

/-- A record of a source topic, as a consumer receives it. -/
structure KafkaRecord where
  key : Option Bytes
  value : Option Bytes
  headers : KafkaHeaders := []
  deriving DecidableEq, Repr

def encodeText (s : String) : Bytes := encode s.toList

/-- `b.decode("utf-8", errors="replace") if b else None` -/
def replacedText : Option Bytes → Option String
  | none | some [] => none
  | some b => some (String.ofList (decodeReplace b))

def retryTopic (topic : String) : String := topic ++ ".retry"

def dlqTopic (topic : String) : String := topic ++ ".dlq"

def retryAttemptHeader : String := "qe-retry-attempt"

/-- The number in a header that carries one; zero for anything that is no number. -/
def headerAttempt : HeaderValue → ℤ
  | .absent => 0
  | .bytes b => ((decode b).bind PythonInt.parse).getD 0
  | .text s => (PythonInt.parse s.toList).getD 0

def currentAttempt : KafkaHeaders → ℤ
  | [] => 0
  | (name, value) :: headers =>
    if name ≠ retryAttemptHeader ∨ value = .absent then currentAttempt headers
    else headerAttempt value

def nextRetryAttempt (headers : KafkaHeaders) : ℤ := currentAttempt headers + 1

inductive DetailValue where
  | number (n : ℤ)
  | text (s : String)
  deriving DecidableEq, Repr

/-- `details`: the entries of a dict, in order. -/
abbrev Details : Type := List (String × DetailValue)

/-- `{**details, name: value}` -/
def Details.set (details : Details) (name : String) (value : DetailValue) : Details :=
  match details with
  | [] => [(name, value)]
  | (n, v) :: rest => if n = name then (n, value) :: rest else (n, v) :: Details.set rest name value

/-- `details.get(name, default)`, of an entry that is a number. -/
def Details.number (details : Details) (name : String) (default : ℤ) : ℤ :=
  match details.lookup name with
  | some (.number n) => n
  | _ => default

/-- What a publication is told by its caller, and the identity and time it stamps. -/
structure FailureReport where
  reason : String
  errorType : String
  details : Details := []
  eventId : String := ""
  publishedTime : String := ""
  deriving DecidableEq, Repr

/-- The JSON object put on the failure topic. -/
structure FailureEnvelope where
  eventId : String
  eventType : String := "KAFKA_FAILURE"
  schemaVersion : String := "3.0"
  source : String
  publishedTime : String
  sourceTopic : String
  failureTopic : String
  reason : String
  errorType : String
  details : Details
  retryAttempt : ℤ
  maxRetryAttempts : ℤ
  originalKey : Option String
  originalValue : Option String
  deriving DecidableEq, Repr

/-- What the producer was given. -/
structure FailureRecord where
  topic : String
  key : Option Bytes
  envelope : FailureEnvelope
  deriving DecidableEq, Repr

structure FailurePublisher where
  sourceService : String := "unknown"
  maxRetryAttempts : ℤ := 3
  deriving DecidableEq, Repr

namespace FailurePublisher
variable (p : FailurePublisher)

/-- The record that `_publish` hands to the producer. -/
def failureRecord (targetTopic sourceTopic : String) (key value : Option Bytes)
    (report : FailureReport) : FailureRecord where
  topic := targetTopic
  key := key
  envelope := {
    eventId := report.eventId
    source := p.sourceService
    publishedTime := report.publishedTime
    sourceTopic := sourceTopic
    failureTopic := targetTopic
    reason := report.reason
    errorType := report.errorType
    details := report.details
    retryAttempt := report.details.number "retry_attempt" 0
    maxRetryAttempts := report.details.number "max_retry_attempts" p.maxRetryAttempts
    originalKey := replacedText key
    originalValue := replacedText value }

/-- `_publish`: nothing is published, and the answer is no, unless the producer is started and
takes the record. -/
def publish (taken : Bool) (targetTopic sourceTopic : String) (key value : Option Bytes)
    (report : FailureReport) : Option FailureRecord :=
  if taken then some (p.failureRecord targetTopic sourceTopic key value report) else none

def publishDlq (taken : Bool) (sourceTopic : String) (r : KafkaRecord) (report : FailureReport) :
    Option FailureRecord :=
  p.publish taken (dlqTopic sourceTopic) sourceTopic r.key r.value report

/-- The report with the attempt noted in its details. -/
def noteAttempt (report : FailureReport) (retryAttempt : ℤ) : FailureReport :=
  { report with
    details := (report.details.set "retry_attempt" (.number retryAttempt)).set
      "max_retry_attempts" (.number p.maxRetryAttempts) }

def publishRetry (taken : Bool) (sourceTopic : String) (r : KafkaRecord) (report : FailureReport) :
    Option FailureRecord :=
  let retryAttempt := nextRetryAttempt r.headers
  let noted := p.noteAttempt report retryAttempt
  if retryAttempt > p.maxRetryAttempts then
    p.publish taken (dlqTopic sourceTopic) sourceTopic r.key r.value
      { noted with errorType := report.errorType ++ "_retry_exhausted" }
  else p.publish taken (retryTopic sourceTopic) sourceTopic r.key r.value noted

end FailurePublisher

namespace Details

theorem lookup_set_self (d : Details) (name : String) (v : DetailValue) :
    (d.set name v).lookup name = some v := by
  induction d with
  | nil => simp [Details.set]
  | cons e d ih =>
    obtain ⟨n, w⟩ := e
    by_cases h : n = name
    · simp [Details.set, h]
    · rw [Details.set, if_neg h, List.lookup_cons, beq_false_of_ne (Ne.symm h)]
      exact ih

theorem lookup_set_ne (d : Details) {name other : String} (v : DetailValue) (h : other ≠ name) :
    (d.set name v).lookup other = d.lookup other := by
  induction d with
  | nil => simp [Details.set, List.lookup_cons, beq_false_of_ne h]
  | cons e d ih =>
    obtain ⟨n, w⟩ := e
    by_cases hn : n = name
    · subst hn
      simp [Details.set, List.lookup_cons, beq_false_of_ne h]
    · rw [Details.set, if_neg hn, List.lookup_cons, List.lookup_cons, ih]

end Details

namespace FailurePublisher
variable (p : FailurePublisher)

/-- The attempt noted is the one the envelope carries, whatever the caller's details hold. -/
theorem noteAttempt_number (report : FailureReport) (n : ℤ) :
    (p.noteAttempt report n).details.number "retry_attempt" 0 = n := by
  rw [Details.number, noteAttempt, Details.lookup_set_ne _ _ (by decide),
    Details.lookup_set_self]

theorem publishRetry_refused (sourceTopic : String) (r : KafkaRecord) (report : FailureReport) :
    p.publishRetry false sourceTopic r report = none := by
  simp [publishRetry, publish]

/-- What a taken publication puts, and where. -/
theorem publishRetry_taken (sourceTopic : String) (r : KafkaRecord) (report : FailureReport) :
    ∃ rec, p.publishRetry true sourceTopic r report = some rec ∧
      rec.key = r.key ∧ rec.envelope.sourceTopic = sourceTopic ∧
      rec.envelope.retryAttempt = nextRetryAttempt r.headers ∧
      rec.envelope.originalKey = replacedText r.key ∧
      rec.envelope.originalValue = replacedText r.value ∧
      rec.topic = if nextRetryAttempt r.headers > p.maxRetryAttempts then dlqTopic sourceTopic
        else retryTopic sourceTopic := by
  have hn := p.noteAttempt_number report (nextRetryAttempt r.headers)
  by_cases h : nextRetryAttempt r.headers > p.maxRetryAttempts
  · exact ⟨_, by rw [publishRetry, if_pos h]; rfl, rfl, rfl, hn, rfl, rfl, by rw [if_pos h]; rfl⟩
  · exact ⟨_, by rw [publishRetry, if_neg h]; rfl, rfl, rfl, hn, rfl, rfl, by rw [if_neg h]; rfl⟩

end FailurePublisher

theorem retryTopic_ne_dlqTopic (topic : String) : retryTopic topic ≠ dlqTopic topic := by
  intro h
  have := congrArg String.toList h
  simp [retryTopic, dlqTopic] at this

end QuantEmbrace
