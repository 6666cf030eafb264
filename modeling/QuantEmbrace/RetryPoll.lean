import QuantEmbrace.RetryReplayer
import QuantEmbrace.Lib.GuardedRun
import QuantEmbrace.Lib.OffsetLog
import QuantEmbrace.Lib.PythonValue
import Mathlib.Logic.Function.Basic

/-! The retry replayer on the bytes of a retry topic, whatever they are: what `poll_once` replays,
what it sends to the dead letters, and what it leaves behind for a later commit to pass. -/
namespace QuantEmbrace.RetryPoll
open LossyUtf8 PythonValue GuardedRun OffsetLog

/-- A `datetime`: the seconds its own clock shows, and the offset of that clock from UTC. -/
structure IsoTime where
  wall : ℚ
  utcOffset : Option ℚ
  deriving DecidableEq, Repr

/-- First and last second of the years 1 to 9999. -/
def minSecond : ℚ := -62135596800
def endSecond : ℚ := 253402300800

/-- `replace(tzinfo=UTC)` of a naive time, else `astimezone(UTC)`. -/
def IsoTime.toUtc (t : IsoTime) : Py ℚ :=
  match t.utcOffset with
  | none => .ok t.wall
  | some offset =>
    if minSecond ≤ t.wall - offset ∧ t.wall - offset < endSecond then .ok (t.wall - offset)
    else .error (.overflowError "date value out of range")

/-- What the module uses of the standard library. Any of it may raise anything, but a flat
object of texts and nulls can be dumped. -/
structure Library where
  loads : Text → Py Json
  intOfText : Text → Option ℤ
  reprText : Text → Text
  repr : Json → Text
  excText : Exc → Text
  fromisoformat : Text → Py IsoTime
  dumps : Json → Py Bytes
  dumps_flat : ∀ entries, (∀ e ∈ entries, e.2 = .null ∨ ∃ t, e.2 = .text t) →
    ∃ b, dumps (.dict entries) = .ok b

/-- The time at which a record is handled, and its `isoformat`. -/
structure Clock where
  now : ℚ
  iso : Text := []
  deriving DecidableEq, Repr

/-- A replayer with the name of its service. -/
structure Poller extends RetryReplayer where
  sourceService : String := "unknown"

/-- A record as it lies on a retry topic. -/
structure RetryRecord where
  key : Option Bytes
  value : Option Bytes
  deriving DecidableEq, Repr

/-- A record given to the producer. -/
structure Produced where
  topic : String
  key : Option Bytes
  value : Bytes
  headers : List (String × Bytes) := []
  deriving DecidableEq, Repr

inductive RetryDisposal where
  | replayed (m : Produced)
  | dead (m : Produced)
  deriving DecidableEq, Repr

/-- What a poll did: the record it produced and whether the offset is committed. -/
structure Polled where
  disposal : Option RetryDisposal
  committed : Bool
  deriving DecidableEq, Repr

/-- `except (json.JSONDecodeError, UnicodeDecodeError, ValueError, TypeError)` -/
def caught (e : Exc) : Bool := e.isValueError || e.isTypeError

namespace Library
variable (lib : Library)

/-- `str(value)` -/
def str : Json → Text
  | .text t => t
  | value => lib.repr value

/-- `str(entries.get(name) or "")` -/
def strOrEmpty (entries : List (Text × Json)) (name : String) : Text :=
  lib.str ((Json.field entries name).orElse (.text []))

/-- `_parse_iso` -/
def parseIso : Json → Py ℚ
  | .text t => do
    let parsed ← lib.fromisoformat (t.replaceChar 'Z' "+00:00")
    parsed.toUtc
  | value => .error (.attributeError value.typeName "replace")

end Library

/-- `produce` and `flush` -/
def produce (delivered : Bool) (m : Produced) (undelivered : String) : Py Produced :=
  if delivered then .ok m else .error (.runtimeError (Text.of undelivered))

/-- `key_text.encode("utf-8") if isinstance(key_text, str) else None` -/
def keyBytes : Json → Py (Option Bytes)
  | .text t => do return some (← t.encodeStrict)
  | _ => .ok none

namespace Poller
variable (r : Poller) (lib : Library) (clock : Clock) (delivered : Bool)

def isStale (sourceTopic : String) (originalValue : Text) : Py Bool :=
  match lib.loads originalValue with
  | .error (.jsonDecodeError _) => .ok false
  | .error e => .error e
  | .ok payload => do
    let entries ← payload.entries
    let expiresAt := Json.field entries "expires_at"
    let exchangeTime := Json.field entries "exchange_time"
    if expiresAt.truthy then
      let t ← lib.parseIso expiresAt
      return t ≤ clock.now
    else if "ticks.".toList.isPrefixOf sourceTopic.toList ∧ exchangeTime.truthy then
      let t ← lib.parseIso exchangeTime
      return clock.now - t > r.maxTickRetryAgeSeconds
    else return false

/-- The envelope with the status of its replay. -/
def staleEnvelope (entries : List (Text × Json)) (sourceTopic : String) : Json :=
  .dict <| Json.set "retry_replayed_at" (.text clock.iso) <|
    Json.set "retry_replay_reason" (.text (Text.of "retry_payload_stale")) <|
    Json.set "retry_replay_status" (.text (Text.of "DLQ")) <|
    Json.set "failure_topic" (.text (Text.of (dlqTopic sourceTopic))) entries

def publishRetryDlq (entries : List (Text × Json)) (sourceTopic : String) : Py Produced := do
  let key ← keyBytes (Json.field entries "original_key")
  let value ← lib.dumps (staleEnvelope clock entries sourceTopic)
  produce delivered { topic := dlqTopic sourceTopic, key, value }
    ("Retry DLQ publish to " ++ dlqTopic sourceTopic ++ " failed")

def replay (entries : List (Text × Json)) (sourceTopic : String) (originalValue : Text) :
    Py Produced := do
  let retryAttempt ← ((Json.field entries "retry_attempt").orElse (.int 1)).toInt lib.intOfText
    lib.reprText
  let key ← keyBytes (Json.field entries "original_key")
  let failureTopic ← (lib.strOrEmpty entries "failure_topic").encodeStrict
  let eventId ← (lib.strOrEmpty entries "event_id").encodeStrict
  let value ← originalValue.encodeStrict
  produce delivered {
    topic := sourceTopic
    key, value
    headers := [(retryAttemptHeader, encode (PythonInt.str retryAttempt)),
      ("qe-retry-source-topic", failureTopic), ("qe-retry-event-id", eventId)] }
    ("Retry replay to " ++ sourceTopic ++ " was not durably delivered")

/-- The owned topic that a text names. -/
def ownedTopic (text : Text) : Option String := r.sourceTopics.find? fun t => Text.of t = text

def notOwned (sourceTopic : Text) : Exc :=
  .valueError (Text.of "Retry envelope source_topic " ++ lib.reprText sourceTopic ++
    Text.of " is not owned")

def noOriginalValue : Exc := .valueError (Text.of "Retry envelope has no original_value")

def handleEnvelope (envelope : Json) : Py RetryDisposal := do
  let entries ← envelope.entries
  match r.ownedTopic (lib.strOrEmpty entries "source_topic") with
  | none => throw (notOwned lib (lib.strOrEmpty entries "source_topic"))
  | some sourceTopic =>
    match Json.field entries "original_value" with
    | .text originalValue =>
      if originalValue = [] then throw noOriginalValue
      else if ← r.isStale lib clock sourceTopic originalValue then
        return .dead (← publishRetryDlq lib clock delivered entries sourceTopic)
      else return .replayed (← replay lib delivered entries sourceTopic originalValue)
    | _ => throw noOriginalValue

/-- The object that wraps what could not be handled. -/
def malformedEnvelope (sourceTopic retryTopicName : String) (key : Option Bytes)
    (rawValue : Bytes) (reason : Exc) : List (Text × Json) :=
  let text := fun s => Json.text (Text.of s)
  [(Text.of "event_id", .null),
    (Text.of "event_type", text "KAFKA_RETRY_ENVELOPE_INVALID"),
    (Text.of "schema_version", text "3.0"),
    (Text.of "source", text r.sourceService),
    (Text.of "published_time", .text clock.iso),
    (Text.of "source_topic", text sourceTopic),
    (Text.of "failure_topic", text (dlqTopic sourceTopic)),
    (Text.of "retry_topic", text retryTopicName),
    (Text.of "reason", .text (lib.excText reason)),
    (Text.of "error_type", text "retry_envelope_malformed"),
    (Text.of "retry_replay_status", text "DLQ"),
    (Text.of "retry_replayed_at", .text clock.iso),
    (Text.of "original_key", ((replacedText key).map text).getD .null),
    (Text.of "original_value", .text ((decodeReplace rawValue).map .scalar))]

def publishMalformedRetryDlq (retryTopicName : String) (key : Option Bytes) (rawValue : Bytes)
    (reason : Exc) : Py Produced :=
  match r.sourceTopicFromRetryTopic retryTopicName with
  | none => throw (.valueError (Text.of "Retry topic " ++ lib.reprText (Text.of retryTopicName) ++
      Text.of " is not owned"))
  | some sourceTopic => do
    let value ← lib.dumps (.dict (r.malformedEnvelope lib clock sourceTopic retryTopicName key
      rawValue reason))
    produce delivered { topic := dlqTopic sourceTopic, key, value }
      ("Malformed retry DLQ publish to " ++ dlqTopic sourceTopic ++ " failed")

/-- The `try` block up to the commit. -/
def handle (rawValue : Bytes) : Py RetryDisposal := do
  let text ← decodeStrict rawValue
  let envelope ← lib.loads text
  r.handleEnvelope lib clock delivered envelope

/-- One record of a retry topic; `commits` says how the synchronous commit ends. -/
def pollOnce (commits : Bool) (retryTopicName : String) (msg : RetryRecord) : Polled :=
  let rawValue := msg.value.getD []
  match r.handle lib clock delivered rawValue with
  | .ok d => ⟨some d, commits⟩
  | .error e =>
    if caught e then
      match r.publishMalformedRetryDlq lib clock delivered retryTopicName msg.key rawValue e with
      | .ok m => ⟨some (.dead m), commits⟩
      | .error _ => ⟨none, false⟩
    else ⟨none, false⟩

end Poller

/-- A time field whose reading raises something that is not caught: no text, a text that the
library refuses in such a way, or a time that UTC cannot show. -/
def Library.IsoEscapes (lib : Library) : Json → Prop
  | .text t =>
    match lib.fromisoformat (t.replaceChar 'Z' "+00:00") with
    | .error e => caught e = false
    | .ok parsed => ∃ offset, parsed.utcOffset = some offset ∧
        ¬ (minSecond ≤ parsed.wall - offset ∧ parsed.wall - offset < endSecond)
  | _ => True

namespace Poller
variable (r : Poller) (lib : Library) (clock : Clock)

/-- A payload that is JSON, and no object, or with a time field that escapes. -/
def PayloadEscapes (sourceTopic : String) : Json → Prop
  | .dict entries =>
    if (Json.field entries "expires_at").truthy then
      lib.IsoEscapes (Json.field entries "expires_at")
    else "ticks.".toList.isPrefixOf sourceTopic.toList ∧
      (Json.field entries "exchange_time").truthy ∧
      lib.IsoEscapes (Json.field entries "exchange_time")
  | _ => True

def StaleEscapes (sourceTopic : String) (originalValue : Text) : Prop :=
  match lib.loads originalValue with
  | .error e => caught e = false
  | .ok payload => PayloadEscapes lib sourceTopic payload

/-- An envelope that is no object; or one that names an owned topic and holds a value, whose
payload escapes, whose dead letter cannot be written, or whose attempt is infinite. -/
def EnvelopeEscapes : Json → Prop
  | .dict entries => ∃ sourceTopic originalValue,
    r.ownedTopic (lib.strOrEmpty entries "source_topic") = some sourceTopic ∧
    Json.field entries "original_value" = .text originalValue ∧ originalValue ≠ [] ∧
    (StaleEscapes lib sourceTopic originalValue ∨
      (r.isStale lib clock sourceTopic originalValue = .ok true ∧
        (∃ key, keyBytes (Json.field entries "original_key") = .ok key) ∧
        Escapes caught (lib.dumps (staleEnvelope clock entries sourceTopic))) ∨
      (r.isStale lib clock sourceTopic originalValue = .ok false ∧
        ∃ negative, Json.field entries "retry_attempt" = .float (.infinity negative)))
  | _ => True

/-- The bytes of a record whose handling raises something that is not caught. -/
def RecordEscapes (rawValue : Bytes) : Prop :=
  match decodeStrict rawValue with
  | .error _ => False
  | .ok text =>
    match lib.loads text with
    | .error e => caught e = false
    | .ok envelope => r.EnvelopeEscapes lib clock envelope

end Poller

theorem caught_eq (e : Exc) : caught e = (e.isValueError || e.isTypeError) := rfl

theorem caught_of_isValueError (e : Exc) (h : e.isValueError) : caught e := by
  simp [caught, h]

theorem not_escapes_keyBytes (v : Json) : ¬ Escapes caught (keyBytes v) := by
  cases v with
  | text t =>
    rw [keyBytes, escapes_bind_of_not (not_escapes_encodeStrict caught_of_isValueError t)]
    simp
  | _ => exact escapes_ok _

theorem not_escapes_produce (m : Produced) (undelivered : String) :
    ¬ Escapes caught (produce true m undelivered) :=
  escapes_ok m

theorem escapes_entries (v : Json) :
    Escapes caught v.entries ↔ ∀ entries, v ≠ .dict entries := by
  cases v <;> simp [Json.entries, caught, Exc.isValueError, Exc.isTypeError]

theorem escapes_toUtc (t : IsoTime) :
    Escapes caught t.toUtc ↔ ∃ offset, t.utcOffset = some offset ∧
      ¬ (minSecond ≤ t.wall - offset ∧ t.wall - offset < endSecond) := by
  rw [IsoTime.toUtc]
  cases t.utcOffset with
  | none => simp
  | some offset =>
    simp only [Option.some.injEq, exists_eq_left']
    split
    · next hrange => simp [hrange]
    · next hrange => simp [hrange, caught, Exc.isValueError, Exc.isTypeError]

theorem escapes_parseIso (lib : Library) (v : Json) :
    Escapes caught (lib.parseIso v) ↔ lib.IsoEscapes v := by
  cases v with
  | text t =>
    rw [Library.parseIso, Library.IsoEscapes]
    cases lib.fromisoformat (t.replaceChar 'Z' "+00:00") with
    | error e => exact escapes_error e
    | ok parsed => exact escapes_toUtc parsed
  | _ => simp [Library.parseIso, Library.IsoEscapes, caught, Exc.isValueError, Exc.isTypeError]

theorem orElse_infinity (v : Json) (negative : Bool) :
    v.orElse (.int 1) = .float (.infinity negative) ↔ v = .float (.infinity negative) := by
  rw [Json.orElse]
  constructor
  · intro h
    split at h
    · exact h
    · cases h
  · rintro rfl
    rfl

namespace Poller
variable (r : Poller) (lib : Library) (clock : Clock)

theorem escapes_isStale (sourceTopic : String) (originalValue : Text) :
    Escapes caught (r.isStale lib clock sourceTopic originalValue) ↔
      StaleEscapes lib sourceTopic originalValue := by
  rw [isStale, StaleEscapes]
  cases lib.loads originalValue with
  | error e =>
    cases e <;> simp [caught, Exc.isValueError, Exc.isTypeError]
  | ok payload =>
    cases payload with
    | dict entries =>
      simp only [Json.entries, escapes_ok_bind, PayloadEscapes]
      split
      · simp only [escapes_bind, escapes_parseIso, escapes_pure, and_false, exists_false, or_false]
      split
      · next hticks =>
        simp only [escapes_bind, escapes_parseIso, escapes_pure, and_false, exists_false, or_false,
          hticks, true_and]
      · next hticks => simpa only [escapes_pure, false_iff, ← and_assoc] using
          fun h => hticks h.1
    | _ => simp [Json.entries, PayloadEscapes, caught, Exc.isValueError, Exc.isTypeError, Escapes,
        bind, Except.bind]

theorem escapes_publishRetryDlq (entries : List (Text × Json)) (sourceTopic : String) :
    Escapes caught (publishRetryDlq lib clock true entries sourceTopic) ↔
      (∃ key, keyBytes (Json.field entries "original_key") = .ok key) ∧
        Escapes caught (lib.dumps (staleEnvelope clock entries sourceTopic)) := by
  rw [publishRetryDlq, escapes_bind_of_not (not_escapes_keyBytes _)]
  simp only [escapes_bind, not_escapes_produce, and_false, exists_false, or_false,
    exists_and_right]

theorem escapes_replay (entries : List (Text × Json)) (sourceTopic : String)
    (originalValue : Text) :
    Escapes caught (replay lib true entries sourceTopic originalValue) ↔
      ∃ negative, Json.field entries "retry_attempt" = .float (.infinity negative) := by
  have hencode := not_escapes_encodeStrict caught_of_isValueError
  rw [replay, escapes_bind, escapes_toInt caught_eq]
  simp only [orElse_infinity, or_iff_left_iff_imp, forall_exists_index, and_imp]
  intro attempt hattempt hrest
  simp only [escapes_bind, not_escapes_keyBytes, hencode, not_escapes_produce, and_false,
    exists_false, or_false] at hrest

/-- The part of `handleEnvelope` that is reached with an owned topic and a value. -/
theorem escapes_dispatch (entries : List (Text × Json)) (sourceTopic : String)
    (originalValue : Text) :
    Escapes caught (do
      if ← r.isStale lib clock sourceTopic originalValue then
        return RetryDisposal.dead (← publishRetryDlq lib clock true entries sourceTopic)
      else return RetryDisposal.replayed (← replay lib true entries sourceTopic originalValue)) ↔
    StaleEscapes lib sourceTopic originalValue ∨
      (r.isStale lib clock sourceTopic originalValue = .ok true ∧
        (∃ key, keyBytes (Json.field entries "original_key") = .ok key) ∧
        Escapes caught (lib.dumps (staleEnvelope clock entries sourceTopic))) ∨
      (r.isStale lib clock sourceTopic originalValue = .ok false ∧
        ∃ negative, Json.field entries "retry_attempt" = .float (.infinity negative)) := by
  rw [escapes_bind, escapes_isStale]
  refine or_congr_right ?_
  simp only [Bool.exists_bool, Bool.false_eq_true, if_false, if_true, escapes_bind,
    escapes_replay, escapes_publishRetryDlq, escapes_pure, and_false, exists_false, or_false]
  exact or_comm

theorem escapes_handleEnvelope (envelope : Json) :
    Escapes caught (r.handleEnvelope lib clock true envelope) ↔
      r.EnvelopeEscapes lib clock envelope := by
  rw [handleEnvelope, escapes_bind, escapes_entries]
  cases envelope with
  | dict entries =>
    simp only [Json.entries, Except.ok.injEq, exists_eq_left', EnvelopeEscapes]
    rw [or_iff_right (fun h => h entries rfl)]
    cases r.ownedTopic (lib.strOrEmpty entries "source_topic") with
    | none => simp [notOwned, caught, Exc.isValueError]
    | some sourceTopic =>
      cases Json.field entries "original_value" with
      | text originalValue =>
        by_cases hempty : originalValue = []
        · simp [hempty, noOriginalValue, caught, Exc.isValueError]
        · simp only [hempty, if_false, escapes_dispatch, Option.some.injEq, Json.text.injEq,
            exists_and_left, exists_eq_left', ne_eq, not_false_eq_true, true_and]
      | _ => simp [noOriginalValue, caught, Exc.isValueError]
  | _ => simp [EnvelopeEscapes]

theorem escapes_handle (rawValue : Bytes) :
    Escapes caught (r.handle lib clock true rawValue) ↔ r.RecordEscapes lib clock rawValue := by
  rw [handle, RecordEscapes, decodeStrict]
  cases decode rawValue with
  | none => simp [Escapes, bind, Except.bind, caught, Exc.isValueError]
  | some cs =>
    simp only [escapes_ok_bind]
    cases lib.loads (cs.map .scalar) with
    | error e => simp [Escapes, bind, Except.bind]
    | ok envelope => simp only [escapes_ok_bind, escapes_handleEnvelope]

end Poller

/-- The record went to a topic of the replayer or to the dead letters of one. -/
def Poller.Routed (r : Poller) : RetryDisposal → Prop
  | .replayed m => m.topic ∈ r.sourceTopics
  | .dead m => ∃ sourceTopic ∈ r.sourceTopics, m.topic = dlqTopic sourceTopic

namespace Poller
variable {r : Poller} {lib : Library} {clock : Clock}

theorem produce_topic {delivered : Bool} {m m' : Produced} {undelivered : String}
    (h : produce delivered m undelivered = .ok m') : m'.topic = m.topic := by
  rw [produce] at h
  split at h
  · rw [Except.ok.inj h]
  · cases h

theorem publishRetryDlq_topic {entries : List (Text × Json)} {sourceTopic : String} {m : Produced}
    (h : publishRetryDlq lib clock true entries sourceTopic = .ok m) :
    m.topic = dlqTopic sourceTopic := by
  rw [publishRetryDlq] at h
  obtain ⟨key, -, h⟩ := bind_eq_ok.mp h
  obtain ⟨value, -, h⟩ := bind_eq_ok.mp h
  exact produce_topic h

theorem replay_topic {entries : List (Text × Json)} {sourceTopic : String} {originalValue : Text}
    {m : Produced} (h : replay lib true entries sourceTopic originalValue = .ok m) :
    m.topic = sourceTopic := by
  rw [replay] at h
  obtain ⟨attempt, -, h⟩ := bind_eq_ok.mp h
  obtain ⟨key, -, h⟩ := bind_eq_ok.mp h
  obtain ⟨failureTopic, -, h⟩ := bind_eq_ok.mp h
  obtain ⟨eventId, -, h⟩ := bind_eq_ok.mp h
  obtain ⟨value, -, h⟩ := bind_eq_ok.mp h
  exact produce_topic h

theorem ownedTopic_mem {text : Text} {sourceTopic : String}
    (h : r.ownedTopic text = some sourceTopic) : sourceTopic ∈ r.sourceTopics :=
  List.mem_of_find?_eq_some h

theorem handleEnvelope_routed {envelope : Json} {d : RetryDisposal}
    (h : r.handleEnvelope lib clock true envelope = .ok d) : r.Routed d := by
  rw [handleEnvelope] at h
  obtain ⟨entries, -, h⟩ := bind_eq_ok.mp h
  cases howned : r.ownedTopic (lib.strOrEmpty entries "source_topic") with
  | none => simp only [howned, throw, throwThe, MonadExceptOf.throw, reduceCtorEq] at h
  | some sourceTopic =>
    simp only [howned] at h
    have hmem := ownedTopic_mem howned
    split at h
    · split at h
      · cases h
      obtain ⟨stale, -, h⟩ := bind_eq_ok.mp h
      split at h
      · obtain ⟨m, hm, h⟩ := bind_eq_ok.mp h
        obtain rfl := Except.ok.inj h
        exact ⟨sourceTopic, hmem, publishRetryDlq_topic hm⟩
      · obtain ⟨m, hm, h⟩ := bind_eq_ok.mp h
        obtain rfl := Except.ok.inj h
        rw [← replay_topic hm] at hmem
        exact hmem
    · cases h

theorem handle_routed {rawValue : Bytes} {d : RetryDisposal}
    (h : r.handle lib clock true rawValue = .ok d) : r.Routed d := by
  rw [handle] at h
  obtain ⟨text, -, h⟩ := bind_eq_ok.mp h
  obtain ⟨envelope, -, h⟩ := bind_eq_ok.mp h
  exact handleEnvelope_routed h

variable (r lib clock) in
theorem malformedEnvelope_flat (sourceTopic retryTopicName : String) (key : Option Bytes)
    (rawValue : Bytes) (reason : Exc) :
    ∀ e ∈ r.malformedEnvelope lib clock sourceTopic retryTopicName key rawValue reason,
      e.2 = .null ∨ ∃ t, e.2 = .text t := by
  cases hkey : replacedText key <;> simp [malformedEnvelope, hkey]

variable (lib clock) in
/-- What counts as malformed goes to the dead letters of its topic, once that is delivered. -/
theorem publishMalformedRetryDlq_ok {sourceTopic : String} (h : sourceTopic ∈ r.sourceTopics)
    (key : Option Bytes) (rawValue : Bytes) (reason : Exc) :
    ∃ m, r.publishMalformedRetryDlq lib clock true (retryTopic sourceTopic) key rawValue reason =
      .ok m ∧ m.topic = dlqTopic sourceTopic := by
  obtain ⟨value, hvalue⟩ := lib.dumps_flat _ (malformedEnvelope_flat r lib clock sourceTopic
    (retryTopic sourceTopic) key rawValue reason)
  rw [publishMalformedRetryDlq, r.sourceTopicFromRetryTopic_retryTopic h]
  simp only [hvalue]
  exact ⟨_, rfl, rfl⟩

/-- A record that does not escape is replayed or dead-lettered, and its commit is tried. -/
theorem pollOnce_handled {sourceTopic : String} (howned : sourceTopic ∈ r.sourceTopics)
    {msg : RetryRecord} (h : ¬ r.RecordEscapes lib clock (msg.value.getD [])) (commits : Bool) :
    ∃ d, r.pollOnce lib clock true commits (retryTopic sourceTopic) msg = ⟨some d, commits⟩ ∧
      r.Routed d := by
  rw [← escapes_handle] at h
  rw [pollOnce]
  cases hhandle : r.handle lib clock true (msg.value.getD []) with
  | ok d => exact ⟨d, rfl, handle_routed hhandle⟩
  | error e =>
    have hcaught : caught e = true := by simpa [hhandle] using h
    obtain ⟨m, hm, htopic⟩ := publishMalformedRetryDlq_ok lib clock howned msg.key
      (msg.value.getD []) e
    exact ⟨.dead m, by simp only [hcaught, if_true, hm], sourceTopic, howned, htopic⟩

/-- A record that escapes is neither produced anywhere nor committed. -/
theorem pollOnce_escaped {retryTopicName : String} {msg : RetryRecord}
    (h : r.RecordEscapes lib clock (msg.value.getD [])) (commits : Bool) :
    r.pollOnce lib clock true commits retryTopicName msg = ⟨none, false⟩ := by
  rw [← escapes_handle] at h
  obtain ⟨e, he, hcaught⟩ := h
  simp only [pollOnce, he, hcaught, Bool.false_eq_true, if_false]

end Poller

/-- A partition of one of the retry topics the replayer subscribes to. -/
structure RetryPartition (r : Poller) where
  sourceTopic : {t : String // t ∈ r.sourceTopics}
  index : ℕ
  deriving DecidableEq

/-- A poll that returns the next record of a partition, or the partition given anew: a restart or
a rebalance, after which it is read again from its committed offset. -/
inductive DrainEvent (r : Poller) where
  | poll (p : RetryPartition r) (clock : Clock) (commits : Bool)
  | assign (p : RetryPartition r)

/-- The offsets of each partition, and what was done with each record so far. -/
structure Drain (r : Poller) where
  offsets : RetryPartition r → Offsets 0 := fun _ => .init 0
  disposed : List (RetryPartition r × ℕ × RetryDisposal) := []

namespace Drain
variable {r : Poller} (lib : Library) (log : RetryPartition r → ℕ → RetryRecord) (s : Drain r)

/-- Nothing read yet. -/
def init : Drain r := {}

/-- A poll, with a producer that delivers. -/
def poll (p : RetryPartition r) (clock : Clock) (commits : Bool) : Drain r :=
  let c := s.offsets p
  let polled := r.pollOnce lib clock true commits (retryTopic p.sourceTopic) (log p c.position)
  { offsets := Function.update s.offsets p (if polled.committed then c.commit else c.skip)
    disposed := (polled.disposal.map fun d => (p, c.position, d)).toList ++ s.disposed }

def step (s : Drain r) : DrainEvent r → Drain r
  | .poll p clock commits => s.poll lib log p clock commits
  | .assign p => { s with offsets := Function.update s.offsets p (s.offsets p).reset }

def disposedOffsets : List ℕ := s.disposed.map fun x => x.2.1

/-- The record was replayed to its source topic or published to the dead letters. -/
def Disposed (p : RetryPartition r) (m : ℕ) : Prop := ∃ d, (p, m, d) ∈ s.disposed ∧ r.Routed d

/-- No offset that was not disposed of has been passed. -/
def NonePassed : Prop := ∀ p, (s.offsets p).Covered (s.Disposed p)

/-- A record that is handled, and whose commit succeeds, leaves none behind that was not. -/
def NoneLeftBehind (s : Drain r) : DrainEvent r → Prop
  | .poll p clock commits =>
    let c := s.offsets p
    commits = true → ¬ r.RecordEscapes lib clock ((log p c.position).value.getD []) →
      c.NoneLeft (s.Disposed p)
  | .assign _ => True

variable {lib log s} {p : RetryPartition r} {clock : Clock} {commits : Bool}

theorem poll_escaped
    (h : r.RecordEscapes lib clock ((log p (s.offsets p).position).value.getD [])) :
    s.poll lib log p clock commits =
      { s with offsets := Function.update s.offsets p (s.offsets p).skip } := by
  simp only [poll, Poller.pollOnce_escaped h, Bool.false_eq_true, if_false, Option.map_none,
    Option.toList_none, List.nil_append]

variable (commits) in
theorem poll_handled
    (h : ¬ r.RecordEscapes lib clock ((log p (s.offsets p).position).value.getD [])) :
    ∃ d, r.Routed d ∧ s.poll lib log p clock commits =
      { offsets := Function.update s.offsets p
          (if commits then (s.offsets p).commit else (s.offsets p).skip)
        disposed := (p, (s.offsets p).position, d) :: s.disposed } := by
  obtain ⟨d, hd, hrouted⟩ := Poller.pollOnce_handled p.sourceTopic.2 h commits
  refine ⟨d, hrouted, ?_⟩
  simp only [poll, hd, Option.map_some, Option.toList_some, List.singleton_append]

/-- Changing the offsets of one partition, with the others as covered as they were. -/
theorem nonePassed_update {c : Offsets 0} {t : Drain r}
    (hoffsets : t.offsets = Function.update s.offsets p c) (h : s.NonePassed)
    (hdisposed : ∀ q m, s.Disposed q m → t.Disposed q m) :
    t.NonePassed ↔ c.Covered (t.Disposed p) := by
  constructor
  · intro ht
    have := ht p
    rwa [hoffsets, Function.update_self] at this
  · intro hc q
    by_cases hq : q = p
    · subst hq
      rwa [hoffsets, Function.update_self]
    · rw [hoffsets, Function.update_of_ne hq]
      exact (h q).mono (hdisposed q)

/-- One poll passes nothing exactly when it leaves nothing behind. -/
theorem poll_nonePassed (h : s.NonePassed) :
    (s.poll lib log p clock commits).NonePassed ↔
      s.NoneLeftBehind lib log (.poll p clock commits) := by
  rw [NoneLeftBehind]
  by_cases hesc : r.RecordEscapes lib clock ((log p (s.offsets p).position).value.getD [])
  · rw [poll_escaped hesc]
    refine Iff.trans (nonePassed_update rfl h fun q m hd => hd) ?_
    exact iff_of_true (h p).skip fun _ hn => absurd hesc hn
  obtain ⟨d, hrouted, hpoll⟩ := poll_handled commits hesc
  rw [hpoll]
  set t : Drain r := {
    offsets := Function.update s.offsets p
      (if commits then (s.offsets p).commit else (s.offsets p).skip)
    disposed := (p, (s.offsets p).position, d) :: s.disposed } with ht
  have hmono : ∀ q m, s.Disposed q m → t.Disposed q m := by
    rintro q m ⟨d', hd', hr'⟩
    exact ⟨d', List.mem_cons_of_mem _ hd', hr'⟩
  have hself : t.Disposed p (s.offsets p).position := ⟨d, List.mem_cons_self, hrouted⟩
  have hbelow : ∀ m < (s.offsets p).position, t.Disposed p m → s.Disposed p m := by
    rintro m hm ⟨d', hd', hr'⟩
    obtain heq | hd' := List.mem_cons.mp hd'
    · simp only [Prod.mk.injEq, true_and] at heq
      omega
    · exact ⟨d', hd', hr'⟩
  rw [nonePassed_update (p := p) rfl h hmono]
  simp only [hesc, not_false_eq_true, true_implies]
  have hcov := (h p).mono (hmono p)
  cases commits with
  | false => simpa using hcov.skip
  | true =>
    simp only [if_true, true_implies, hcov.commit_iff, hself, and_true]
    constructor
    · intro hleft m hm hc
      exact hbelow m hm (hleft m hm hc)
    · intro hleft m hm hc
      exact hmono p m (hleft m hm hc)

theorem step_nonePassed (e : DrainEvent r) (h : s.NonePassed) :
    (s.step lib log e).NonePassed ↔ s.NoneLeftBehind lib log e := by
  cases e with
  | poll p clock commits => exact poll_nonePassed h
  | assign p =>
    refine Iff.trans (nonePassed_update rfl h fun q m hd => hd) ?_
    exact iff_of_true (h p).reset trivial

theorem nonePassed_init : (init : Drain r).NonePassed := fun _ => Offsets.init_covered _

end Drain

/-- In every state of a run every passed record was replayed or dead-lettered, exactly when no
record that is handled is committed over one that was left behind. -/
theorem retry_records_disposed (r : Poller) (lib : Library)
    (log : RetryPartition r → ℕ → RetryRecord) (es : List (DrainEvent r)) :
    AlongRun (Drain.step lib log) Drain.NonePassed Drain.init es ↔
      StepsMeet (Drain.step lib log) (Drain.NoneLeftBehind lib log) Drain.init es := by
  refine alongRun_iff (I := fun _ => True) (D := fun _ => True) (fun _ _ _ _ => trivial) ?_ es
    (fun _ _ => trivial) Drain.init trivial Drain.nonePassed_init
  intro s e _ _ h
  exact Drain.step_nonePassed e h

/-- The JSON texts `[]` and one envelope; any other text is no JSON. -/
def twoTexts (envelopeText : String) : Library where
  loads t :=
    if t = Text.of "[]" then .ok (.list [])
    else if t = Text.of envelopeText then
      .ok (.dict [(Text.of "source_topic", .text (Text.of "signals.approved")),
        (Text.of "original_value", .text (Text.of "AB"))])
    else .error (.jsonDecodeError t)
  intOfText _ := none
  reprText t := t
  repr _ := []
  excText _ := []
  fromisoformat t := .error (.valueError t)
  dumps _ := .ok []
  dumps_flat _ _ := ⟨[], rfl⟩

def approvedPoller : Poller where
  sourceTopics := ["signals.approved"]

def approvedRetries : RetryPartition approvedPoller := ⟨⟨"signals.approved", by decide⟩, 0⟩

def envelopeText : String :=
  "\x7b\"source_topic\": \"signals.approved\", \"original_value\": \"AB\"\x7d"

/-- The array `[]`, and an envelope at every later offset. -/
def arrayThenEnvelopes (_ : RetryPartition approvedPoller) : ℕ → RetryRecord
  | 0 => ⟨none, some (encodeText "[]")⟩
  | _ => ⟨none, some (encodeText envelopeText)⟩

/-- The array is left behind, and the commit of the envelope after it passes it. -/
theorem array_passed :
    ¬ ∀ (r : Poller) (lib : Library) (log : RetryPartition r → ℕ → RetryRecord)
      (es : List (DrainEvent r)),
      AlongRun (Drain.step lib log) Drain.NonePassed Drain.init es := by
  intro h
  have hlast := (h approvedPoller (twoTexts envelopeText) arrayThenEnvelopes
    [.poll approvedRetries ⟨0, []⟩ true, .poll approvedRetries ⟨0, []⟩ true]).last
  obtain ⟨d, hd, -⟩ := hlast approvedRetries 0 (le_refl 0) (by decide +kernel)
  have hoffset : 0 ∈ Drain.disposedOffsets _ := List.mem_map_of_mem hd
  clear hd
  revert hoffset
  decide +kernel

end QuantEmbrace.RetryPoll
