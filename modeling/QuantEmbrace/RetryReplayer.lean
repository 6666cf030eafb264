import QuantEmbrace.FailurePublisher
import Mathlib.Algebra.Order.Field.Rat

/-! The retry replayer: an envelope of a retry topic goes back to its source topic or on to the
dead letters; and which messages survive the way there and back. -/
namespace QuantEmbrace
open LossyUtf8

/-- A field of the decoded payload: falsy, a text, or anything else. -/
inductive PayloadField where
  | falsy
  | text (s : String)
  | other
  deriving DecidableEq, Repr

/-- What `json.loads` makes of a payload. `raises` is an exception that is no `ValueError`. -/
inductive Payload where
  | decodeError
  | valueError (reason : String)
  | raises
  | notObject
  | object (expiresAt exchangeTime : PayloadField)
  deriving DecidableEq, Repr

inductive IsoReading where
  | time (t : ℚ)
  | valueError (reason : String)
  | raises
  deriving DecidableEq, Repr

/-- The library and the clock at one poll. -/
structure PayloadReader where
  loads : String → Payload
  parseIso : String → IsoReading
  now : ℚ
  replayedAt : String := ""

/-- How handling an envelope fails: with an error that `poll_once` takes for a malformed
envelope, or with any other exception. -/
inductive HandleError where
  | malformed (reason : String)
  | other
  deriving DecidableEq, Repr

/-- What a dead letter holds of the message: the envelope itself, the envelope with the status of
its replay, or the text of an envelope that could not be handled. -/
inductive DeadContent where
  | failure (e : FailureEnvelope)
  | notReplayed (e : FailureEnvelope) (reason replayedAt : String)
  | malformed (retryTopic reason : String) (originalKey : Option String) (e : FailureEnvelope)
  deriving DecidableEq, Repr

structure DeadLetter where
  topic : String
  key : Option Bytes
  content : DeadContent
  deriving DecidableEq, Repr

/-- Where a message goes from a retry topic; `uncommitted` puts nothing anywhere. -/
inductive Disposal where
  | replayed (topic : String) (r : KafkaRecord)
  | dead (d : DeadLetter)
  | uncommitted
  deriving DecidableEq, Repr

structure RetryReplayer where
  sourceTopics : List String
  maxTickRetryAgeSeconds : ℚ := 5

namespace RetryReplayer
variable (r : RetryReplayer) (reader : PayloadReader)

/-- `_parse_iso` of a field; a value that is no text has no `replace`. -/
def parseField : PayloadField → Except HandleError ℚ
  | .text s =>
    match reader.parseIso s with
    | .time t => .ok t
    | .valueError reason => .error (.malformed reason)
    | .raises => .error .other
  | .other | .falsy => .error .other

def isStale (sourceTopic originalValue : String) : Except HandleError Bool :=
  match reader.loads originalValue with
  | .decodeError => .ok false
  | .valueError reason => .error (.malformed reason)
  -- what `loads` returns is asked for `get`, whatever it is
  | .raises | .notObject => .error .other
  | .object expiresAt exchangeTime =>
    if expiresAt ≠ .falsy then do
      let t ← parseField reader expiresAt
      return t ≤ reader.now
    else if "ticks.".toList.isPrefixOf sourceTopic.toList then
      if exchangeTime = .falsy then .ok false
      else do
        let t ← parseField reader exchangeTime
        return reader.now - t > r.maxTickRetryAgeSeconds
    else .ok false

def publishRetryDlq (delivered : Bool) (e : FailureEnvelope) (reason : String) :
    Except HandleError Disposal :=
  if delivered then
    .ok (.dead {
      topic := dlqTopic e.sourceTopic
      key := e.originalKey.map encodeText
      content := .notReplayed { e with failureTopic := dlqTopic e.sourceTopic } reason
        reader.replayedAt })
  else .error .other

/-- The headers of a replayed record. -/
def replayHeaders (e : FailureEnvelope) : KafkaHeaders :=
  let retryAttempt := if e.retryAttempt = 0 then 1 else e.retryAttempt
  [(retryAttemptHeader, .bytes (encode (PythonInt.str retryAttempt))),
    ("qe-retry-source-topic", .bytes (encodeText e.failureTopic)),
    ("qe-retry-event-id", .bytes (encodeText e.eventId))]

def handleEnvelope (delivered : Bool) (e : FailureEnvelope) : Except HandleError Disposal :=
  if e.sourceTopic ∉ r.sourceTopics then
    .error (.malformed ("Retry envelope source_topic '" ++ e.sourceTopic ++ "' is not owned"))
  else
    let originalValue := e.originalValue.getD ""
    if originalValue = "" then .error (.malformed "Retry envelope has no original_value")
    else do
      if ← r.isStale reader e.sourceTopic originalValue then
        publishRetryDlq reader delivered e "retry_payload_stale"
      else if delivered then
        return .replayed e.sourceTopic {
          key := e.originalKey.map encodeText
          value := some (encodeText originalValue)
          headers := replayHeaders e }
      else .error .other

def sourceTopicFromRetryTopic (retryTopicName : String) : Option String :=
  let name := retryTopicName.toList
  if ".retry".toList.isSuffixOf name then
    let sourceTopic := String.ofList (name.take (name.length - ".retry".toList.length))
    if sourceTopic ∈ r.sourceTopics then some sourceTopic else none
  else none

def publishMalformedRetryDlq (delivered : Bool) (f : FailureRecord) (reason : String) : Disposal :=
  match r.sourceTopicFromRetryTopic f.topic with
  | none => .uncommitted
  | some sourceTopic =>
    if delivered then
      .dead {
        topic := dlqTopic sourceTopic
        key := f.key
        content := .malformed f.topic reason (replacedText f.key) f.envelope }
    else .uncommitted

/-- One record of a retry topic; an undelivered produce puts nothing anywhere. -/
def pollOnce (delivered : Bool) (f : FailureRecord) : Disposal :=
  match r.handleEnvelope reader delivered f.envelope with
  | .ok d => d
  | .error (.malformed reason) => r.publishMalformedRetryDlq delivered f reason
  | .error .other => .uncommitted

end RetryReplayer

/-- A message that failed: published by the failure publisher and, unless it goes to the dead
letters at once, polled by the replayer; every produce is taken and delivered. -/
def dispose (p : FailurePublisher) (r : RetryReplayer) (reader : PayloadReader)
    (sourceTopic : String) (m : KafkaRecord) (report : FailureReport) : Disposal :=
  match p.publishRetry true sourceTopic m report with
  | none => .uncommitted
  | some f =>
    if f.topic = dlqTopic sourceTopic then .dead ⟨f.topic, f.key, .failure f.envelope⟩
    else r.pollOnce reader true f

def DeadContent.envelope : DeadContent → FailureEnvelope
  | .failure e | .notReplayed e _ _ | .malformed _ _ _ e => e

/-- The value bytes that a dead letter gives back. -/
def DeadLetter.recoveredValue (d : DeadLetter) : Bytes :=
  (d.content.envelope.originalValue.map encodeText).getD []

/-- The message is on its source topic as it was, or can be read off its dead letter. -/
def Disposal.Preserves (sourceTopic : String) (key : Option Bytes) (value : Bytes) :
    Disposal → Prop
  | .replayed topic r => topic = sourceTopic ∧ r.key = key ∧ r.value = some value
  | .dead d => d.key = key ∧ d.recoveredValue = value
  | .uncommitted => False

instance (sourceTopic : String) (key : Option Bytes) (value : Bytes) :
    DecidablePred (Disposal.Preserves sourceTopic key value)
  | .replayed _ _ => inferInstanceAs (Decidable (_ ∧ _ ∧ _))
  | .dead _ => inferInstanceAs (Decidable (_ ∧ _))
  | .uncommitted => .isFalse not_false

/-- There is no key, or one that is text and not empty. -/
def KeyKept : Option Bytes → Prop
  | none => True
  | some k => k ≠ [] ∧ IsUtf8 k

/-- The value is text; and when it goes over the retry topic, asking whether it is stale raises
nothing but what counts as malformed, and the key is kept unless it is malformed. -/
def Preservable (p : FailurePublisher) (r : RetryReplayer) (reader : PayloadReader)
    (sourceTopic : String) (key : Option Bytes) (value : Bytes) (headers : KafkaHeaders) : Prop :=
  IsUtf8 value ∧ (nextRetryAttempt headers ≤ p.maxRetryAttempts → value ≠ [] →
    match r.isStale reader sourceTopic (String.ofList (decodeReplace value)) with
    | .ok _ => KeyKept key
    | .error (.malformed _) => True
    | .error .other => False)

theorem encodeText_ofList (cs : List Char) : encodeText (String.ofList cs) = encode cs := by
  rw [encodeText, String.toList_ofList]

@[simp] theorem replacedText_nil : replacedText (some []) = none := rfl

theorem replacedText_some {b : Bytes} (h : b ≠ []) :
    replacedText (some b) = some (String.ofList (decodeReplace b)) := by
  cases b with
  | nil => exact absurd rfl h
  | cons x xs => rfl

theorem replaced_ne_empty {b : Bytes} (h : b ≠ []) : String.ofList (decodeReplace b) ≠ "" := by
  intro he
  have := congrArg String.toList he
  rw [String.toList_ofList] at this
  exact decodeReplace_ne_nil h this

/-- Text and back gives the key that was there exactly when it is kept. -/
theorem map_replacedText (key : Option Bytes) :
    (replacedText key).map encodeText = key ↔ KeyKept key := by
  cases key with
  | none => simp [replacedText, KeyKept]
  | some k =>
    by_cases hk : k = []
    · subst hk
      simp [KeyKept]
    · rw [replacedText_some hk, Option.map_some, encodeText_ofList, Option.some.injEq,
        encode_decodeReplace]
      simp [KeyKept, hk]

/-- The text of a value gives back the value exactly when it is UTF-8. -/
theorem recovered_replacedText (value : Bytes) :
    ((replacedText (some value)).map encodeText).getD [] = value ↔ IsUtf8 value := by
  by_cases hv : value = []
  · subst hv
    simp
  · rw [replacedText_some hv, Option.map_some, Option.getD_some, encodeText_ofList,
      encode_decodeReplace]

namespace RetryReplayer
variable (r : RetryReplayer) (reader : PayloadReader)

theorem sourceTopicFromRetryTopic_retryTopic {sourceTopic : String}
    (h : sourceTopic ∈ r.sourceTopics) :
    r.sourceTopicFromRetryTopic (retryTopic sourceTopic) = some sourceTopic := by
  have hl : (retryTopic sourceTopic).toList = sourceTopic.toList ++ ".retry".toList := by
    simp [retryTopic]
  rw [sourceTopicFromRetryTopic]
  simp only [hl, List.length_append, Nat.add_sub_cancel, List.take_left, String.ofList_toList, h,
    if_true]
  rw [if_pos (by simp)]

variable {r reader}

variable (reader) in
theorem handleEnvelope_empty {e : FailureEnvelope}
    (howned : e.sourceTopic ∈ r.sourceTopics) (hv : e.originalValue = none) :
    r.handleEnvelope reader true e =
      .error (.malformed "Retry envelope has no original_value") := by
  simp [handleEnvelope, howned, hv]

variable (reader) in
theorem handleEnvelope_value {e : FailureEnvelope} {text : String}
    (howned : e.sourceTopic ∈ r.sourceTopics) (hv : e.originalValue = some text) (ht : text ≠ "") :
    r.handleEnvelope reader true e =
      match r.isStale reader e.sourceTopic text with
      | .error err => .error err
      | .ok true => publishRetryDlq reader true e "retry_payload_stale"
      | .ok false => .ok (.replayed e.sourceTopic {
          key := e.originalKey.map encodeText
          value := some (encodeText text)
          headers := replayHeaders e }) := by
  rw [handleEnvelope, if_neg (not_not.mpr howned)]
  simp only [hv, Option.getD_some, ht, if_false]
  cases r.isStale reader e.sourceTopic text with
  | error err => rfl
  | ok stale => cases stale <;> rfl

theorem pollOnce_malformed {f : FailureRecord} {sourceTopic reason : String}
    (howned : sourceTopic ∈ r.sourceTopics) (htopic : f.topic = retryTopic sourceTopic)
    (h : r.handleEnvelope reader true f.envelope = .error (.malformed reason)) :
    r.pollOnce reader true f = .dead ⟨dlqTopic sourceTopic, f.key,
      .malformed f.topic reason (replacedText f.key) f.envelope⟩ := by
  rw [pollOnce, h]
  simp only [publishMalformedRetryDlq, htopic, r.sourceTopicFromRetryTopic_retryTopic howned,
    if_true]

/-- A record polled from its retry topic, for a value that is not empty. -/
theorem pollOnce_preserves {f : FailureRecord} {sourceTopic : String} {key : Option Bytes}
    {value : Bytes} (howned : sourceTopic ∈ r.sourceTopics)
    (htopic : f.topic = retryTopic sourceTopic) (hsource : f.envelope.sourceTopic = sourceTopic)
    (hkey : f.key = key) (hok : f.envelope.originalKey = replacedText key)
    (hov : f.envelope.originalValue = replacedText (some value)) (hne : value ≠ []) :
    (r.pollOnce reader true f).Preserves sourceTopic key value ↔ IsUtf8 value ∧
      match r.isStale reader sourceTopic (String.ofList (decodeReplace value)) with
      | .ok _ => KeyKept key
      | .error (.malformed _) => True
      | .error .other => False := by
  have hrec := recovered_replacedText value
  have htext := replacedText_some hne
  have hhandle := handleEnvelope_value reader (hsource ▸ howned) (hov.trans htext)
    (replaced_ne_empty hne)
  rw [hsource] at hhandle
  rcases hstale : r.isStale reader sourceTopic (String.ofList (decodeReplace value))
    with err | stale
  · rw [hstale] at hhandle
    cases err with
    | malformed reason =>
      rw [pollOnce_malformed howned htopic hhandle]
      simp only [Disposal.Preserves, DeadLetter.recoveredValue, DeadContent.envelope, hkey, hov,
        hrec, true_and, and_true]
    | other =>
      rw [pollOnce, hhandle]
      simp only [Disposal.Preserves, and_false]
  · rw [hstale] at hhandle
    cases stale with
    | true =>
      rw [pollOnce, hhandle]
      simp only [publishRetryDlq, if_true, Disposal.Preserves, DeadLetter.recoveredValue,
        DeadContent.envelope, hok, hov, hrec, map_replacedText]
      exact and_comm
    | false =>
      rw [pollOnce, hhandle]
      simp only [Disposal.Preserves, hok, map_replacedText, true_and, Option.some.injEq,
        encodeText_ofList, encode_decodeReplace]
      exact and_comm

end RetryReplayer

/-- A failed message is back on its source topic unchanged, or can be read off its dead letter,
exactly when it is preservable. -/
theorem retry_preserves_message (p : FailurePublisher) (r : RetryReplayer)
    (reader : PayloadReader) (sourceTopic : String) (howned : sourceTopic ∈ r.sourceTopics)
    (key : Option Bytes) (value : Bytes) (headers : KafkaHeaders) (report : FailureReport) :
    (dispose p r reader sourceTopic ⟨key, some value, headers⟩ report).Preserves sourceTopic key
      value ↔ Preservable p r reader sourceTopic key value headers := by
  obtain ⟨f, hf, hkey, hsource, -, hok, hov, htopic⟩ :=
    p.publishRetry_taken sourceTopic ⟨key, some value, headers⟩ report
  simp only [dispose, hf]
  by_cases hlast : nextRetryAttempt headers > p.maxRetryAttempts
  · rw [if_pos hlast] at htopic
    have hnot : ¬ nextRetryAttempt headers ≤ p.maxRetryAttempts := not_le.mpr hlast
    rw [if_pos htopic]
    simp only [Disposal.Preserves, DeadLetter.recoveredValue, DeadContent.envelope, hkey, hov,
      recovered_replacedText, Preservable, hnot, false_implies, true_and, and_true]
  · rw [if_neg hlast] at htopic
    have hle : nextRetryAttempt headers ≤ p.maxRetryAttempts := not_lt.mp hlast
    rw [if_neg (htopic ▸ retryTopic_ne_dlqTopic sourceTopic)]
    by_cases hne : value = []
    · subst hne
      have hhandle := RetryReplayer.handleEnvelope_empty reader (hsource ▸ howned) hov
      rw [RetryReplayer.pollOnce_malformed howned htopic hhandle]
      simp [Disposal.Preserves, DeadLetter.recoveredValue, DeadContent.envelope, hkey, hov,
        Preservable]
    · rw [RetryReplayer.pollOnce_preserves howned htopic hsource hkey hok hov hne]
      simp only [Preservable, hle, hne, ne_eq, not_false_eq_true, true_implies]

/-- A reader that knows an empty object and takes any other text for no JSON. -/
def emptyObjectReader : PayloadReader where
  loads text := if text = "{}" then .object .falsy .falsy else .decodeError
  parseIso _ := .valueError "Invalid isoformat string"
  now := 0

theorem retry_preserves_empty_object :
    (dispose {} ⟨["signals.approved"], 5⟩ emptyObjectReader "signals.approved"
      ⟨some [0x41], some [0x7B, 0x7D], []⟩ ⟨"timeout", "processing_failed", [], "", ""⟩).Preserves
      "signals.approved" (some [0x41]) [0x7B, 0x7D] :=
  (retry_preserves_message {} ⟨["signals.approved"], 5⟩ emptyObjectReader "signals.approved"
    (by decide) (some [0x41]) [0x7B, 0x7D] [] ⟨"timeout", "processing_failed", [], "", ""⟩).mpr
    (by
      refine ⟨by decide +kernel, fun _ _ => ?_⟩
      have hstale : RetryReplayer.isStale ⟨["signals.approved"], 5⟩ emptyObjectReader
          "signals.approved" (String.ofList (decodeReplace [0x7B, 0x7D])) = .ok false := by
        decide +kernel
      rw [hstale]
      exact ⟨by decide, by decide +kernel⟩)

/-- The byte FF comes back as the three bytes of U+FFFD. -/
theorem replay_changes_bytes :
    ¬ ∀ (p : FailurePublisher) (r : RetryReplayer) (reader : PayloadReader) (sourceTopic : String)
      (key : Option Bytes) (value : Bytes) (headers : KafkaHeaders) (report : FailureReport),
      sourceTopic ∈ r.sourceTopics →
      (dispose p r reader sourceTopic ⟨key, some value, headers⟩ report).Preserves sourceTopic key
        value := by
  intro h
  have hff := h {} ⟨["signals.approved"], 5⟩ emptyObjectReader "signals.approved" none [0xFF] []
    ⟨"timeout", "processing_failed", [], "", ""⟩ (by decide)
  revert hff
  decide +kernel

end QuantEmbrace
