import QuantEmbrace.LocalOutbox
import QuantEmbrace.OrderEvents
import QuantEmbrace.Lib.DynamoItem
import QuantEmbrace.Lib.Latch
import QuantEmbrace.Lib.TopicListener

/-! The kill switch of the execution engine: a flag in memory, set by the messages on
`risk.kill-switch`, by reads of the stored row and by local halts, and cleared by messages only. A
step runs to the next suspension. -/
namespace QuantEmbrace.SignalFlow
open DynamoItem GuardedRun IsoFormat PythonValue

/-- What the two listeners make of a message: the type and the body of one that they take. -/
def killSwitchEvent (py : Python) : Payload → Option (String × Body)
  | .malformed | .notDict => none
  | .dict body =>
    match (body.get "event_type" .null).asString.filter (· ∈ killSwitchEventTypes) with
    | none => none
    | some eventType => if validateNamed py body eventType = [] then some (eventType, body) else none

/-- `attr_string`; `shown` is the text of an attribute of another type. -/
def attrString (shown : String) (item : Item) (name default : String) : String :=
  match item.lookup name with
  | none => default
  | some (.s text) => text
  | some (.n text) => text
  | some (.bool true) => "True"
  | some (.bool false) => "False"
  | some .other => shown

/-- `attr_bool`; an attribute of another type counts as true. -/
def attrBool (py : Python) (shown : String) (item : Item) (name : String) (default : Bool) : Bool :=
  match item.lookup name with
  | some (.bool b) => b
  | some (.s text) => py.upper text ∈ ["ACTIVE", "TRUE", "1", "YES"]
  | some (.n _) | some .other => true
  | none =>
    if name = "active" ∧ attrString shown item "status" "" ≠ "" then
      py.upper (attrString shown item "status" "") = "ACTIVE"
    else default

/-- The fields of the service that the kill switch has. `reading` counts the reads of the row that
are under way. -/
structure HaltState where
  active : Bool := false
  reason : Json := .string ""
  checkedAt : ℚ := 0
  reading : ℕ := 0

/-- The response to a read of the row; one that is not there is empty. -/
inductive RowRead where
  | failed
  | item (row : Item)

inductive HaltEvent where
  | refresh (now : ℚ) (force : Bool)
  | answer (read : RowRead)
  | localHalt (reason : Json)

namespace HaltState
variable (py : Python) (shown : String) (pollInterval : ℚ) (s : HaltState)

/-- `_handle_kill_switch_activation`, before the cancel pass. -/
def handleKillSwitchActivation (reason : Json) : HaltState :=
  { s with active := true, reason := reason }

/-- `_handle_kill_switch_clear` -/
def handleKillSwitchClear : HaltState := { s with active := false, reason := .string "" }

/-- `_refresh_durable_kill_switch_state` up to the read. -/
def refresh (now : ℚ) (force : Bool) : HaltState :=
  if force = false ∧ now - s.checkedAt < pollInterval then s
  else { s with checkedAt := now, reading := s.reading + 1 }

/-- The rest of it, with the response at hand. -/
def answered : RowRead → HaltState
  | .failed => s
  | .item row =>
    if attrBool py shown row "active" false = false then s
    else
      let reason := attrString shown row "reason" "Durable kill switch active"
      if s.active then { s with reason := s.reason.orElse (.string reason) }
      else s.handleKillSwitchActivation (.string reason)

def next (s : HaltState) : HaltEvent → HaltState
  | .refresh now force => s.refresh pollInterval now force
  | .answer read =>
    if s.reading = 0 then s else { s.answered py shown read with reading := s.reading - 1 }
  | .localHalt reason => s.handleKillSwitchActivation reason

end HaltState

/-- The listener of the execution engine with what else moves the flag. -/
def executionListening (py : Python) (shown : String) (pollInterval : ℚ) (log : ℕ → Payload) :
    TopicListener.Listening Payload HaltState HaltEvent where
  log := log
  takes payload := (killSwitchEvent py payload).isSome
  act payload s :=
    match killSwitchEvent py payload with
    | none => s
    | some (eventType, body) =>
      if eventType = "KILL_SWITCH_ACTIVE" then
        s.handleKillSwitchActivation (body.get "reason" (.string "Kill switch event received"))
      else s.handleKillSwitchClear
  other e s := s.next py shown pollInterval e
  boot := {}

/-- The listener of the risk engine: the activations it asks of the switch, each with its reason
and its author. A clearing is for an operator to do. -/
def riskListening (py : Python) (log : ℕ → Payload) :
    TopicListener.Listening Payload (List (Json × String)) Unit where
  log := log
  takes payload := (killSwitchEvent py payload).isSome
  act payload calls :=
    match killSwitchEvent py payload with
    | none => calls
    | some (eventType, body) =>
      if eventType = "KILL_SWITCH_ACTIVE" then
        calls ++ [(body.get "reason" (.string "Kill switch activated via Kafka"),
          "kafka:" ++ py.str (body.get "activated_by" (.string "kafka_listener")))]
      else calls
  other _ calls := calls
  boot := []

theorem killSwitchEvent_type {py : Python} {payload : Payload} {eventType : String} {body : Body}
    (h : killSwitchEvent py payload = some (eventType, body)) :
    eventType = "KILL_SWITCH_ACTIVE" ∨ eventType = "KILL_SWITCH_CLEARED" := by
  cases payload with
  | malformed => cases h
  | notDict => cases h
  | dict received =>
    rw [killSwitchEvent] at h
    split at h
    · cases h
    · next t ht =>
      split at h
      · cases h
        have hmem : eventType ∈ killSwitchEventTypes := by
          simpa using (Option.filter_eq_some_iff.mp ht).2
        simpa [killSwitchEventTypes] using hmem
      · cases h

/-- A halt event of a publisher, as `json.loads` returns it. -/
def haltBody (publisher : KafkaOutbox.Publisher) (stamp : KafkaOutbox.Stamp) : Body :=
  (KafkaOutbox.killSwitchPayload publisher stamp).map fun field => (field.1, .string field.2)

/-- Both listeners take the halt events that the publishers leave in their outboxes. -/
theorem haltBody_taken (py : Python) (publisher : KafkaOutbox.Publisher)
    (stamp : KafkaOutbox.Stamp) : killSwitchEvent py (.dict (haltBody publisher stamp)) =
      some ("KILL_SWITCH_ACTIVE", haltBody publisher stamp) := by
  have htype : (Body.get (haltBody publisher stamp) "event_type" .null).asString =
      some "KILL_SWITCH_ACTIVE" := Json.asString_string _
  have hnames : (haltBody publisher stamp).map Prod.fst = ["event_id", "trace_id", "event_type",
      "schema_version", "source", "published_time", "reason", "activated_by"] := rfl
  have hrequired : eventRequiredFields "KILL_SWITCH_ACTIVE" = some killSwitchRequiredFields := by
    decide +kernel
  have hvalid : validateNamed py (haltBody publisher stamp) "KILL_SWITCH_ACTIVE" = [] :=
    validateNamed_eq_nil hrequired (by decide) (Json.asString_string _) htype
      (by rw [hnames]; decide +kernel)
  rw [killSwitchEvent, htype, Option.filter_some, if_pos (by decide)]
  dsimp only
  rw [if_pos hvalid]

section Flag
open TopicListener TopicListener.World
variable (py : Python) (shown : String) (pollInterval : ℚ) (log : ℕ → Payload) {base : ℕ}

/-- The message that the listener takes next is of the type. -/
def Takes (eventType : String) (w : TopicListener.World base HaltState) : Prop :=
  w.handling = false ∧
    ∃ body, killSwitchEvent py (log w.offsets.position) = some (eventType, body)

/-- An activation is taken, a read finds the row active, or the service halts by itself. -/
def Halts (w : TopicListener.World base HaltState) : TopicListener.Event HaltEvent → Prop
  | .receive _ _ => Takes py log "KILL_SWITCH_ACTIVE" w
  | .other (.answer (.item row)) =>
    w.state.reading ≠ 0 ∧ attrBool py shown row "active" false = true
  | .other (.localHalt _) => True
  | _ => False

/-- A clearing is taken, or the process starts anew. -/
def Resumes (w : TopicListener.World base HaltState) : TopicListener.Event HaltEvent → Prop
  | .receive _ _ => Takes py log "KILL_SWITCH_CLEARED" w
  | .restart => True
  | _ => False

variable {py shown pollInterval log} {w : TopicListener.World base HaltState}

theorem receive_takes {eventType : String} {body : Body} (routed committed : Bool)
    (hfree : w.handling = false)
    (h : killSwitchEvent py (log w.offsets.position) = some (eventType, body)) :
    (w.next (executionListening py shown pollInterval log) (.receive routed committed)).state =
      if eventType = "KILL_SWITCH_ACTIVE" then w.state.handleKillSwitchActivation
        (body.get "reason" (.string "Kill switch event received"))
      else w.state.handleKillSwitchClear := by
  simp [TopicListener.World.next, hfree, executionListening, h]

theorem receive_refused (routed committed : Bool)
    (h : killSwitchEvent py (log w.offsets.position) = none) :
    (w.next (executionListening py shown pollInterval log) (.receive routed committed)).state =
      w.state := by
  rw [TopicListener.World.next]
  split
  · rfl
  · simp [executionListening, h, TopicListener.World.pass]

/-- A response leaves the flag on, or brings it on. -/
theorem answered_active (s : HaltState) (row : Item) :
    (s.answered py shown (.item row)).active =
      (s.active || attrBool py shown row "active" false) := by
  rw [HaltState.answered]
  cases hrow : attrBool py shown row "active" false with
  | false => simp
  | true => cases s.active <;> simp [HaltState.handleKillSwitchActivation]

theorem haltFlag : Latch.Flag (next (executionListening py shown pollInterval log))
    (fun w : TopicListener.World base HaltState => w.state.active = true) (Halts py shown log)
    (Resumes py log) where
  set w e h := by
    cases e with
    | receive routed committed =>
      obtain ⟨hfree, body, hbody⟩ := h
      rw [receive_takes routed committed hfree hbody]
      rfl
    | done committed => cases h
    | restart => cases h
    | other e =>
      cases e with
      | refresh now force => cases h
      | localHalt reason => rfl
      | answer read =>
        cases read with
        | failed => cases h
        | item row =>
          change (HaltState.next py shown pollInterval w.state _).active = true
          rw [HaltState.next, if_neg h.1]
          change (w.state.answered py shown (.item row)).active = true
          rw [answered_active, h.2, Bool.or_true]
  clear w e h := by
    cases e with
    | receive routed committed =>
      obtain ⟨hfree, body, hbody⟩ := h
      rw [receive_takes routed committed hfree hbody]
      simp [HaltState.handleKillSwitchClear]
    | restart => simp [TopicListener.World.next, executionListening]
    | done committed => cases h
    | other e => cases h
  keep w e hset hclear := by
    cases e with
    | receive routed committed =>
      cases hevent : killSwitchEvent py (log w.offsets.position) with
      | none => rw [receive_refused routed committed hevent]
      | some event =>
        have hbusy : w.handling = true := by
          by_contra hfree
          rw [Bool.not_eq_true] at hfree
          obtain heq | heq := killSwitchEvent_type hevent
          · exact hset ⟨hfree, event.2, hevent.trans (by rw [← heq])⟩
          · exact hclear ⟨hfree, event.2, hevent.trans (by rw [← heq])⟩
        rw [TopicListener.World.next, if_pos hbusy]
    | done committed =>
      rw [TopicListener.World.next]
      split
      · rfl
      · rfl
    | restart => exact absurd trivial hclear
    | other e =>
      cases e with
      | refresh now force =>
        change (HaltState.refresh _ _ _ _).active = true ↔ _
        rw [HaltState.refresh]
        split <;> rfl
      | localHalt reason => exact absurd trivial hset
      | answer read =>
        change (HaltState.next py shown pollInterval w.state _).active = true ↔ _
        rw [HaltState.next]
        split
        · rfl
        · next hreading =>
          cases read with
          | failed => rfl
          | item row =>
            change (w.state.answered py shown (.item row)).active = true ↔ _
            have hrow : attrBool py shown row "active" false = false := by
              rw [← Bool.not_eq_true]
              exact fun hrow => hset ⟨hreading, hrow⟩
            rw [answered_active, hrow, Bool.or_false]

/-- Whatever interleaves, the flag is on exactly if since the last clearing that was taken and the
last restart an activation was taken, a read found the row active, or the service halted by
itself; neither listener commits a message of the kill switch before acting on it; and the halt
events of the publishers are such messages. -/
theorem execution_halt_exact (py : Python) (shown : String) (pollInterval : ℚ) (log : ℕ → Payload)
    (base : ℕ) (es : List (TopicListener.Event HaltEvent))
    (es' : List (TopicListener.Event Unit)) :
    let l := executionListening py shown pollInterval log
    let r := riskListening py log
    ((es.foldl (next l) (start base l)).state.active = true ↔
      ∃ pre e post, es = pre ++ e :: post ∧
        Halts py shown log (pre.foldl (next l) (start base l)) e ∧
        StepsMeet (next l) (fun w e => ¬ Resumes py log w e)
          (next l (pre.foldl (next l) (start base l)) e) post) ∧
    (∀ m, base ≤ m → (killSwitchEvent py (log m)).isSome = true →
      (m < (es.foldl (next l) (start base l)).offsets.committed →
        m ∈ (es.foldl (next l) (start base l)).applied) ∧
      (m < (es'.foldl (next r) (start base r)).offsets.committed →
        m ∈ (es'.foldl (next r) (start base r)).applied)) ∧
    ∀ publisher stamp, killSwitchEvent py (.dict (haltBody publisher stamp)) =
      some ("KILL_SWITCH_ACTIVE", haltBody publisher stamp) := by
  intro l r
  refine ⟨?_, ?_, haltBody_taken py⟩
  · rw [haltFlag.on_iff (start base l) es]
    have hoff : ¬ (start base l).state.active = true := by simp [start, l, executionListening]
    exact or_iff_right fun h => hoff h.1
  · intro m hbase htakes
    exact ⟨applied_before_committed base l es hbase htakes,
      applied_before_committed base r es' hbase htakes⟩

end Flag

end QuantEmbrace.SignalFlow
