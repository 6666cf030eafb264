import QuantEmbrace.Lib.GuardedRun
import QuantEmbrace.Lib.Journal
import QuantEmbrace.Lib.KeyedTable
import QuantEmbrace.TickPublisher

/-! The outbox of the tick publisher: rows that are written before a tick is produced, deleted when
it is delivered, and replayed when it is not. -/
namespace QuantEmbrace.DataIngestion
open GuardedRun Journal

/-- A row under the key of an event; a retry mark on a missing row leaves one without an event. -/
structure OutboxRow where
  key : String
  eventId : Option String := none
  topic : Option String := none
  messageKey : Option String := none
  event : Option TickEvent := none
  publishedTime : Option ℚ := none
  exchangeTime : Option ℚ := none
  attempts : ℕ := 0
  lastError : Option String := none
  replayAfter : ℤ := 0
  expiresAt : Option ℤ := none
  deriving DecidableEq, Repr

/-- `_OUTBOX_DEFAULT_REPLAY_AFTER_SECONDS` -/
def replayAfterSeconds : ℤ := 35

/-- `_OUTBOX_DEFAULT_TTL_SECONDS` -/
def ttlSeconds : ℤ := 300

/-- `_OUTBOX_DEFAULT_MAX_REPLAY_AGE_SECONDS` -/
def defaultMaxReplayAge : ℚ := 5

/-- `_put_outbox_event` -/
def outboxRow (event : TickEvent) (now : ℚ) : OutboxRow where
  key := event.eventId
  eventId := some event.eventId
  topic := some (topicOf event.market)
  messageKey := some event.instrumentId
  event := some event
  publishedTime := some event.publishedTime
  exchangeTime := some event.exchangeTime
  replayAfter := ⌊now⌋ + replayAfterSeconds
  expiresAt := some (⌊now⌋ + ttlSeconds)

/-- A call of the store that has been issued and not executed yet. -/
inductive StoreCall where
  | delete (id : String)
  | markRetryable (id reason : String) (replayAfter : ℤ)
  deriving DecidableEq, Repr

def StoreCall.id : StoreCall → String
  | .delete id => id
  | .markRetryable id _ _ => id

/-- `update_item`: without a condition, so a row that is missing comes into being. -/
def OutboxRow.marked (reason : String) (replayAfter : ℤ) (row : OutboxRow) : OutboxRow :=
  { row with
    attempts := row.attempts + 1
    lastError := some (String.ofList (reason.toList.take 500))
    replayAfter := replayAfter }

/-- `_is_outbox_event_stale` -/
def OutboxRow.Stale (maxReplayAge now : ℚ) (row : OutboxRow) : Prop :=
  ∀ time ∈ row.publishedTime.or row.exchangeTime, maxReplayAge < now - time

instance (maxReplayAge now : ℚ) (row : OutboxRow) : Decidable (row.Stale maxReplayAge now) :=
  inferInstanceAs
    (Decidable (∀ time ∈ row.publishedTime.or row.exchangeTime, maxReplayAge < now - time))

/-- What a replay pass does with a row. -/
inductive Disposition where
  | skip
  | drop (id : String)
  | replay (id : String)
  deriving DecidableEq, Repr

def OutboxRow.disposition (maxReplayAge now : ℚ) (row : OutboxRow) : Disposition :=
  match row.eventId with
  | none => .skip
  | some id =>
    if row.topic = none ∨ row.messageKey = none ∨ row.event = none then .drop id
    else if row.Stale maxReplayAge now then .drop id
    else .replay id

/-- A row that has the id of its event has the rest of it. -/
def OutboxRow.Sound (row : OutboxRow) : Prop :=
  row.eventId ≠ none → row.topic ≠ none ∧ row.messageKey ≠ none ∧ row.event ≠ none

theorem outboxRow_sound (event : TickEvent) (now : ℚ) : (outboxRow event now).Sound := by
  simp [OutboxRow.Sound, outboxRow]

theorem OutboxRow.Sound.marked {row : OutboxRow} (h : row.Sound) (reason : String)
    (replayAfter : ℤ) : (row.marked reason replayAfter).Sound := h

/-- A sound row is dropped for its age only. -/
theorem OutboxRow.Sound.stale {row : OutboxRow} {maxReplayAge now : ℚ} {id : String}
    (h : row.Sound) (hdrop : row.disposition maxReplayAge now = .drop id) :
    row.eventId = some id ∧ row.Stale maxReplayAge now := by
  rw [disposition] at hdrop
  split at hdrop
  · cases hdrop
  · next id' heq =>
    obtain ⟨htopic, hkey, hevent⟩ := h (by simp [heq])
    rw [if_neg (by simp [htopic, hkey, hevent])] at hdrop
    split at hdrop
    · next hstale =>
      cases hdrop
      exact ⟨heq, hstale⟩
    · cases hdrop

/-- A row that has become due is older than any replay age below the delay, less a second. -/
theorem stale_when_due {event : TickEvent} {now clock maxReplayAge : ℚ}
    (hpublished : event.publishedTime ≤ now) (hage : maxReplayAge < 34)
    (hdue : (outboxRow event now).replayAfter ≤ ⌊clock⌋) :
    (outboxRow event now).disposition maxReplayAge clock = .drop event.eventId := by
  have hstale : (outboxRow event now).Stale maxReplayAge clock := by
    intro time htime
    cases htime
    have hfloor : (⌊now⌋ : ℚ) + 35 ≤ ⌊clock⌋ := by exact_mod_cast hdue
    have hnow := Int.lt_floor_add_one now
    have hclock := Int.floor_le clock
    linarith
  rw [OutboxRow.disposition]
  simp only [outboxRow, reduceCtorEq, or_self, if_false]
  exact if_pos hstale

/-- What is recorded of the events: that a call of `produce` was accepted, that a delivery was
acknowledged or a call or a delivery failed, that a row was dropped as stale. -/
inductive Happening where
  | stored (id : String)
  | produced (id : String)
  | acknowledged (id : String)
  | failed (id : String)
  | dropped (id : String)
  deriving DecidableEq, Repr

def Happening.id : Happening → String
  | .stored id | .produced id | .acknowledged id | .failed id | .dropped id => id

/-- A pass with the rows that it has still to look at, and the retry marks it will issue. -/
structure ReplayPass where
  items : List OutboxRow
  marks : List (String × String)
  deriving DecidableEq, Repr

/-- The store, the publisher, the producer's queue, and the record, newest first. `ready` and
`paused` are the tasks that will call `produce` for the first and for the second time. -/
structure Outbox where
  clock : ℚ
  rows : KeyedTable OutboxRow.key
  calls : List StoreCall := []
  ready : List String := []
  paused : List String := []
  inFlight : List String := []
  pass : Option ReplayPass := none
  log : List Happening := []

inductive OutboxStep where
  | wait (seconds : ℚ)
  | stored (event : TickEvent) (delay : ℚ)
  | produce (id : String) (outcome : ProduceOutcome)
  | produceAgain (id : String) (outcome : ProduceOutcome)
  | acknowledged (id : String)
  | failed (id error : String)
  | complete (call : StoreCall)
  | query (maxRecords : ℕ)
  | replayItem (accepted : Bool)
  | mark
  deriving DecidableEq, Repr

namespace Outbox

def record (h : Happening) (s : Outbox) : Outbox := { s with log := h :: s.log }

def issue (calls : List StoreCall) (s : Outbox) : Outbox := { s with calls := s.calls ++ calls }

/-- `_mark_outbox_retryable`, up to the call of the store. -/
def markRetryable (id reason : String) (s : Outbox) : Outbox :=
  issue [.markRetryable id reason (⌊s.clock⌋ + replayAfterSeconds)] s

/-- The message is in the queue of the producer. -/
def enqueue (id : String) (s : Outbox) : Outbox :=
  record (.produced id) { s with inFlight := id :: s.inFlight }

/-- A call of `produce`, or a delivery, fails. -/
def fail (id reason : String) (s : Outbox) : Outbox :=
  markRetryable id reason (record (.failed id) s)

/-- The store executes a call. -/
def execute (s : Outbox) : StoreCall → Outbox
  | .delete id => { s with rows := s.rows.erase id }
  | .markRetryable id reason replayAfter =>
    { s with rows := s.rows.put (((s.rows.get id).getD { key := id }).marked reason replayAfter) }

/-- The page of a query: the first rows in the order of the keys, less those that are not due. -/
def page (maxRecords : ℕ) (s : Outbox) : List OutboxRow :=
  ((s.rows.rows.mergeSort fun r r' => r.key ≤ r'.key).take maxRecords).filter fun row =>
    row.replayAfter ≤ ⌊s.clock⌋

/-- `publish` begins with the write to the outbox, under an id that is new. -/
def store (event : TickEvent) (delay : ℚ) (s : Outbox) : Outbox :=
  let issued := s.clock - max 0 delay
  if ∀ h ∈ s.log, h.id ≠ event.eventId then
    match s.rows.get event.eventId with
    | some _ => s
    | none => record (.stored event.eventId) { s with
        rows := s.rows.putNew (outboxRow { event with publishedTime := issued } issued)
        ready := event.eventId :: s.ready }
  else s

/-- One row of a replay pass. -/
def replayItem (maxReplayAge : ℚ) (accepted : Bool) (s : Outbox) : Outbox :=
  match s.pass with
  | some ⟨row :: items, marks⟩ =>
    match row.disposition maxReplayAge s.clock with
    | .skip => { s with pass := some ⟨items, marks⟩ }
    | .drop id => issue [.delete id] (record (.dropped id) { s with pass := some ⟨items, marks⟩ })
    | .replay id =>
      if accepted = true then
        enqueue id { s with pass := some ⟨items, marks ++ [(id, "replay_inflight")]⟩ }
      else
        record (.failed id)
          { s with pass := some ⟨items, marks ++ [(id, "replay_produce_failed")]⟩ }
  | _ => s

def step (maxReplayAge : ℚ) (s : Outbox) : OutboxStep → Outbox
  | .wait seconds => { s with clock := s.clock + max 0 seconds }
  | .stored event delay => store event delay s
  | .produce id outcome =>
    if id ∈ s.ready then
      let s := { s with ready := s.ready.erase id }
      match outcome with
      | .accepted => enqueue id s
      | .bufferFull => { s with paused := id :: s.paused }
      | .kafkaError => fail id "kafka_exception" s
    else s
  | .produceAgain id outcome =>
    if id ∈ s.paused then
      let s := { s with paused := s.paused.erase id }
      if outcome = .accepted then enqueue id s else fail id "buffer_full_retry_failed" s
    else s
  | .acknowledged id =>
    if id ∈ s.inFlight then
      issue [.delete id] (record (.acknowledged id) { s with inFlight := s.inFlight.erase id })
    else s
  | .failed id error =>
    if id ∈ s.inFlight then fail id error { s with inFlight := s.inFlight.erase id } else s
  | .complete call =>
    if call ∈ s.calls then execute { s with calls := s.calls.erase call } call else s
  | .query maxRecords =>
    if s.pass = none then { s with pass := some ⟨page maxRecords s, []⟩ } else s
  | .replayItem accepted => replayItem maxReplayAge accepted s
  | .mark =>
    match s.pass with
    | some ⟨[], marks⟩ => issue (marks.map fun m =>
        .markRetryable m.1 m.2 (⌊s.clock⌋ + replayAfterSeconds)) { s with pass := none }
    | _ => s

/-- A dropped event that had failed was produced again since. -/
def Justifies (older : List Happening) (h : Happening) : Prop :=
  ∀ id, h = .dropped id → .failed id ∈ older → After (.produced id) (.failed id) older

/-- An event that failed is produced again before its row is dropped. -/
def Recovered (s : Outbox) : Prop := Justified Justifies s.log

/-- An acknowledged event has no row once its calls are executed. -/
def NoResidue (s : Outbox) : Prop :=
  ∀ id, .acknowledged id ∈ s.log → (∀ call ∈ s.calls, call.id ≠ id) → s.rows.get id = none

/-- The row that the replay pass looks at next. -/
def nextRow (s : Outbox) : Option OutboxRow := s.pass.bind fun pass => pass.items.head?

/-- A pass finds the row of an event that failed, and was not produced again, young enough. -/
def ReplayInTime (maxReplayAge : ℚ) (s : Outbox) : Prop :=
  ∀ row ∈ s.nextRow, ∀ id ∈ row.eventId, .failed id ∈ s.log →
    ¬ After (.produced id) (.failed id) s.log → ¬ row.Stale maxReplayAge s.clock

instance (maxReplayAge : ℚ) (s : Outbox) : Decidable (s.ReplayInTime maxReplayAge) :=
  inferInstanceAs (Decidable (∀ row ∈ s.nextRow, ∀ id ∈ row.eventId, .failed id ∈ s.log →
    ¬ After (.produced id) (.failed id) s.log → ¬ row.Stale maxReplayAge s.clock))

/-- A replay pass looks at the row of an event that failed, and was not produced again, before the
row is too old; a retry mark of an acknowledged event is executed before the row is deleted. -/
def InTime (maxReplayAge : ℚ) (s : Outbox) : OutboxStep → Prop
  | .replayItem _ => s.ReplayInTime maxReplayAge
  | .complete (.markRetryable id _ _) => .acknowledged id ∈ s.log → .delete id ∈ s.calls
  | _ => True

instance (maxReplayAge : ℚ) (s : Outbox) : (a : OutboxStep) → Decidable (InTime maxReplayAge s a)
  | .replayItem _ => inferInstanceAs (Decidable (s.ReplayInTime maxReplayAge))
  | .complete (.markRetryable id _ _) =>
    inferInstanceAs (Decidable (.acknowledged id ∈ s.log → .delete id ∈ s.calls))
  | .complete (.delete _) | .wait _ | .stored _ _ | .produce _ _ | .produceAgain _ _
  | .acknowledged _ | .failed _ _ | .query _ | .mark => .isTrue trivial

/-- What is kept as long as all is in time. -/
structure Kept (s : Outbox) : Prop where
  rows : ∀ row ∈ s.rows.rows, row.Sound
  items : ∀ pass ∈ s.pass, ∀ row ∈ pass.items, row.Sound
  recovered : Recovered s
  deleted : ∀ id, .acknowledged id ∈ s.log → .delete id ∈ s.calls ∨ s.rows.get id = none

variable {s : Outbox} {maxReplayAge : ℚ} {id : String}

theorem Kept.noResidue (h : Kept s) : NoResidue s := by
  intro id hacked hcalls
  obtain hpending | hgone := h.deleted id hacked
  · exact absurd rfl (hcalls _ hpending)
  · exact hgone

theorem Kept.tasks (h : Kept s) (ready paused inFlight : List String) :
    Kept { s with ready := ready, paused := paused, inFlight := inFlight } := { h with }

theorem Kept.issue (h : Kept s) (calls : List StoreCall) : Kept (issue calls s) where
  rows := h.rows
  items := h.items
  recovered := h.recovered
  deleted id hacked := (h.deleted id hacked).imp_left (List.mem_append_left _)

theorem Kept.record {happening : Happening} (h : Kept s) (hdropped : Justifies s.log happening)
    (hacked : ∀ id, happening ≠ .acknowledged id) : Kept (record happening s) where
  rows := h.rows
  items := h.items
  recovered := justified_cons.mpr ⟨hdropped, h.recovered⟩
  deleted id hid := by
    obtain heq | hid := List.mem_cons.mp hid
    · exact absurd heq.symm (hacked id)
    · exact h.deleted id hid

theorem Kept.enqueue (h : Kept s) (id : String) : Kept (enqueue id s) :=
  Kept.record { h with } (fun _ heq => by cases heq) (fun _ heq => by cases heq)

theorem Kept.fail (h : Kept s) (id reason : String) : Kept (fail id reason s) :=
  (h.record (fun _ heq => by cases heq) (fun _ heq => by cases heq)).issue _

/-- An acknowledgement asks for the deletion of the row. -/
theorem Kept.acknowledge (h : Kept s) (id : String) :
    Kept (Outbox.issue [.delete id] (Outbox.record (.acknowledged id) s)) where
  rows := h.rows
  items := h.items
  recovered := justified_cons.mpr ⟨nofun, h.recovered⟩
  deleted other hacked := by
    obtain heq | hacked := List.mem_cons.mp hacked
    · cases heq
      exact .inl (List.mem_append_right _ (List.mem_singleton_self _))
    · exact (h.deleted other hacked).imp_left (List.mem_append_left _)

theorem Kept.store (h : Kept s) (event : TickEvent) (delay : ℚ) : Kept (store event delay s) := by
  rw [Outbox.store]
  split
  · next hnew =>
    split
    · exact h
    · refine Kept.record ?_ (fun _ heq => by cases heq) (fun _ heq => by cases heq)
      exact {
        rows := fun row hrow => (KeyedTable.mem_putNew hrow).elim (h.rows row)
          fun heq => heq ▸ outboxRow_sound _ _
        items := h.items
        recovered := h.recovered
        deleted := fun id hacked => (h.deleted id hacked).imp_right fun hgone => by
          have hne (now : ℚ) : id ≠ (outboxRow { event with publishedTime := now } now).key :=
            hnew _ hacked
          exact (KeyedTable.get_putNew_of_ne (hne _) s.rows).trans hgone }
  · exact h

theorem Kept.execute {call : StoreCall} (h : Kept s)
    (hturn : InTime maxReplayAge s (.complete call)) :
    Kept (execute { s with calls := s.calls.erase call } call) := by
  cases call with
  | delete id =>
    exact {
      rows := fun row hrow => h.rows row (KeyedTable.mem_erase.mp hrow).1
      items := h.items
      recovered := h.recovered
      deleted := by
        intro other hacked
        by_cases hother : other = id
        · rw [hother]
          exact .inr (s.rows.get_erase_self id)
        · refine (h.deleted other hacked).imp (fun hpending => ?_) fun hgone => ?_
          · exact (List.mem_erase_of_ne (by simpa using hother)).mpr hpending
          · rwa [Outbox.execute, KeyedTable.get_erase_of_ne hother] }
  | markRetryable id reason replayAfter =>
    have hold : ((s.rows.get id).getD { key := id }).Sound := by
      cases hrow : s.rows.get id with
      | none => exact fun hid => absurd rfl hid
      | some row => exact h.rows row (KeyedTable.get_eq_some_iff.mp hrow).1
    have hkey : (((s.rows.get id).getD { key := id }).marked reason replayAfter).key = id := by
      cases hrow : s.rows.get id with
      | none => rfl
      | some row =>
        change row.key = id
        exact KeyedTable.key_of_get hrow
    exact {
      rows := by
        intro row hrow
        obtain hrow | rfl := KeyedTable.mem_putNew hrow
        · exact h.rows row (KeyedTable.mem_erase.mp hrow).1
        · exact hold.marked reason replayAfter
      items := h.items
      recovered := h.recovered
      deleted := by
        intro other hacked
        by_cases hother : other = id
        · subst hother
          exact .inl ((List.mem_erase_of_ne (by simp)).mpr (hturn hacked))
        · refine (h.deleted other hacked).imp (fun hpending => ?_) fun hgone => ?_
          · exact (List.mem_erase_of_ne (by simp)).mpr hpending
          · rwa [Outbox.execute, KeyedTable.get_put_of_ne (by rwa [hkey])] }

/-- A pass that goes on to its next row. -/
theorem Kept.advance {pass : ReplayPass} (h : Kept s) (hitems : ∀ row ∈ pass.items, row.Sound) :
    Kept { s with pass := some pass } where
  rows := h.rows
  items p hp := by
    cases hp
    exact hitems
  recovered := h.recovered
  deleted := h.deleted

theorem Kept.replayItem {accepted : Bool} (h : Kept s)
    (hturn : InTime maxReplayAge s (.replayItem accepted)) :
    Kept (replayItem maxReplayAge accepted s) := by
  rw [Outbox.replayItem]
  split
  · next row items marks hpass =>
    have hitems : ∀ r ∈ row :: items, r.Sound := h.items _ hpass
    obtain ⟨hrow, hitems⟩ := List.forall_mem_cons.mp hitems
    split
    · exact h.advance hitems
    · next id hdrop =>
      obtain ⟨hid, hstale⟩ := hrow.stale hdrop
      refine Kept.issue (Kept.record (h.advance hitems) ?_ (fun _ heq => by cases heq)) _
      intro dropped heq hfailed
      cases heq
      by_contra hagain
      exact hturn row (by rw [nextRow, hpass]; rfl) id hid hfailed hagain hstale
    · split
      · exact (h.advance hitems).enqueue _
      · exact (h.advance hitems).record (fun _ heq => by cases heq) (fun _ heq => by cases heq)
  · exact h

theorem Kept.step {a : OutboxStep} (h : Kept s) (hturn : InTime maxReplayAge s a) :
    Kept (step maxReplayAge s a) := by
  cases a with
  | wait seconds => exact { h with }
  | stored event delay => exact h.store event delay
  | produce id outcome =>
    rw [Outbox.step]
    split
    · cases outcome with
      | accepted => exact (h.tasks _ _ _).enqueue id
      | bufferFull => exact h.tasks _ _ _
      | kafkaError => exact (h.tasks _ _ _).fail id _
    · exact h
  | produceAgain id outcome =>
    rw [Outbox.step]
    split
    · split
      · exact (h.tasks _ _ _).enqueue id
      · exact (h.tasks _ _ _).fail id _
    · exact h
  | acknowledged id =>
    rw [Outbox.step]
    split
    · exact (h.tasks _ _ _).acknowledge id
    · exact h
  | failed id error =>
    rw [Outbox.step]
    split
    · exact (h.tasks _ _ _).fail id error
    · exact h
  | complete call =>
    rw [Outbox.step]
    split
    · exact h.execute hturn
    · exact h
  | query maxRecords =>
    rw [Outbox.step]
    split
    · refine h.advance fun row hrow => h.rows row ?_
      have hpage := List.mem_of_mem_take (List.mem_filter.mp hrow).1
      exact List.mem_mergeSort.mp hpage
    · exact h
  | replayItem accepted => exact h.replayItem hturn
  | mark =>
    rw [Outbox.step]
    split
    · refine Kept.issue (s := { s with pass := none }) ?_ _
      exact { h with items := fun p hp => by cases hp }
    · exact h

/-- As long as replay passes come in time for the failed events, and retry marks before the rows
are deleted: an event that failed is produced again before its row is dropped, and an acknowledged
event leaves no row. -/
theorem outbox_recovers (maxReplayAge clock : ℚ) (rows : KeyedTable OutboxRow.key)
    (hrows : ∀ row ∈ rows.rows, row.Sound) (actions : List OutboxStep)
    (h : StepsMeet (step maxReplayAge) (InTime maxReplayAge) { clock := clock, rows := rows }
      actions) :
    AlongRun (step maxReplayAge) (fun s => Recovered s ∧ NoResidue s)
      { clock := clock, rows := rows } actions := by
  intro pre hpre
  have hstart : Kept { clock := clock, rows := rows } := {
    rows := hrows
    items := fun pass hpass => by cases hpass
    recovered := justified_nil
    deleted := fun id hacked => by simp at hacked }
  have hkept := h.invariant (fun s a hs hturn => hs.step hturn) hstart pre hpre
  exact ⟨hkept.recovered, hkept.noResidue⟩

def sampleEvent : TickEvent := buildEvent
  { symbol := "INFY", market := .nse, lastPrice := 100, bid := none, ask := none, volume := 10,
    timestamp := 0 } ⟨"a", "t", 0, "20260518"⟩ 1

/-- With the default age, a tick that fails after half a minute is dropped by the first pass that
finds it due. With a larger one, the mark of a replay that is acknowledged at once is executed
after the deletion and leaves a row without an event. -/
theorem dropped_unproduced_and_residue :
    (¬ ∀ (maxReplayAge : ℚ) (actions : List OutboxStep),
      AlongRun (step maxReplayAge) Recovered { clock := 0, rows := .empty } actions) ∧
    ¬ ∀ (maxReplayAge : ℚ) (actions : List OutboxStep),
      AlongRun (step maxReplayAge) NoResidue { clock := 0, rows := .empty } actions := by
  constructor
  · intro h
    let actions : List OutboxStep := [.stored sampleEvent 0, .produce "a" .accepted, .wait 30,
      .failed "a" "timeout", .complete (.markRetryable "a" "timeout" 65), .wait 35, .query 100,
      .replayItem true]
    have hlog : (actions.foldl (step defaultMaxReplayAge) { clock := 0, rows := .empty }).log =
        [.dropped "a", .failed "a", .produced "a", .stored "a"] := by decide +kernel
    have hrun : Recovered (actions.foldl _ _) := (h defaultMaxReplayAge actions).last
    rw [Recovered, hlog] at hrun
    exact absurd (hrun _ _ (List.suffix_refl _) "a" rfl (by simp)) (by decide)
  · intro h
    let actions : List OutboxStep := [.stored sampleEvent 0, .produce "a" .accepted,
      .failed "a" "timeout", .complete (.markRetryable "a" "timeout" 35), .wait 36, .query 100,
      .replayItem true, .acknowledged "a", .complete (.delete "a"), .mark,
      .complete (.markRetryable "a" "replay_inflight" 71)]
    have hlog : .acknowledged "a" ∈
        (actions.foldl (step 60) { clock := 0, rows := .empty }).log := by decide +kernel
    have hcalls : (actions.foldl (step 60) { clock := 0, rows := .empty }).calls = [] := by
      decide +kernel
    have hrow : ((actions.foldl (step 60) { clock := 0, rows := .empty }).rows.get "a").isSome := by
      decide +kernel
    have hrun : NoResidue (actions.foldl _ _) := (h 60 actions).last
    rw [hrun "a" hlog (by simp [hcalls])] at hrow
    cases hrow

/-- A tick that fails, is replayed before it is a minute old, and is deleted after the mark. -/
theorem outbox_recovers_replayed : AlongRun (step 60) (fun s => Recovered s ∧ NoResidue s)
    { clock := 0, rows := .empty } [.stored sampleEvent 0, .produce "a" .accepted,
      .failed "a" "timeout", .complete (.markRetryable "a" "timeout" 35), .wait 36, .query 100,
      .replayItem true, .mark, .acknowledged "a",
      .complete (.markRetryable "a" "replay_inflight" 71), .complete (.delete "a")] := by
  refine outbox_recovers 60 0 .empty (fun row hrow => by cases hrow) _ ?_
  decide +kernel

end Outbox
end QuantEmbrace.DataIngestion
