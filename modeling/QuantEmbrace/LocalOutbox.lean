import QuantEmbrace.Lib.GuardedRun
import QuantEmbrace.Lib.Journal

/-! The halt of a Kafka publisher and the local outbox that buffers its event: failures that are
counted, rows that wait in a file, and the drain that produces them. -/
namespace QuantEmbrace.KafkaOutbox
open GuardedRun Journal

/-- The fields of an event, in order. -/
abbrev Payload : Type := List (String × String)

structure Row where
  id : ℕ
  topic : String
  key : String
  value : Payload
  enqueued : ℤ
  deriving DecidableEq, Repr

/-- The file: a row comes after the ones of smaller identifiers, and none is given twice. -/
structure OutboxFile where
  rows : List Row
  nextId : ℕ
  ordered : rows.Pairwise fun a b => a.id < b.id
  fresh : ∀ r ∈ rows, r.id < nextId

namespace OutboxFile

def insert (f : OutboxFile) (topic key : String) (value : Payload) (now : ℤ) : OutboxFile where
  rows := f.rows ++ [⟨f.nextId, topic, key, value, now⟩]
  nextId := f.nextId + 1
  ordered := by
    refine List.pairwise_append.mpr ⟨f.ordered, List.pairwise_singleton _ _, ?_⟩
    intro a ha b hb
    obtain rfl := List.mem_singleton.mp hb
    exact f.fresh a ha
  fresh r hr := by
    obtain hr | hr := List.mem_append.mp hr
    · exact (f.fresh r hr).trans (Nat.lt_succ_self _)
    · obtain rfl := List.mem_singleton.mp hr
      exact Nat.lt_succ_self _

def delete (f : OutboxFile) (id : ℕ) : OutboxFile where
  rows := f.rows.filter fun r => r.id ≠ id
  nextId := f.nextId
  ordered := f.ordered.filter _
  fresh r hr := f.fresh r (List.mem_of_mem_filter hr)

variable {f : OutboxFile} {row : Row} {rest : List Row}

theorem head_le (h : f.rows = row :: rest) : ∀ r ∈ f.rows, row.id ≤ r.id := by
  have hordered := f.ordered
  rw [h, List.pairwise_cons] at hordered
  rw [h]
  intro r hr
  obtain rfl | hr := List.mem_cons.mp hr
  · exact le_refl _
  · exact (hordered.1 r hr).le

/-- The first row is the only one that goes with its identifier. -/
theorem delete_head (h : f.rows = row :: rest) : (f.delete row.id).rows = rest := by
  have hordered := f.ordered
  rw [h, List.pairwise_cons] at hordered
  change f.rows.filter _ = rest
  rw [h, List.filter_cons_of_neg (by simp)]
  refine List.filter_eq_self.mpr fun r hr => ?_
  simpa using (hordered.1 r hr).ne'

end OutboxFile

/-- The two publishers -/
inductive Publisher where
  | signal
  | approved
  deriving DecidableEq, Repr

def Publisher.source : Publisher → String
  | .signal => "strategy_engine"
  | .approved => "risk_engine"

def Publisher.activatedBy : Publisher → String
  | .signal => "kafka_signal_publisher"
  | .approved => "kafka_approved_publisher"

structure Config where
  publisher : Publisher
  /-- `on_halt` was given. -/
  hasCallback : Bool := true
  threshold : ℤ := 3
  maxEntries : ℤ := 1000

/-- The identifiers and the time of a new event -/
structure Stamp where
  eventId : String
  traceId : String
  publishedTime : String
  now : ℤ
  deriving DecidableEq, Repr

def killSwitchTopic : String := "risk.kill-switch"

def killSwitchPayload (publisher : Publisher) (stamp : Stamp) : Payload := [
  ("event_id", stamp.eventId),
  ("trace_id", stamp.traceId),
  ("event_type", "KILL_SWITCH_ACTIVE"),
  ("schema_version", "3.0"),
  ("source", publisher.source),
  ("published_time", stamp.publishedTime),
  ("reason", "kafka_consecutive_delivery_failures"),
  ("activated_by", publisher.activatedBy)]

/-- What has happened: to rows of the outbox, and in a call of `_record_failure` that counted so
many failures. -/
inductive Entry where
  | stored (row : Row)
  | overflow
  | produced (row : Row)
  | acknowledged (row : Row)
  | deleted (row : Row)
  | failure (count : ℕ) (halted : Bool) (event : Option Row)
  deriving DecidableEq, Repr

/-- `batch` has the rows that the drain has read and not handled yet, `sent` the one whose `send`
has returned. -/
structure World where
  file : OutboxFile
  isOpen : Bool := true
  batch : List Row := []
  sent : Option Row := none
  consecutiveFailures : ℕ := 0
  haltFired : Bool := false
  journal : List Entry

/-- A process begins with the file that the last one left. -/
def start (f : OutboxFile) : World where
  file := f
  journal := (f.rows.map .stored).reverse

def World.restart (w : World) : World where
  file := w.file
  journal := w.journal

inductive Event where
  /-- A row that is no kill-switch event of this publisher. -/
  | buffered (topic key : String) (value : Payload) (now : ℤ)
  | delivered
  /-- `killed`: the process dies in the call, before an event is committed. -/
  | deliveryFailed (stamp : Stamp) (killed : Bool)
  | timedOut (stamp : Stamp) (killed : Bool)
  | drain
  | produce (accepted : Bool)
  | delete
  | acknowledged (row : Row)
  | stopped
  | restarted

section Step
variable (cfg : Config)

/-- `enqueue`: the row that was stored, if any. -/
def World.enqueue (w : World) (topic key : String) (value : Payload) (now : ℤ) :
    World × Option Row :=
  if !w.isOpen then (w, none)
  else if cfg.maxEntries ≤ w.file.rows.length then
    ({ w with journal := .overflow :: w.journal }, none)
  else
    let row : Row := ⟨w.file.nextId, topic, key, value, now⟩
    ({ w with file := w.file.insert topic key value now, journal := .stored row :: w.journal },
      some row)

def World.enqueueKillSwitch (w : World) (stamp : Stamp) : World × Option Row :=
  w.enqueue cfg killSwitchTopic "GLOBAL" (killSwitchPayload cfg.publisher stamp) stamp.now

/-- `_record_failure` -/
def recordFailure (stamp : Stamp) (killed : Bool) (w : World) : World :=
  let count := w.consecutiveFailures + 1
  if cfg.threshold ≤ count ∧ w.haltFired = false then
    if killed then
      { w.restart with journal := .failure count cfg.hasCallback none :: w.journal }
    else
      let fired := { w with consecutiveFailures := count, haltFired := true }
      let (w', event) := fired.enqueueKillSwitch cfg stamp
      { w' with journal := .failure count cfg.hasCallback event :: w'.journal }
  else
    { w with
      consecutiveFailures := count
      journal := .failure count false none :: w.journal }

def step (w : World) : Event → World
  | .buffered topic key value now => (w.enqueue cfg topic key value now).1
  | .delivered => { w with consecutiveFailures := 0 }
  | .deliveryFailed stamp killed => recordFailure cfg stamp killed w
  -- only `KafkaApprovedPublisher` waits for the acknowledgement
  | .timedOut stamp killed =>
    match cfg.publisher with
    | .approved => recordFailure cfg stamp killed w
    | .signal => w
  | .drain =>
    if w.isOpen ∧ w.batch = [] ∧ w.sent = none then { w with batch := w.file.rows.take 100 } else w
  | .produce accepted =>
    match w.batch, w.sent with
    | row :: _, none =>
      if accepted then { w with sent := some row, journal := .produced row :: w.journal }
      else { w with batch := [] }
    | _, _ => w
  | .delete =>
    match w.sent with
    | some row =>
      if w.isOpen then
        { w with
          file := w.file.delete row.id
          batch := w.batch.tail
          sent := none
          journal := .deleted row :: w.journal }
      -- a closed connection raises, which ends the pass
      else { w with batch := [], sent := none }
    | none => w
  -- a broker acknowledges what it was sent
  | .acknowledged row =>
    if .produced row ∈ w.journal then { w with journal := .acknowledged row :: w.journal } else w
  | .stopped => { w with isOpen := false }
  | .restarted => w.restart

end Step

end QuantEmbrace.KafkaOutbox
