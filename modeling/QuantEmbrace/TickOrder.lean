import QuantEmbrace.TickPublisher
import QuantEmbrace.Lib.GuardedRun
import Mathlib.Logic.Function.Basic

/-! Ticks on their way to Kafka, each in a task of its own, which waits for the archive, for the
outbox, and for room in the queue of the producer. -/
namespace QuantEmbrace.DataIngestion
open GuardedRun

/-- Where a task waits; it is idle before it starts and after it has ended. -/
inductive Phase where
  | idle
  | flushing (tick : NormalizedTick) (batch : List NormalizedTick)
  | storing (event : TickEvent)
  | retrying (event : TickEvent)
  deriving DecidableEq, Repr

/-- The instrument of a tick that waits for the archive. -/
def Phase.archiving : Phase → Option String
  | .flushing tick _ => some tick.instrumentId
  | _ => none

/-- The event of a tick that has its number and is not produced yet. -/
def Phase.carried : Phase → Option TickEvent
  | .storing event | .retrying event => some event
  | _ => none

/-- A call of `produce` that was accepted, by the task of the tick with that number of arrival. -/
structure Produce where
  task : ℕ
  event : TickEvent
  deriving DecidableEq, Repr

/-- The archive is optional, and flushes when it has as many ticks as the batch size. -/
structure Pipeline where
  batchSize : Option ℕ
  outboxEnabled : Bool
  staleThreshold : ℚ := 60
  deriving Repr

structure Ingestion where
  ticks : List NormalizedTick := []
  buffer : List NormalizedTick := []
  sequenceId : ℕ := 0
  phase : ℕ → Phase := fun _ => .idle
  produced : List Produce := []

/-- What the event loop does next: a tick arrives and its task starts, or the task of a tick goes
on after the upload of a batch, after the write to the outbox, or after the pause. -/
inductive Resume where
  | arrive (tick : NormalizedTick) (stamp : Stamp) (outcome : ProduceOutcome)
  | flushed (i : ℕ) (uploaded : Bool) (stamp : Stamp) (outcome : ProduceOutcome)
  | stored (i : ℕ) (written : Bool) (outcome : ProduceOutcome)
  | retried (i : ℕ) (outcome : ProduceOutcome)
  deriving DecidableEq, Repr

namespace Ingestion

def setPhase (i : ℕ) (phase : Phase) (s : Ingestion) : Ingestion :=
  { s with phase := Function.update s.phase i phase }

/-- The call is accepted, and the task ends. -/
def accept (i : ℕ) (event : TickEvent) (s : Ingestion) : Ingestion :=
  setPhase i .idle { s with produced := s.produced ++ [⟨i, event⟩] }

/-- The first call of `produce`; a full queue is tried again after a pause. -/
def produce (i : ℕ) (event : TickEvent) (s : Ingestion) : ProduceOutcome → Ingestion
  | .accepted => accept i event s
  | .bufferFull => setPhase i (.retrying event) s
  | .kafkaError => setPhase i .idle s

/-- `publish`: the event takes its number; it goes to the outbox first, if there is one. -/
def publish (p : Pipeline) (i : ℕ) (tick : NormalizedTick) (stamp : Stamp)
    (outcome : ProduceOutcome) (s : Ingestion) : Ingestion :=
  let event := buildEvent tick stamp (s.sequenceId + 1)
  let s := { s with sequenceId := s.sequenceId + 1 }
  if p.outboxEnabled = true then setPhase i (.storing event) s else produce i event s outcome

/-- The tick fills the batch, and its task flushes it. -/
def Fills (p : Pipeline) (s : Ingestion) : Prop :=
  ∃ n ∈ p.batchSize, n ≤ s.buffer.length + 1

instance (p : Pipeline) (s : Ingestion) : Decidable (Fills p s) :=
  inferInstanceAs (Decidable (∃ n ∈ p.batchSize, n ≤ s.buffer.length + 1))

/-- `process_tick`, up to where it first waits. -/
def processTick (p : Pipeline) (tick : NormalizedTick) (stamp : Stamp) (outcome : ProduceOutcome)
    (s : Ingestion) : Ingestion :=
  let i := s.ticks.length
  let s' := { s with ticks := s.ticks ++ [tick] }
  if ¬ tick.Valid p.staleThreshold stamp.now then s'
  else if Fills p s then
    setPhase i (.flushing tick (s.buffer ++ [tick])) { s' with buffer := [] }
  else
    publish p i tick stamp outcome
      { s' with buffer := if p.batchSize.isSome then s.buffer ++ [tick] else s.buffer }

def step (p : Pipeline) (s : Ingestion) : Resume → Ingestion
  | .arrive tick stamp outcome => processTick p tick stamp outcome s
  | .flushed i uploaded stamp outcome =>
    match s.phase i with
    | .flushing tick batch =>
      publish p i tick stamp outcome
        { s with buffer := if uploaded then s.buffer else batch ++ s.buffer }
    | _ => s
  | .stored i written outcome =>
    match s.phase i with
    | .storing event => if written then produce i event s outcome else setPhase i .idle s
    | _ => s
  | .retried i outcome =>
    match s.phase i with
    | .retrying event => if outcome = .accepted then accept i event s else setPhase i .idle s
    | _ => s

/-- The calls for one instrument are in the order of arrival, with increasing numbers. -/
def Ordered (s : Ingestion) : Prop :=
  s.produced.Pairwise fun x y => x.event.instrumentId = y.event.instrumentId →
    x.task < y.task ∧ x.event.sequenceId < y.event.sequenceId

instance (s : Ingestion) : Decidable s.Ordered :=
  inferInstanceAs (Decidable (s.produced.Pairwise fun x y =>
    x.event.instrumentId = y.event.instrumentId →
      x.task < y.task ∧ x.event.sequenceId < y.event.sequenceId))

/-- The tick has its number: its event is on the way, or produced. -/
def Numbered (s : Ingestion) (i : ℕ) (event : TickEvent) : Prop :=
  (s.phase i).carried = some event ∨ ⟨i, event⟩ ∈ s.produced

/-- No earlier tick of the instrument waits for the archive. -/
def NumberInTurn (s : Ingestion) (i : ℕ) (instrument : String) : Prop :=
  ∀ j < i, (s.phase j).archiving ≠ some instrument

/-- No earlier tick of the instrument waits for the outbox or for the queue. -/
def ProduceInTurn (s : Ingestion) (i : ℕ) (instrument : String) : Prop :=
  ∀ j < i, (s.phase j).carried.map TickEvent.instrumentId ≠ some instrument

instance (s : Ingestion) (i : ℕ) (instrument : String) : Decidable (s.NumberInTurn i instrument) :=
  inferInstanceAs (Decidable (∀ j < i, (s.phase j).archiving ≠ some instrument))

instance (s : Ingestion) (i : ℕ) (instrument : String) : Decidable (s.ProduceInTurn i instrument) :=
  inferInstanceAs
    (Decidable (∀ j < i, (s.phase j).carried.map TickEvent.instrumentId ≠ some instrument))

/-- What is kept as long as no tick is overtaken. -/
structure Queued (s : Ingestion) : Prop where
  bounded : ∀ i e, s.Numbered i e → e.sequenceId ≤ s.sequenceId
  increasing : ∀ i e j e', s.Numbered i e → s.Numbered j e' → e.instrumentId = e'.instrumentId →
    i < j → e.sequenceId < e'.sequenceId
  beforeArchive : ∀ i j e, (s.phase i).archiving = some e.instrumentId → s.Numbered j e → j < i
  beforeCarried : ∀ i e j e', (s.phase i).carried = some e → ⟨j, e'⟩ ∈ s.produced →
    e'.instrumentId = e.instrumentId → j < i
  arrivals : s.produced.Pairwise fun x y => x.event.instrumentId = y.event.instrumentId →
    x.task < y.task
  builtOf : ∀ i e, s.Numbered i e → ∃ tick stamp n,
    s.ticks[i]? = some tick ∧ e = buildEvent tick stamp n
  archiveOf : ∀ i tick batch, s.phase i = .flushing tick batch → s.ticks[i]? = some tick

variable {p : Pipeline} {s : Ingestion} {i : ℕ} {tick : NormalizedTick} {event : TickEvent}

theorem Queued.ordered (h : Queued s) : Ordered s := by
  refine h.arrivals.imp_of_mem fun {x y} hx hy harrivals hsame => ?_
  have hlt := harrivals hsame
  exact ⟨hlt, h.increasing x.task x.event y.task y.event (.inr hx) (.inr hy) hsame hlt⟩

theorem Queued.task_lt (h : Queued s) (hn : s.Numbered i event) : i < s.ticks.length := by
  obtain ⟨tick, stamp, n, htick, -⟩ := h.builtOf i event hn
  exact (List.getElem?_eq_some_iff.mp htick).1

theorem phase_setPhase (i j : ℕ) (phase : Phase) (s : Ingestion) :
    (setPhase i phase s).phase j = if j = i then phase else s.phase j :=
  Function.update_apply _ _ _ _

/-- A task that waits for the archive after another one went on has waited before. -/
theorem flushing_setPhase {phase : Phase} {j : ℕ} {batch : List NormalizedTick}
    (harchiving : phase.archiving = none)
    (hj : (setPhase i phase s).phase j = .flushing tick batch) :
    s.phase j = .flushing tick batch := by
  rw [phase_setPhase] at hj
  split at hj
  · rw [hj] at harchiving
    cases harchiving
  · exact hj

theorem archiving_setPhase {phase : Phase} {j : ℕ} {instrument : String}
    (harchiving : phase.archiving = none)
    (hj : ((setPhase i phase s).phase j).archiving = some instrument) :
    (s.phase j).archiving = some instrument := by
  rw [phase_setPhase] at hj
  split at hj
  · rw [harchiving] at hj
    cases hj
  · exact hj

/-- What a task carries is the same after the step, or nothing. -/
theorem Queued.setPhase {phase : Phase} (h : Queued s)
    (hcarried : ∀ e, phase.carried = some e → (s.phase i).carried = some e)
    (harchiving : phase.archiving = none) : Queued (setPhase i phase s) := by
  have hphase (j : ℕ) (e : TickEvent)
      (he : ((Ingestion.setPhase i phase s).phase j).carried = some e) :
      (s.phase j).carried = some e := by
    rw [phase_setPhase] at he
    split at he
    · next hj => rw [hj]; exact hcarried e he
    · exact he
  have hnumbered (j : ℕ) (e : TickEvent) (hn : (Ingestion.setPhase i phase s).Numbered j e) :
      s.Numbered j e := hn.imp_left (hphase j e)
  exact {
    bounded := fun j e hn => h.bounded j e (hnumbered j e hn)
    increasing := fun j e k e' hj hk => h.increasing j e k e' (hnumbered j e hj) (hnumbered k e' hk)
    beforeArchive := fun j k e ha hk =>
      h.beforeArchive j k e (archiving_setPhase harchiving ha) (hnumbered k e hk)
    beforeCarried := fun j e k e' hj => h.beforeCarried j e k e' (hphase j e hj)
    arrivals := h.arrivals
    builtOf := fun j e hn => h.builtOf j e (hnumbered j e hn)
    archiveOf := fun j tick batch hj =>
      h.archiveOf j tick batch (flushing_setPhase harchiving hj) }

/-- A call for a tick that carries its event, with no earlier one of the instrument on the way. -/
theorem Queued.accept (h : Queued s) (hcarried : (s.phase i).carried = some event)
    (hturn : s.ProduceInTurn i event.instrumentId) : Queued (accept i event s) := by
  have hphase (j : ℕ) : ((Ingestion.accept i event s).phase j) =
      if j = i then .idle else s.phase j :=
    phase_setPhase i j .idle _
  have hnumbered (j : ℕ) (e : TickEvent) (hn : (Ingestion.accept i event s).Numbered j e) :
      s.Numbered j e := by
    obtain hj | hj := hn
    · rw [hphase] at hj
      split at hj
      · cases hj
      · exact .inl hj
    · obtain hj | hj := List.mem_append.mp hj
      · exact .inr hj
      · cases List.mem_singleton.mp hj
        exact .inl hcarried
  exact {
    bounded := fun j e hn => h.bounded j e (hnumbered j e hn)
    increasing := fun j e k e' hj hk => h.increasing j e k e' (hnumbered j e hj) (hnumbered k e' hk)
    beforeArchive := fun j k e ha hk =>
      h.beforeArchive j k e (archiving_setPhase rfl ha) (hnumbered k e hk)
    beforeCarried := by
      intro j e k e' hj hk hsame
      rw [hphase] at hj
      split at hj
      · cases hj
      · next hne =>
        obtain hk | hk := List.mem_append.mp hk
        · exact h.beforeCarried j e k e' hj hk hsame
        · cases List.mem_singleton.mp hk
          have hlater : ¬ j < i := fun hlt => hturn j hlt (by rw [hj, Option.map_some, hsame])
          omega
    arrivals := by
      refine List.pairwise_append.mpr ⟨h.arrivals, List.pairwise_singleton _ _, ?_⟩
      rintro ⟨k, e'⟩ hk y hy hsame
      cases List.mem_singleton.mp hy
      exact h.beforeCarried i event k e' hcarried hk hsame
    builtOf := fun j e hn => h.builtOf j e (hnumbered j e hn)
    archiveOf := fun j tick batch hj => h.archiveOf j tick batch (flushing_setPhase rfl hj) }

/-- The tick takes its number. -/
def number (i : ℕ) (event : TickEvent) (s : Ingestion) : Ingestion :=
  Ingestion.setPhase i (.storing event) { s with sequenceId := s.sequenceId + 1 }

/-- The ticks of the instrument that have a number are earlier, and no earlier one waits for the
archive. -/
theorem Queued.number {stamp : Stamp} (h : Queued s) (htick : s.ticks[i]? = some tick)
    (hlast : ∀ j e, s.Numbered j e → e.instrumentId = tick.instrumentId → j < i)
    (hturn : s.NumberInTurn i tick.instrumentId) :
    Queued (number i (buildEvent tick stamp (s.sequenceId + 1)) s) := by
  set event := buildEvent tick stamp (s.sequenceId + 1) with hevent
  have hinstrument : event.instrumentId = tick.instrumentId := rfl
  have hsequence : event.sequenceId = s.sequenceId + 1 := rfl
  have hphase (j : ℕ) : ((Ingestion.number i event s).phase j) =
      if j = i then .storing event else s.phase j := phase_setPhase i j _ _
  have hnumbered (j : ℕ) (e : TickEvent) (hn : (Ingestion.number i event s).Numbered j e) :
      s.Numbered j e ∨ (j = i ∧ e = event) := by
    obtain hj | hj := hn
    · rw [hphase] at hj
      split at hj
      · next heq => exact .inr ⟨heq, (Option.some.inj hj).symm⟩
      · exact .inl (.inl hj)
    · exact .inl (.inr hj)
  exact {
    bounded := by
      intro j e hn
      change e.sequenceId ≤ s.sequenceId + 1
      obtain hold | ⟨rfl, rfl⟩ := hnumbered j e hn
      · exact (h.bounded j e hold).trans (Nat.le_succ _)
      · exact le_rfl
    increasing := by
      intro j e k e' hj hk hsame hlt
      obtain hold | ⟨rfl, rfl⟩ := hnumbered j e hj
      · obtain hold' | ⟨rfl, rfl⟩ := hnumbered k e' hk
        · exact h.increasing j e k e' hold hold' hsame hlt
        · have hbound := h.bounded j e hold
          omega
      · obtain hold | ⟨rfl, rfl⟩ := hnumbered k e' hk
        · have hearlier := hlast k e' hold (hsame.symm.trans hinstrument)
          omega
        · omega
    beforeArchive := by
      intro j k e ha hk
      have hwaits : (s.phase j).archiving = some e.instrumentId := archiving_setPhase rfl ha
      obtain hk | ⟨rfl, rfl⟩ := hnumbered k e hk
      · exact h.beforeArchive j k e hwaits hk
      · have hlater : ¬ j < k := fun hlt => hturn j hlt (by rw [hwaits, hinstrument])
        have hother : j ≠ k := by
          rintro rfl
          rw [hphase, if_pos rfl] at ha
          cases ha
        omega
    beforeCarried := by
      intro j e k e' hj hk hsame
      rw [hphase] at hj
      split at hj
      · next heq =>
        cases hj
        rw [heq]
        exact hlast k e' (.inr hk) (hsame.trans hinstrument)
      · exact h.beforeCarried j e k e' hj hk hsame
    arrivals := h.arrivals
    builtOf := by
      intro j e hn
      obtain hold | ⟨rfl, rfl⟩ := hnumbered j e hn
      · exact h.builtOf j e hold
      · exact ⟨tick, stamp, s.sequenceId + 1, htick, hevent⟩
    archiveOf := fun j t batch hj => h.archiveOf j t batch (flushing_setPhase rfl hj) }

theorem carried_number (i : ℕ) (event : TickEvent) (s : Ingestion) :
    ((number i event s).phase i).carried = some event := by
  rw [number, phase_setPhase, if_pos rfl]
  rfl

/-- A call in the step in which the tick takes its number, or after the outbox. -/
theorem produce_number (i : ℕ) (event : TickEvent) (outcome : ProduceOutcome) (s : Ingestion) :
    produce i event { s with sequenceId := s.sequenceId + 1 } outcome =
      produce i event (number i event s) outcome := by
  cases outcome <;> simp [produce, number, Ingestion.accept, Ingestion.setPhase]

theorem Queued.produce {outcome : ProduceOutcome} (h : Queued s)
    (hcarried : (s.phase i).carried = some event)
    (hturn : outcome = .accepted → s.ProduceInTurn i event.instrumentId) :
    Queued (produce i event s outcome) := by
  cases outcome with
  | accepted => exact h.accept hcarried (hturn rfl)
  | bufferFull => exact h.setPhase (fun e he => by rw [hcarried, ← he]; rfl) rfl
  | kafkaError => exact h.setPhase (fun e he => by cases he) rfl

/-- The ticks of its instrument that a tick must not overtake when it is published. -/
def PublishInTurn (p : Pipeline) (s : Ingestion) (i : ℕ) (instrument : String)
    (outcome : ProduceOutcome) : Prop :=
  s.NumberInTurn i instrument ∧
    (p.outboxEnabled = false → outcome = .accepted → s.ProduceInTurn i instrument)

instance (p : Pipeline) (s : Ingestion) (i : ℕ) (instrument : String) (outcome : ProduceOutcome) :
    Decidable (PublishInTurn p s i instrument outcome) :=
  instDecidableAnd

theorem Queued.publish {stamp : Stamp} {outcome : ProduceOutcome} (h : Queued s)
    (htick : s.ticks[i]? = some tick)
    (hlast : ∀ j e, s.Numbered j e → e.instrumentId = tick.instrumentId → j < i)
    (hturn : PublishInTurn p s i tick.instrumentId outcome) :
    Queued (publish p i tick stamp outcome s) := by
  have hnumber : Queued (Ingestion.number i (buildEvent tick stamp (s.sequenceId + 1)) s) :=
    h.number htick hlast hturn.1
  rw [Ingestion.publish]
  split
  · exact hnumber
  · next houtbox =>
    rw [produce_number]
    refine hnumber.produce (carried_number i _ s) fun haccepted j hj => ?_
    rw [Ingestion.number, phase_setPhase, if_neg (by omega)]
    exact hturn.2 (by simpa using houtbox) haccepted j hj

/-- The step does not take a tick past an earlier one of its instrument: not past one that waits
for the archive when it takes its number, and not past one that is on the way when it is
produced. -/
def InTurn (p : Pipeline) (s : Ingestion) : Resume → Prop
  | .arrive tick stamp outcome =>
    tick.Valid p.staleThreshold stamp.now → ¬ Fills p s →
      PublishInTurn p s s.ticks.length tick.instrumentId outcome
  | .flushed i _ _ outcome =>
    ∀ instrument ∈ (s.phase i).archiving, PublishInTurn p s i instrument outcome
  | .stored i written outcome =>
    written = true → outcome = .accepted →
      ∀ event ∈ (s.phase i).carried, s.ProduceInTurn i event.instrumentId
  | .retried i outcome =>
    outcome = .accepted → ∀ event ∈ (s.phase i).carried, s.ProduceInTurn i event.instrumentId

instance (p : Pipeline) (s : Ingestion) : (a : Resume) → Decidable (InTurn p s a)
  | .arrive tick stamp outcome => inferInstanceAs (Decidable
      (tick.Valid p.staleThreshold stamp.now → ¬ Fills p s →
        PublishInTurn p s s.ticks.length tick.instrumentId outcome))
  | .flushed i _ _ outcome => inferInstanceAs (Decidable
      (∀ instrument ∈ (s.phase i).archiving, PublishInTurn p s i instrument outcome))
  | .stored i written outcome => inferInstanceAs (Decidable (written = true → outcome = .accepted →
      ∀ event ∈ (s.phase i).carried, s.ProduceInTurn i event.instrumentId))
  | .retried i outcome => inferInstanceAs (Decidable (outcome = .accepted →
      ∀ event ∈ (s.phase i).carried, s.ProduceInTurn i event.instrumentId))

theorem Queued.arrive (h : Queued s) (tick : NormalizedTick) :
    Queued { s with ticks := s.ticks ++ [tick] } where
  bounded := h.bounded
  increasing := h.increasing
  beforeArchive := h.beforeArchive
  beforeCarried := h.beforeCarried
  arrivals := h.arrivals
  builtOf i e hn := by
    obtain ⟨t, stamp, n, ht, he⟩ := h.builtOf i e hn
    exact ⟨t, stamp, n, List.getElem?_append_left (h.task_lt hn) ▸ ht, he⟩
  archiveOf i t batch hi := by
    have ht := h.archiveOf i t batch hi
    exact List.getElem?_append_left (List.getElem?_eq_some_iff.mp ht).1 ▸ ht

theorem Queued.flush (h : Queued s) (htick : s.ticks[i]? = some tick)
    (hlast : ∀ j e, s.Numbered j e → j < i) (batch : List NormalizedTick) :
    Queued (Ingestion.setPhase i (.flushing tick batch) s) := by
  have hphase (j : ℕ) : (Ingestion.setPhase i (.flushing tick batch) s).phase j =
      if j = i then .flushing tick batch else s.phase j := phase_setPhase i j _ _
  have hcarried (j : ℕ) (e : TickEvent)
      (he : ((Ingestion.setPhase i (.flushing tick batch) s).phase j).carried = some e) :
      (s.phase j).carried = some e := by
    rw [hphase] at he
    split at he
    · cases he
    · exact he
  have hnumbered (j : ℕ) (e : TickEvent)
      (hn : (Ingestion.setPhase i (.flushing tick batch) s).Numbered j e) : s.Numbered j e :=
    hn.imp_left (hcarried j e)
  exact {
    bounded := fun j e hn => h.bounded j e (hnumbered j e hn)
    increasing := fun j e k e' hj hk => h.increasing j e k e' (hnumbered j e hj) (hnumbered k e' hk)
    beforeArchive := by
      intro j k e ha hk
      rw [hphase] at ha
      split at ha
      · next heq =>
        rw [heq]
        exact hlast k e (hnumbered k e hk)
      · exact h.beforeArchive j k e ha (hnumbered k e hk)
    beforeCarried := fun j e k e' hj => h.beforeCarried j e k e' (hcarried j e hj)
    arrivals := h.arrivals
    builtOf := fun j e hn => h.builtOf j e (hnumbered j e hn)
    archiveOf := by
      intro j t b hj
      rw [hphase] at hj
      split at hj
      · next heq =>
        cases hj
        rw [heq]
        exact htick
      · exact h.archiveOf j t b hj }

theorem Queued.step {a : Resume} (h : Queued s) (hturn : InTurn p s a) : Queued (step p s a) := by
  cases a with
  | arrive tick stamp outcome =>
    have harrived := h.arrive tick
    have htick : (s.ticks ++ [tick])[s.ticks.length]? = some tick := List.getElem?_concat_length
    have hlast (j : ℕ) (e : TickEvent) (hn : s.Numbered j e) : j < s.ticks.length := h.task_lt hn
    rw [Ingestion.step, processTick]
    split
    · exact harrived
    · next hvalid =>
      split
      · have hbuffer : Queued { s with ticks := s.ticks ++ [tick], buffer := [] } :=
          { harrived with }
        exact hbuffer.flush htick hlast _
      · next hfills =>
        refine Queued.publish { harrived with } htick (fun j e hn _ => hlast j e hn) ?_
        exact hturn (not_not.mp hvalid) hfills
  | flushed i uploaded stamp outcome =>
    rw [Ingestion.step]
    split
    · next tick batch hphase =>
      have harchiving : (s.phase i).archiving = some tick.instrumentId := by rw [hphase]; rfl
      refine Queued.publish { h with } (h.archiveOf i tick batch hphase) ?_ (hturn _ harchiving)
      exact fun j e hn hsame => h.beforeArchive i j e (hsame ▸ harchiving) hn
    · exact h
  | stored i written outcome =>
    rw [Ingestion.step]
    split
    · next event hphase =>
      have hcarried : (s.phase i).carried = some event := by rw [hphase]; rfl
      split
      · next hwritten =>
        exact h.produce hcarried fun haccepted => hturn hwritten haccepted _ hcarried
      · exact h.setPhase (fun e he => by cases he) rfl
    · exact h
  | retried i outcome =>
    rw [Ingestion.step]
    split
    · next event hphase =>
      have hcarried : (s.phase i).carried = some event := by rw [hphase]; rfl
      split
      · next haccepted => exact h.accept hcarried (hturn haccepted _ hcarried)
      · exact h.setPhase (fun e he => by cases he) rfl
    · exact h

theorem queued_start : Queued {} where
  bounded i e hn := by simp [Numbered, Phase.carried] at hn
  increasing i e j e' hn := by simp [Numbered, Phase.carried] at hn
  beforeArchive i j e ha := by cases ha
  beforeCarried i e j e' hc := by cases hc
  arrivals := List.Pairwise.nil
  builtOf i e hn := by simp [Numbered, Phase.carried] at hn
  archiveOf i tick batch hi := by cases hi

/-- As long as no step takes a tick past an earlier one of its instrument, the calls of `produce`
for an instrument are in the order in which its ticks arrived, with increasing numbers, and each
is for the event of its tick. -/
theorem ticks_in_order (p : Pipeline) (actions : List Resume)
    (h : StepsMeet (step p) (InTurn p) {} actions) :
    AlongRun (step p) (fun s => s.Ordered ∧ ∀ x ∈ s.produced, ∃ tick stamp n,
      s.ticks[x.task]? = some tick ∧ x.event = buildEvent tick stamp n) {} actions := by
  intro pre hpre
  have hqueued := h.invariant (fun s a hs hturn => hs.step hturn) queued_start pre hpre
  exact ⟨hqueued.ordered, fun x hx => hqueued.builtOf x.task x.event (.inr hx)⟩

/-- A tick of one share on the exchange, at a price and a second. -/
def infyTick (price : ℚ) (second : ℕ) : NormalizedTick where
  symbol := "INFY"
  market := .nse
  lastPrice := price
  bid := none
  ask := none
  volume := 10
  timestamp := second

def infyStamp (id : String) (second : ℕ) : Stamp := ⟨id, id, second, "20260518"⟩

def onlyOutbox : Pipeline where
  batchSize := none
  outboxEnabled := true

/-- The outbox write of the second tick ends first, and its price is produced first. -/
theorem second_tick_overtakes :
    ¬ ∀ (p : Pipeline) (actions : List Resume),
      (∀ a ∈ actions, ∀ tick stamp outcome, a = .arrive tick stamp outcome →
        tick.Valid p.staleThreshold stamp.now) →
      AlongRun (step p) Ordered {} actions := by
  intro h
  have hrun := h onlyOutbox [.arrive (infyTick 100 0) (infyStamp "a" 0) .accepted,
    .arrive (infyTick 101 1) (infyStamp "b" 1) .accepted, .stored 1 true .accepted,
    .stored 0 true .accepted] ?_
  · exact absurd hrun.last (by decide +kernel)
  · intro a ha tick stamp outcome heq
    subst heq
    simp only [List.mem_cons, Resume.arrive.injEq, reduceCtorEq, List.not_mem_nil, or_false] at ha
    obtain ⟨rfl, rfl, -⟩ | ⟨rfl, rfl, -⟩ := ha
    · decide +kernel
    · decide +kernel

/-- With the writes in the order of arrival, the calls are too. -/
theorem ticks_in_order_two : AlongRun (step onlyOutbox) (fun s => s.Ordered ∧ ∀ x ∈ s.produced,
    ∃ tick stamp n, s.ticks[x.task]? = some tick ∧ x.event = buildEvent tick stamp n) {}
    [.arrive (infyTick 100 0) (infyStamp "a" 0) .accepted,
      .arrive (infyTick 101 1) (infyStamp "b" 1) .accepted, .stored 0 true .accepted,
      .stored 1 true .accepted] :=
  ticks_in_order onlyOutbox _ (by decide +kernel)

end Ingestion
end QuantEmbrace.DataIngestion
