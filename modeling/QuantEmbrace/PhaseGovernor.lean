import QuantEmbrace.CandleConsumer
import QuantEmbrace.Lib.Timetable

/-! The governor of the market phases: when it tells its listeners of which phase, while it may be
started late, die and be started again. Times are in microseconds since the epoch. -/
namespace QuantEmbrace.PhaseGovernor
open Candles

section Phases

def phaseValue : MarketPhase → String
  | .preOpen => "PRE_OPEN"
  | .preAuction => "PRE_AUCTION"
  | .marketOpen => "MARKET_OPEN"
  | .normal => "NORMAL"
  | .preClose => "PRE_CLOSE"
  | .closing => "CLOSING"
  | .postClose => "POST_CLOSE"

/-- `MarketPhase(phase_name)`; `none` for the `ValueError`. -/
def phaseOfName (name : String) : Option MarketPhase :=
  [.preOpen, .preAuction, .marketOpen, .normal, .preClose, .closing, .postClose].find?
    fun phase => phaseValue phase = name

theorem phaseOfName_phaseValue (phase : MarketPhase) :
    phaseOfName (phaseValue phase) = some phase := by
  cases phase <;> decide +kernel

def second : ℤ := 1000000
def minute : ℤ := 60 * second
def hour : ℤ := 60 * minute
def day : ℤ := 24 * hour

def phaseSchedule : List (ℤ × MarketPhase) :=
  [(8 * hour, .preOpen), (9 * hour, .preAuction), (9 * hour + 15 * minute, .marketOpen),
    (9 * hour + 30 * minute, .normal), (14 * hour + 45 * minute, .preClose),
    (15 * hour + 20 * minute, .closing), (15 * hour + 30 * minute, .postClose)]

/-- The clock of `Asia/Kolkata`, which has kept one offset since before the epoch. -/
def ist (now : ℤ) : ℤ := now + (5 * hour + 30 * minute)

/-- `_compute_phase` -/
def computePhase (now : ℤ) : MarketPhase :=
  match phaseSchedule.reverse.find? fun entry => entry.1 ≤ ist now % day with
  | some entry => entry.2
  | none => .postClose

def timetable : Timetable MarketPhase where
  period := day
  entries := phaseSchedule
  sorted := by decide +kernel
  inside := by decide +kernel
  nonempty := by decide

theorem computePhase_eq (now : ℤ) : computePhase now = timetable.inForce (ist now) := by
  rw [computePhase, timetable.inForce_eq]
  change _ = ((phaseSchedule.reverse.find? fun entry => entry.1 ≤ ist now % day).getD
    (15 * hour + 30 * minute, .postClose)).2
  cases phaseSchedule.reverse.find? fun entry => entry.1 ≤ ist now % day <;> rfl

theorem varies : timetable.Varies := timetable.varies_of (by decide +kernel)

/-- The shortest phase is the closing auction. -/
theorem lasts : timetable.Lasts (10 * minute) := timetable.lasts_of (by decide +kernel)

end Phases

section Governor

structure Call where
  listener : ℕ
  phaseName : String
  time : ℤ
  deriving DecidableEq, Repr

/-- The governor, whether the task of its loop is alive, when it last looked at the clock, and
whom it has called. -/
structure World where
  phase : MarketPhase
  listeners : List ℕ := []
  running : Bool := false
  alive : Bool := false
  seen : ℤ
  calls : List Call := []

/-- The loop is started, at first or by the watchdog; it wakes up and looks at the clock; it dies
of a cancellation or an error; somebody stops it, registers or removes a listener. -/
inductive Event where
  | start (now : ℤ)
  | check (now : ℤ)
  | die
  | stop
  | addListener (l : ℕ)
  | removeListener (l : ℕ)
  deriving DecidableEq, Repr

/-- `__init__` -/
def World.init (now : ℤ) : World where
  phase := computePhase now
  seen := now

/-- `_broadcast`; what a listener raises is caught. -/
def World.broadcast (w : World) (now : ℤ) : World :=
  { w with calls := w.calls ++ w.listeners.map fun l => ⟨l, phaseValue w.phase, now⟩ }

def World.step (w : World) : Event → World
  | .start now => if w.alive then w else { w with running := true, alive := true }.broadcast now
  | .check now =>
    if w.alive then
      let looked := { w with seen := now, alive := w.running }
      if computePhase now = w.phase then looked
      else { looked with phase := computePhase now }.broadcast now
    else w
  | .die => if w.alive then { w with running := false, alive := false } else w
  | .stop => { w with running := false }
  | .addListener l => { w with listeners := w.listeners ++ [l] }
  | .removeListener l => { w with listeners := w.listeners.erase l }

def World.run (created : ℤ) (events : List Event) : World :=
  events.foldl World.step (World.init created)

def World.callsTo (w : World) (l : ℕ) : List Call := w.calls.filter fun c => c.listener = l

/-- The phase that a poller or stream goes by: each of them starts with the one after the close,
and ignores a name that it does not know. -/
def World.heard (w : World) (l : ℕ) : MarketPhase :=
  (w.callsTo l).foldl (fun phase c => (phaseOfName c.phaseName).getD phase) .postClose

theorem World.run_snoc (created : ℤ) (events : List Event) (e : Event) :
    World.run created (events ++ [e]) = (World.run created events).step e := by
  rw [World.run, List.foldl_append]
  rfl

end Governor

section Heard
variable {w : World} {l : ℕ} {now created : ℤ}

theorem World.heard_broadcast :
    (w.broadcast now).heard l = if l ∈ w.listeners then w.phase else w.heard l := by
  have hfold (start : MarketPhase) (listeners : List ℕ) :
      ((listeners.map fun l' => (⟨l', phaseValue w.phase, now⟩ : Call)).filter
        fun c => c.listener = l).foldl (fun phase c => (phaseOfName c.phaseName).getD phase) start =
        if l ∈ listeners then w.phase else start := by
    induction listeners generalizing start with
    | nil => rfl
    | cons l' listeners ih =>
      rw [List.map_cons]
      by_cases hl : l' = l
      · rw [List.filter_cons_of_pos (by simpa using hl), List.foldl_cons, ih,
          phaseOfName_phaseValue, if_pos (List.mem_cons.mpr (.inl hl.symm))]
        exact ite_self _
      · rw [List.filter_cons_of_neg (by simpa using hl), ih]
        simp only [List.mem_cons, Ne.symm hl, false_or]
  rw [World.heard, World.callsTo, World.broadcast, List.filter_append, List.foldl_append, hfold]
  rfl

/-- The phase is that of the last look at the clock. -/
theorem World.phase_eq (created : ℤ) (events : List Event) :
    (World.run created events).phase = computePhase (World.run created events).seen := by
  induction events using List.reverseRecOn with
  | nil => rfl
  | append_singleton events e ih =>
    rw [World.run_snoc]
    cases e with
    | start now =>
      rw [World.step]
      split <;> exact ih
    | check now =>
      rw [World.step]
      split
      · dsimp only
        split
        · next hsame => exact hsame.symm
        · rfl
      · exact ih
    | die =>
      rw [World.step]
      split <;> exact ih
    | stop => exact ih
    | addListener l' => exact ih
    | removeListener l' => exact ih

/-- The listener is registered and has the phase of the governor. -/
def World.Told (w : World) (l : ℕ) : Prop := l ∈ w.listeners ∧ w.heard l = w.phase

theorem World.Told.of_broadcast (hl : l ∈ w.listeners) : (w.broadcast now).Told l :=
  ⟨hl, by rw [World.heard_broadcast, if_pos hl]; rfl⟩

theorem World.Told.step (h : w.Told l) {e : Event} (hkept : e ≠ .removeListener l) :
    (w.step e).Told l := by
  cases e with
  | start now =>
    rw [World.step]
    split
    · exact h
    · exact .of_broadcast h.1
  | check now =>
    rw [World.step]
    split
    · dsimp only
      split
      · exact h
      · exact .of_broadcast h.1
    · exact h
  | die =>
    rw [World.step]
    split <;> exact h
  | stop => exact h
  | addListener l' => exact ⟨List.mem_append_left _ h.1, h.2⟩
  | removeListener l' =>
    have hother : l ≠ l' := fun heq => hkept (heq ▸ rfl)
    exact ⟨(List.mem_erase_of_ne hother).mpr h.1, h.2⟩

/-- Once told, a listener stays so for as long as it is registered. -/
theorem World.Told.run {pre post : List Event} (h : (World.run created pre).Told l)
    (hkept : .removeListener l ∉ post) : (World.run created (pre ++ post)).Told l := by
  induction post using List.reverseRecOn with
  | nil => rwa [List.append_nil]
  | append_singleton post e ih =>
    rw [List.mem_append, not_or, List.mem_singleton] at hkept
    rw [← List.append_assoc, World.run_snoc]
    exact (ih hkept.1).step (Ne.symm hkept.2)

theorem World.unstarted (created : ℤ) {events : List Event} (hnever : ∀ now, .start now ∉ events) :
    let w := World.run created events
    w.phase = computePhase created ∧ w.calls = [] ∧ w.alive = false := by
  induction events using List.reverseRecOn with
  | nil => exact ⟨rfl, rfl, rfl⟩
  | append_singleton events e ih =>
    have hquiet := ih fun now h => hnever now (List.mem_append_left _ h)
    rw [World.run_snoc]
    cases e with
    | start now => exact absurd (List.mem_append_right _ List.mem_cons_self) (hnever now)
    | check now =>
      rw [World.step, if_neg (by rw [hquiet.2.2]; decide)]
      exact hquiet
    | die =>
      rw [World.step, if_neg (by rw [hquiet.2.2]; decide)]
      exact hquiet
    | stop => exact hquiet
    | addListener l => exact hquiet
    | removeListener l => exact hquiet

/-- A listener that is registered when the loop is started has from then on the phase of the
governor, which is that of its last look at the clock; and where the loop is never started, the
phase stays that of the governor's creation. -/
theorem heard_phase (created : ℤ) (events : List Event) (l : ℕ) :
    let w := World.run created events
    (∀ pre now post, events = pre ++ .start now :: post → (World.run created pre).alive = false →
      l ∈ (World.run created pre).listeners → .removeListener l ∉ post →
        w.heard l = w.phase ∧ w.phase = computePhase w.seen) ∧
    ((∀ now, .start now ∉ events) → w.phase = computePhase created ∧ w.callsTo l = []) := by
  intro w
  constructor
  · rintro pre now post rfl hdead hl hkept
    have hstart : (World.run created (pre ++ [.start now])).Told l := by
      rw [World.run_snoc, World.step, if_neg (by rw [hdead]; decide)]
      exact .of_broadcast hl
    have htold := hstart.run hkept
    rw [List.append_assoc] at htold
    exact ⟨htold.2, World.phase_eq created _⟩
  · intro hnever
    obtain ⟨hphase, hcalls, -⟩ := World.unstarted created hnever
    exact ⟨hphase, by rw [World.callsTo, hcalls]; rfl⟩

/-- Five seconds before a close. -/
def nearClose : ℤ := 20458 * day + 10 * hour - 5 * second

theorem heard_phase_close :
    (World.run nearClose [.addListener 0, .start nearClose,
      .check (nearClose + 10 * second)]).heard 0 = .postClose :=
  ((heard_phase nearClose [.addListener 0, .start nearClose, .check (nearClose + 10 * second)] 0).1
    [.addListener 0] nearClose [.check (nearClose + 10 * second)] rfl (by decide +kernel)
    (by decide +kernel) (by decide +kernel)).1.trans (by decide +kernel)

end Heard

section Transitions
variable {w : World} {l : ℕ} {created d : ℤ} {pre : List Event} {ts : List ℤ}

/-- The time, from that of the clock of `Asia/Kolkata`. -/
def fromIst (t : ℤ) : ℤ := t - (5 * hour + 30 * minute)

theorem ist_fromIst (t : ℤ) : ist (fromIst t) = t := sub_add_cancel t _

theorem fromIst_ist (t : ℤ) : fromIst (ist t) = t := add_sub_cancel_right t _

/-- What the looks at the clock of a loop that runs on add to the calls. -/
theorem World.calls_checks (halive : w.alive = true) (hrunning : w.running = true) (ts : List ℤ) :
    let w' := (ts.map Event.check).foldl World.step w
    w'.seen = ts.getLastD w.seen ∧
      w'.calls = w.calls ++ (timetable.reports w.phase (ts.map ist)).flatMap fun t =>
        w.listeners.map fun l => ⟨l, phaseValue (timetable.inForce t), fromIst t⟩ := by
  induction ts generalizing w with
  | nil => exact ⟨rfl, (List.append_nil _).symm⟩
  | cons t ts ih =>
    rw [List.map_cons, List.map_cons, List.foldl_cons, List.getLastD_cons, Timetable.reports,
      ← computePhase_eq]
    by_cases hsame : computePhase t = w.phase
    · have hstep : w.step (.check t) = { w with seen := t, alive := w.running } := by
        rw [World.step, if_pos halive]
        exact if_pos hsame
      rw [if_pos hsame, hstep]
      exact ih hrunning hrunning
    · have hstep : w.step (.check t) =
          { w with
            phase := computePhase t
            seen := t
            alive := w.running
            calls := w.calls ++
              w.listeners.map fun l => ⟨l, phaseValue (computePhase t), t⟩ } := by
        rw [World.step, if_pos halive]
        exact if_neg hsame
      rw [if_neg hsame, hstep]
      refine ⟨(ih (by exact hrunning) (by exact hrunning)).1,
        (ih (by exact hrunning) (by exact hrunning)).2.trans ?_⟩
      rw [List.flatMap_cons, ← computePhase_eq, fromIst_ist, List.append_assoc]

theorem World.callsTo_checks (halive : w.alive = true) (hrunning : w.running = true)
    (hl : w.listeners.count l = 1) (ts : List ℤ) :
    let w' := (ts.map Event.check).foldl World.step w
    w'.callsTo l = w.callsTo l ++ (timetable.reports w.phase (ts.map ist)).map fun t =>
      ⟨l, phaseValue (timetable.inForce t), fromIst t⟩ := by
  intro w'
  have hown (t : ℤ) : (w.listeners.map fun l' =>
      (⟨l', phaseValue (timetable.inForce t), fromIst t⟩ : Call)).filter (fun c => c.listener = l) =
        [⟨l, phaseValue (timetable.inForce t), fromIst t⟩] := by
    rw [List.filter_map]
    change (w.listeners.filter fun l' => l' = l).map _ = _
    rw [List.filter_eq, hl]
    rfl
  rw [World.callsTo, (World.calls_checks halive hrunning ts).2, List.filter_append,
    List.filter_flatMap, List.map_eq_flatMap (l := timetable.reports w.phase (ts.map ist))]
  simp only [hown]
  rfl

/-- While the loop runs on and looks before a phase can be over, a listener is told of each phase
that begins, once and in turn, before the gap between two looks has passed. -/
theorem phases_told_once (created : ℤ) (pre : List Event) (ts : List ℤ) (l : ℕ)
    (halive : (World.run created pre).alive = true)
    (hrunning : (World.run created pre).running = true)
    (hl : (World.run created pre).listeners.count l = 1) (hd : d ≤ 10 * minute)
    (hoften : ((World.run created pre).seen :: ts).IsChain fun a b => a ≤ b ∧ b < a + d) :
    let w := World.run created pre
    let w' := World.run created (pre ++ ts.map .check)
    ∃ calls, w'.callsTo l = w.callsTo l ++ calls ∧
      calls.map (fun c => timetable.begun (ist c.time)) =
        (List.range (timetable.begun (ist w'.seen) - timetable.begun (ist w.seen)).toNat).map
          (fun i : ℕ => timetable.begun (ist w.seen) + 1 + i) ∧
      ∀ c ∈ calls, c.phaseName = phaseValue (timetable.value (timetable.begun (ist c.time))) ∧
        ist c.time < timetable.start (timetable.begun (ist c.time)) + d := by
  intro w w'
  have hrun : w' = (ts.map Event.check).foldl World.step w := List.foldl_append
  have hseen : ist w'.seen = (ts.map ist).getLastD (ist w.seen) := by
    rw [hrun, (World.calls_checks halive hrunning ts).1, List.getLastD_map]
  have hphase : w.phase = timetable.inForce (ist w.seen) :=
    (World.phase_eq created pre).trans (computePhase_eq _)
  have hclock : (ist w.seen :: ts.map ist).IsChain fun a b => a ≤ b ∧ b < a + d := by
    rw [← List.map_cons, List.isChain_map]
    exact hoften.imp fun a b h => ⟨by rw [ist, ist]; omega, by rw [ist, ist]; omega⟩
  have hlasts : timetable.Lasts d := fun k => by
    have := lasts k
    omega
  refine ⟨_, by rw [hrun]; exact World.callsTo_checks halive hrunning hl ts, ?_, ?_⟩
  · rw [hphase, List.map_map, hseen, ← timetable.map_begun_reports varies hlasts hclock]
    exact List.map_congr_left fun t _ => congrArg timetable.begun (ist_fromIst t)
  · rw [hphase]
    intro c hc
    obtain ⟨t, ht, rfl⟩ := List.mem_map.mp hc
    rw [ist_fromIst]
    exact ⟨rfl, timetable.reports_soon hclock t ht⟩

theorem phases_told_once_close :
    ∃ calls, (World.run nearClose ([.addListener 0, .start nearClose] ++
        [nearClose + 10 * second, nearClose + 20 * second].map .check)).callsTo 0 =
      [⟨0, "CLOSING", nearClose⟩] ++ calls ∧ calls.map Call.phaseName = ["POST_CLOSE"] := by
  obtain ⟨calls, hcalls, hbegun, htold⟩ := phases_told_once nearClose
    [.addListener 0, .start nearClose] [nearClose + 10 * second, nearClose + 20 * second] 0
    (by decide +kernel) (by decide +kernel) (by decide +kernel) le_rfl (by decide +kernel)
  refine ⟨calls, hcalls, ?_⟩
  have hnumbers := hbegun.trans (by decide +kernel :
    _ = [timetable.begun (ist (nearClose + 10 * second))])
  obtain ⟨c, rfl, hc⟩ := List.map_eq_singleton_iff.mp hnumbers
  rw [List.map_singleton, (htold c (List.mem_singleton_self c)).1, hc]
  decide +kernel

/-- The days, numbered from the epoch in UTC, that the listener archives: `on_phase_change` of the
feature archiver starts the archive of the day on which it hears of the close. -/
def archiveDays (calls : List Call) : List ℤ :=
  calls.filterMap fun c =>
    if phaseOfName c.phaseName = some .postClose then some (c.time / day) else none

/-- The number of the close of a day. -/
def closeOf (date : ℤ) : ℤ := 7 + date * 7

theorem start_closeOf (date : ℤ) :
    timetable.start (closeOf date) = date * day + (15 * hour + 30 * minute) := by
  have hfirst : timetable.start 7 = 15 * hour + 30 * minute := by decide +kernel
  rw [closeOf, show (7 : ℤ) + date * 7 = 7 + date * timetable.size from rfl,
    timetable.start_add_mul, hfirst, add_comm]
  rfl

theorem value_eq_postClose (k : ℤ) : timetable.value k = .postClose → ∃ date, k = closeOf date := by
  refine timetable.forall_of_period (P := fun k => timetable.value k = .postClose →
    ∃ date, k = closeOf date) (fun k q hk h => ?_) (fun i hi h => ?_) k
  · rw [timetable.value_add_mul] at h
    obtain ⟨date, rfl⟩ := hk h
    exact ⟨date + q, by rw [closeOf, closeOf, show (timetable.size : ℤ) = 7 from rfl]; ring⟩
  · have hlast : ∀ i : ℕ, i < 7 → timetable.value (i + 1) = .postClose → i = 6 := by
      decide +kernel
    exact ⟨0, by rw [hlast i hi h]; rfl⟩

theorem value_closeOf (date : ℤ) : timetable.value (closeOf date) = .postClose := by
  rw [closeOf, show (7 : ℤ) + date * 7 = 7 + date * timetable.size from rfl,
    timetable.value_add_mul]
  decide +kernel

/-- A call about a phase that has just begun archives a day exactly if it is the close of it. -/
theorem archives_iff {c : Call} (hd : d ≤ 10 * minute)
    (hname : c.phaseName = phaseValue (timetable.value (timetable.begun (ist c.time))))
    (hsoon : ist c.time < timetable.start (timetable.begun (ist c.time)) + d) (date : ℤ) :
    phaseOfName c.phaseName = some .postClose ∧ c.time / day = date ↔
      timetable.begun (ist c.time) = closeOf date := by
  have hbegan := timetable.start_begun_le (ist c.time)
  have hdate (date' : ℤ) (h : timetable.begun (ist c.time) = closeOf date') :
      c.time / day = date' := by
    rw [h, start_closeOf] at hbegan hsoon
    simp only [ist, day, hour, minute, second] at *
    omega
  rw [hname, phaseOfName_phaseValue, Option.some.injEq]
  constructor
  · rintro ⟨hclose, rfl⟩
    obtain ⟨date', hdate'⟩ := value_eq_postClose _ hclose
    rw [hdate date' hdate', hdate']
  · intro h
    exact ⟨by rw [h, value_closeOf], hdate date h⟩

theorem count_archiveDays {calls : List Call} {date k : ℤ} {number : Call → ℤ}
    (h : ∀ c ∈ calls, phaseOfName c.phaseName = some .postClose ∧ c.time / day = date ↔
      number c = k) : (archiveDays calls).count date = (calls.map number).count k := by
  induction calls with
  | nil => rfl
  | cons c calls ih =>
    obtain ⟨hc, hcalls⟩ := List.forall_mem_cons.mp h
    rw [archiveDays, List.map_cons, List.count_cons, ← ih hcalls, List.filterMap_cons, archiveDays]
    by_cases hclose : phaseOfName c.phaseName = some .postClose
    · simp only [hclose, true_and, if_true] at hc ⊢
      rw [List.count_cons]
      simp only [beq_iff_eq, hc]
    · have hk : number c ≠ k := fun heq => hclose (hc.mpr heq).1
      simp only [hclose, if_false, beq_iff_eq, hk, Nat.add_zero]

theorem count_numbers (b k : ℤ) (n : ℕ) :
    ((List.range n).map fun i : ℕ => b + 1 + i).count k = if b < k ∧ k ≤ b + n then 1 else 0 := by
  have hnodup : ((List.range n).map fun i : ℕ => b + 1 + i).Nodup :=
    List.nodup_range.map fun i j (h : b + 1 + i = b + 1 + j) => by omega
  rw [hnodup.count]
  refine if_congr ?_ rfl rfl
  rw [List.mem_map]
  constructor
  · rintro ⟨i, hi, rfl⟩
    rw [List.mem_range] at hi
    omega
  · rintro ⟨hlt, hle⟩
    exact ⟨(k - b - 1).toNat, List.mem_range.mpr (by omega), by omega⟩

/-- While the loop runs on and looks before a phase can be over, the features of a day are archived
once if the close of the day passes, and else not. -/
theorem archived_once (created : ℤ) (pre : List Event) (ts : List ℤ) (l : ℕ)
    (halive : (World.run created pre).alive = true)
    (hrunning : (World.run created pre).running = true)
    (hl : (World.run created pre).listeners.count l = 1)
    (hoften : ((World.run created pre).seen :: ts).IsChain fun a b => a ≤ b ∧ b < a + 10 * minute)
    (date : ℤ) :
    let w := World.run created pre
    let w' := World.run created (pre ++ ts.map .check)
    (archiveDays (w'.callsTo l)).count date = (archiveDays (w.callsTo l)).count date +
      if w.seen < date * day + 10 * hour ∧ date * day + 10 * hour ≤ w'.seen then 1 else 0 := by
  intro w w'
  obtain ⟨calls, hcalls, hbegun, hsoon⟩ :=
    phases_told_once created pre ts l halive hrunning hl le_rfl hoften
  have hle : w.seen ≤ w'.seen := by
    have hrun : w' = (ts.map Event.check).foldl World.step w := List.foldl_append
    rw [hrun, (World.calls_checks halive hrunning ts).1]
    exact Timetable.le_getLastD (hoften.imp fun _ _ h => h.1)
  have hmono : timetable.begun (ist w.seen) ≤ timetable.begun (ist w'.seen) :=
    timetable.begun_mono (add_le_add_left hle _)
  have hnew : (archiveDays calls).count date =
      if w.seen < date * day + 10 * hour ∧ date * day + 10 * hour ≤ w'.seen then 1 else 0 := by
    rw [count_archiveDays fun c hc => archives_iff le_rfl (hsoon c hc).1 (hsoon c hc).2 date,
      hbegun, count_numbers]
    refine if_congr (and_congr ?_ ?_) rfl rfl
    · rw [← not_le, ← timetable.start_le_iff, start_closeOf, not_le, ist]
      simp only [day, hour, minute, second, w]
      omega
    · rw [Int.toNat_of_nonneg (sub_nonneg.mpr hmono), add_sub_cancel, ← timetable.start_le_iff,
        start_closeOf, ist]
      simp only [day, hour, minute, second, w']
      omega
  rw [hcalls, archiveDays, List.filterMap_append, List.count_append]
  exact congrArg _ hnew

theorem archived_once_close :
    (archiveDays ((World.run nearClose ([.addListener 0, .start nearClose] ++
      [nearClose + 10 * second, nearClose + 20 * second].map .check)).callsTo 0)).count 20458 =
      1 :=
  (archived_once nearClose [.addListener 0, .start nearClose]
    [nearClose + 10 * second, nearClose + 20 * second] 0 (by decide +kernel) (by decide +kernel)
    (by decide +kernel) (by decide +kernel) 20458).trans (by decide +kernel)

end Transitions

end QuantEmbrace.PhaseGovernor
