import QuantEmbrace.Lib.GuardedRun
import QuantEmbrace.StrategyRunner

/-! What a runner lets out, whatever its strategy answers: the configuration in force, the
circuit, the daily cap and the paper flag, over any sequence of dispatches and reloads. -/
namespace QuantEmbrace.Strategies
open GuardedRun Indicators Candles

/-- A runner without its strategy. -/
structure Gate where
  config : StrategyConfig
  circuit : CircuitBreaker := {}
  signalsToday : ℕ := 0
  capDate : ℤ
  deriving DecidableEq, Repr

/-- What a dispatch leaves behind, whether the strategy was called, and the signal returned. -/
structure Dispatched where
  gate : Gate
  ran : Bool
  returned : Option Signal
  deriving DecidableEq, Repr

/-- A success does not open the circuit. -/
theorem CircuitBreaker.recordSuccess_state_ne {c : CircuitBreaker} {now : ℚ}
    (h : c.state ≠ .opened) : (c.recordSuccess now).state ≠ .opened := by
  rw [recordSuccess]
  cases hstate : c.state with
  | opened => exact absurd hstate h
  | closed => simp [evictOldErrors, hstate]
  | halfOpen =>
    simp only [evictOldErrors, hstate]
    split <;> simp [transitionToClosed]

/-- A failure leaves the state as it is, or opens the circuit and records the time. -/
theorem CircuitBreaker.recordFailure_cases (c : CircuitBreaker) (cfg : StrategyConfig) (now : ℚ) :
    (c.recordFailure cfg now).state = c.state ∨ (c.recordFailure cfg now).openAt = some now := by
  rw [recordFailure]
  generalize hrecorded : evictOldErrors _ now = recorded
  have hstate : recorded.state = c.state := by
    rw [← hrecorded]
    rfl
  split
  · exact .inl hstate
  · exact .inr rfl
  · split
    · exact .inr rfl
    · exact .inl hstate

namespace Gate

def circuitAt (now : Moment) (g : Gate) : CircuitBreaker :=
  g.circuit.checkHalfOpenTransition now.monotonic

/-- `_should_dispatch`: enabled, and the circuit is not open when it is looked at. -/
def Passes (now : Moment) (g : Gate) : Prop :=
  g.config.enabled = true ∧ (g.circuitAt now).state ≠ .opened

instance (now : Moment) (g : Gate) : Decidable (g.Passes now) := instDecidableAnd

/-- `reset_daily_cap`, if the date is another one -/
def rollOver (now : Moment) (g : Gate) : Gate :=
  if now.today = g.capDate then g else { g with signalsToday := 0, capDate := now.today }

def CapReached (g : Gate) : Prop :=
  0 < g.config.maxSignalsPerDay ∧ g.config.maxSignalsPerDay ≤ g.signalsToday

instance (g : Gate) : Decidable g.CapReached := instDecidableAnd

/-- `_check_cap` and `_apply_paper_flag` -/
def admitSignal (now : Moment) (signal : Signal) (g : Gate) : Gate × Option Signal :=
  let g := g.rollOver now
  if g.CapReached then (g, none)
  else ({ g with signalsToday := g.signalsToday + 1 },
    some { signal with paperTrade := g.config.paperTrade })

/-- `dispatch_tick` and `dispatch_bar`: the gate is read when the dispatch begins, the outcome
is recorded when the strategy is through. -/
def dispatch (began ended : Moment) (answer : Outcome) (g : Gate) : Dispatched :=
  if g.config.enabled then
    let g := { g with circuit := g.circuitAt began }
    if g.circuit.state = .opened then ⟨g, false, none⟩
    else match answer with
      | .error _ =>
        ⟨{ g with circuit := g.circuit.recordFailure g.config ended.monotonic }, true, none⟩
      | .ok produced =>
        let g := { g with circuit := g.circuit.recordSuccess ended.monotonic }
        match produced with
        | none => ⟨g, true, none⟩
        | some signal => ⟨(g.admitSignal ended signal).1, true, (g.admitSignal ended signal).2⟩
  else ⟨g, false, none⟩

def applyConfig (config : StrategyConfig) (resetCb : Bool) (g : Gate) : Gate :=
  { g with
    config := config
    circuit := if resetCb then CircuitBreaker.transitionToClosed else g.circuit }

end Gate

inductive GateEvent where
  | dispatch (began ended : Moment) (answer : Outcome)
  | applyConfig (config : StrategyConfig) (resetCb : Bool)

namespace GateEvent

/-- The readings of the clock that the event makes. -/
def moments : GateEvent → List Moment
  | dispatch began ended _ => [began, ended]
  | applyConfig _ _ => []

/-- A reload with `circuit_breaker_reset` set. -/
def IsReset : GateEvent → Prop
  | dispatch _ _ _ => False
  | applyConfig _ resetCb => resetCb = true

instance : DecidablePred IsReset
  | dispatch _ _ _ => inferInstanceAs (Decidable False)
  | applyConfig _ resetCb => inferInstanceAs (Decidable (resetCb = true))

end GateEvent

/-- Both clocks go forward only. -/
def Moment.Before (m n : Moment) : Prop := m.monotonic ≤ n.monotonic ∧ m.today ≤ n.today

instance (m n : Moment) : Decidable (m.Before n) := instDecidableAnd

/-- The clock never goes back, from the day on which the runner was made. -/
def ClockForward (today : ℤ) (es : List GateEvent) : Prop :=
  (∀ m ∈ es.flatMap GateEvent.moments, today ≤ m.today) ∧
    (es.flatMap GateEvent.moments).Pairwise Moment.Before

instance (today : ℤ) (es : List GateEvent) : Decidable (ClockForward today es) :=
  instDecidableAnd

namespace Gate

/-- A new runner. -/
def start (config : StrategyConfig) (today : ℤ) : Gate where
  config := config
  capDate := today

def take (g : Gate) : GateEvent → Dispatched
  | .dispatch began ended answer => g.dispatch began ended answer
  | .applyConfig config resetCb => ⟨g.applyConfig config resetCb, false, none⟩

def next (g : Gate) (e : GateEvent) : Gate := (g.take e).gate

def run (g : Gate) (es : List GateEvent) : Gate := es.foldl next g

@[simp] theorem next_dispatch (g : Gate) (began ended : Moment) (answer : Outcome) :
    g.next (.dispatch began ended answer) = (g.dispatch began ended answer).gate := rfl

@[simp] theorem run_nil (g : Gate) : g.run [] = g := rfl

@[simp] theorem run_cons (g : Gate) (e : GateEvent) (es : List GateEvent) :
    g.run (e :: es) = (g.next e).run es := rfl

theorem run_append (g : Gate) (es fs : List GateEvent) : g.run (es ++ fs) = (g.run es).run fs :=
  List.foldl_append

/-- Whether a signal comes back from the event on that day. -/
def ReturnsOn (day : ℤ) (g : Gate) : GateEvent → Prop
  | .dispatch began ended answer =>
    ended.today = day ∧ (g.dispatch began ended answer).returned.isSome = true
  | .applyConfig _ _ => False

instance (day : ℤ) (g : Gate) : DecidablePred (g.ReturnsOn day)
  | .dispatch _ _ _ => instDecidableAnd
  | .applyConfig _ _ => inferInstanceAs (Decidable False)

/-- The signals returned between two midnights. -/
def returnedOn (day : ℤ) : Gate → List GateEvent → ℕ
  | _, [] => 0
  | g, e :: es => (if g.ReturnsOn day e then 1 else 0) + returnedOn day (g.next e) es

/-- A dispatch of that day finds a positive cap in force, and none above `most`. -/
def CapWithin (day : ℤ) (most : ℕ) (g : Gate) : GateEvent → Prop
  | .dispatch _ ended _ => ended.today = day →
    0 < g.config.maxSignalsPerDay ∧ g.config.maxSignalsPerDay ≤ most
  | .applyConfig _ _ => True

instance (day : ℤ) (most : ℕ) (g : Gate) : DecidablePred (g.CapWithin day most)
  | .dispatch _ ended _ => inferInstanceAs (Decidable (ended.today = day → _ ∧ _))
  | .applyConfig _ _ => inferInstanceAs (Decidable True)

/-- A dispatch finds the circuit in another state and leaves it OPEN when it ends, at that
time. -/
def OpensAt (t : ℚ) (g : Gate) : GateEvent → Prop
  | .dispatch began ended answer => ended.monotonic = t ∧ g.Passes began ∧
    (g.dispatch began ended answer).gate.circuit.state = .opened
  | .applyConfig _ _ => False

instance (t : ℚ) (g : Gate) : DecidablePred (g.OpensAt t)
  | .dispatch _ _ _ => instDecidableAnd
  | .applyConfig _ _ => inferInstanceAs (Decidable False)

variable {g : Gate} {began ended now : Moment} {answer : Outcome} {signal : Signal}

@[simp] theorem rollOver_config : (g.rollOver now).config = g.config := by
  rw [rollOver]
  split <;> rfl

@[simp] theorem rollOver_circuit : (g.rollOver now).circuit = g.circuit := by
  rw [rollOver]
  split <;> rfl

@[simp] theorem rollOver_capDate : (g.rollOver now).capDate = now.today := by
  rw [rollOver]
  split
  · next h => exact h.symm
  · rfl

@[simp] theorem admitSignal_circuit : (g.admitSignal now signal).1.circuit = g.circuit := by
  rw [admitSignal]
  split <;> simp

@[simp] theorem admitSignal_capDate : (g.admitSignal now signal).1.capDate = now.today := by
  rw [admitSignal]
  split <;> simp

theorem dispatch_passes (h : g.Passes began) : g.dispatch began ended answer =
    match answer with
    | .error _ =>
      ⟨{ g with circuit := (g.circuitAt began).recordFailure g.config ended.monotonic },
        true, none⟩
    | .ok none =>
      ⟨{ g with circuit := (g.circuitAt began).recordSuccess ended.monotonic }, true, none⟩
    | .ok (some signal) =>
      let h := { g with circuit := (g.circuitAt began).recordSuccess ended.monotonic }
      ⟨(h.admitSignal ended signal).1, true, (h.admitSignal ended signal).2⟩ := by
  rw [dispatch, if_pos h.1]
  dsimp only
  rw [if_neg h.2]
  cases answer with
  | error raised => rfl
  | ok produced => cases produced <;> rfl

/-- What a dispatch can do: nothing, since the gate is shut; record a failure; or record a
success and hand the signal, if any, to the daily cap. -/
theorem dispatch_cases (g : Gate) (began ended : Moment) (answer : Outcome) :
    (¬ g.Passes began ∧ ∃ c, (c = g.circuit ∨ c = g.circuitAt began) ∧
      g.dispatch began ended answer = ⟨{ g with circuit := c }, false, none⟩) ∨
    (g.Passes began ∧ (∃ raised, answer = .error raised) ∧ g.dispatch began ended answer =
      ⟨{ g with circuit := (g.circuitAt began).recordFailure g.config ended.monotonic },
        true, none⟩) ∨
    (g.Passes began ∧ answer = .ok none ∧ g.dispatch began ended answer =
      ⟨{ g with circuit := (g.circuitAt began).recordSuccess ended.monotonic }, true, none⟩) ∨
    (g.Passes began ∧ ∃ signal, answer = .ok (some signal) ∧
      ∃ h, h = { g with circuit := (g.circuitAt began).recordSuccess ended.monotonic } ∧
      g.dispatch began ended answer =
        ⟨(h.admitSignal ended signal).1, true, (h.admitSignal ended signal).2⟩) := by
  by_cases hpasses : g.Passes began
  · right
    rw [dispatch_passes hpasses]
    cases answer with
    | error raised => exact .inl ⟨hpasses, ⟨raised, rfl⟩, rfl⟩
    | ok produced =>
      cases produced with
      | none => exact .inr (.inl ⟨hpasses, rfl, rfl⟩)
      | some signal => exact .inr (.inr ⟨hpasses, signal, rfl, _, rfl, rfl⟩)
  · left
    refine ⟨hpasses, ?_⟩
    rw [dispatch]
    by_cases henabled : g.config.enabled = true
    · have hopen : (g.circuitAt began).state = .opened := by
        by_contra hshut
        exact hpasses ⟨henabled, hshut⟩
      exact ⟨_, .inr rfl, by simp [henabled, hopen]⟩
    · exact ⟨_, .inl rfl, by simp [henabled]⟩

/-- What a dispatch returns has passed the gate and carries its flag. -/
theorem dispatch_returned (h : (g.dispatch began ended answer).returned = some signal) :
    g.Passes began ∧ signal.paperTrade = g.config.paperTrade ∧
      (g.dispatch began ended answer).gate.circuit.state ≠ .opened := by
  rcases dispatch_cases g began ended answer with
    ⟨_, c, _, heq⟩ | ⟨_, _, heq⟩ | ⟨_, _, heq⟩ | ⟨hpasses, produced, _, x, rfl, heq⟩
  · simp [heq] at h
  · simp [heq] at h
  · simp [heq] at h
  · rw [heq] at h
    rw [heq, admitSignal_circuit]
    refine ⟨hpasses, ?_, CircuitBreaker.recordSuccess_state_ne hpasses.2⟩
    rw [admitSignal] at h
    split at h
    · cases h
    · cases h
      simp

/-- The gate changes nothing in a signal but the flag. -/
theorem dispatch_returned_eq {produced : Signal}
    (h : (g.dispatch began ended (.ok (some produced))).returned = some signal) :
    ∃ flag, signal = { produced with paperTrade := flag } := by
  rw [dispatch_passes (dispatch_returned h).1] at h
  dsimp only [admitSignal] at h
  split at h
  · cases h
  · cases h
    exact ⟨_, rfl⟩

/-- What was counted so far on that day. -/
def usedOn (day : ℤ) (g : Gate) : ℕ := if g.capDate = day then g.signalsToday else 0

theorem rollOver_signalsToday : (g.rollOver now).signalsToday = g.usedOn now.today := by
  rw [rollOver, usedOn]
  by_cases h : now.today = g.capDate
  · rw [if_pos h, if_pos h.symm]
  · rw [if_neg h, if_neg (Ne.symm h)]

/-- The count goes up with each signal returned, and only below a positive cap. -/
theorem admitSignal_usedOn : (g.admitSignal now signal).1.usedOn now.today =
      g.usedOn now.today + (if (g.admitSignal now signal).2.isSome then 1 else 0) ∧
    ((g.admitSignal now signal).2.isSome = true → 0 < g.config.maxSignalsPerDay →
      (g.usedOn now.today : ℤ) < g.config.maxSignalsPerDay) := by
  have hused : (g.rollOver now).signalsToday = g.usedOn now.today := rollOver_signalsToday
  rw [usedOn, admitSignal_capDate, if_pos rfl, admitSignal]
  split
  · next hreached => exact ⟨by simpa using hused, by simp⟩
  · next hfree =>
    rw [CapReached, rollOver_config, hused] at hfree
    refine ⟨by simpa using hused, ?_⟩
    intro _ hpos
    omega

theorem dispatch_usedOn : (g.dispatch began ended answer).gate.usedOn ended.today =
      g.usedOn ended.today + (if (g.dispatch began ended answer).returned.isSome then 1 else 0) ∧
    ((g.dispatch began ended answer).returned.isSome = true → 0 < g.config.maxSignalsPerDay →
      (g.usedOn ended.today : ℤ) < g.config.maxSignalsPerDay) := by
  rcases dispatch_cases g began ended answer with
    ⟨_, c, _, heq⟩ | ⟨_, _, heq⟩ | ⟨_, _, heq⟩ | ⟨_, produced, _, x, rfl, heq⟩
  · simp [heq, usedOn]
  · simp [heq, usedOn]
  · simp [heq, usedOn]
  · rw [heq]
    exact admitSignal_usedOn

/-- The date of the count stays, with the count, or becomes that of the dispatch. -/
theorem dispatch_capDate : ((g.dispatch began ended answer).gate.capDate = g.capDate ∧
      (g.dispatch began ended answer).gate.signalsToday = g.signalsToday) ∨
    (g.dispatch began ended answer).gate.capDate = ended.today := by
  rcases dispatch_cases g began ended answer with
    ⟨_, c, _, heq⟩ | ⟨_, _, heq⟩ | ⟨_, _, heq⟩ | ⟨_, produced, _, x, rfl, heq⟩
  · simp [heq]
  · simp [heq]
  · simp [heq]
  · right
    rw [heq, admitSignal_capDate]

/-- Once the day is over nothing is returned on it. -/
theorem returnedOn_past {day : ℤ} (g : Gate) {es : List GateEvent}
    (h : ∀ m ∈ es.flatMap GateEvent.moments, day < m.today) : returnedOn day g es = 0 := by
  induction es generalizing g with
  | nil => rfl
  | cons e es ih =>
    rw [List.flatMap_cons, List.forall_mem_append] at h
    have hnot : ¬ g.ReturnsOn day e := by
      cases e with
      | dispatch began ended answer =>
        intro hreturns
        have hlater := h.1 ended (by simp [GateEvent.moments])
        exact absurd hreturns.1 (by omega)
      | applyConfig config resetCb => exact not_false
    rw [returnedOn, if_neg hnot, ih (g.next e) h.2]

theorem capDate_next_le {date : ℤ} (hdate : g.capDate ≤ date) (hended : ended.today ≤ date) :
    (g.next (.dispatch began ended answer)).capDate ≤ date := by
  obtain hsame | hrolled := @dispatch_capDate g began ended answer
  · exact hsame.1.le.trans hdate
  · exact hrolled.le.trans hended

/-- With the caps within `most`, what is counted and what is still returned stay within it. -/
theorem returnedOn_le {day : ℤ} {most : ℕ} {g : Gate} {es : List GateEvent}
    (hdays : ∀ m ∈ es.flatMap GateEvent.moments, g.capDate ≤ m.today)
    (hforward : (es.flatMap GateEvent.moments).Pairwise Moment.Before)
    (hcap : StepsMeet next (CapWithin day most) g es) :
    g.usedOn day + returnedOn day g es ≤ max most (g.usedOn day) := by
  induction es generalizing g with
  | nil => simp [returnedOn]
  | cons e es ih =>
    rw [List.flatMap_cons, List.pairwise_append] at hforward
    rw [List.flatMap_cons, List.forall_mem_append] at hdays
    rw [returnedOn]
    cases e with
    | applyConfig config resetCb =>
      have hrest := ih (g := g.applyConfig config resetCb) hdays.2 hforward.2.1 hcap.2
      have hno : ¬ g.ReturnsOn day (.applyConfig config resetCb) := not_false
      rw [if_neg hno, zero_add]
      exact hrest
    | dispatch began ended answer =>
      have hlater : ∀ m ∈ es.flatMap GateEvent.moments, ended.today ≤ m.today := fun m hm =>
        (hforward.2.2 ended (by simp [GateEvent.moments]) m hm).2
      have hended : g.capDate ≤ ended.today := hdays.1 ended (by simp [GateEvent.moments])
      have hnext : ∀ m ∈ es.flatMap GateEvent.moments,
          (g.next (.dispatch began ended answer)).capDate ≤ m.today :=
        fun m hm => capDate_next_le (hdays.2 m hm) (hlater m hm)
      have hrest := ih hnext hforward.2.1 hcap.2
      by_cases htoday : ended.today = day
      · subst htoday
        have hused := @dispatch_usedOn g began ended answer
        have hwithin := hcap.1 rfl
        by_cases hreturned : (g.dispatch began ended answer).returned.isSome = true
        · have hbelow := hused.2 hreturned hwithin.1
          rw [hreturned, if_pos rfl] at hused
          have hyes : g.ReturnsOn ended.today (.dispatch began ended answer) := ⟨rfl, hreturned⟩
          rw [if_pos hyes]
          rw [next_dispatch, hused.1] at hrest
          rw [next_dispatch]
          omega
        · have hno : ¬ g.ReturnsOn ended.today (.dispatch began ended answer) :=
            fun h => hreturned h.2
          rw [if_neg hno, zero_add]
          rw [if_neg hreturned, add_zero] at hused
          rwa [next_dispatch, hused.1] at hrest
      · have hno : ¬ g.ReturnsOn day (.dispatch began ended answer) := fun h => htoday h.1
        rw [if_neg hno, zero_add]
        by_cases hold : g.capDate = day
        · have hpast : ∀ m ∈ es.flatMap GateEvent.moments, day < m.today := fun m hm => by
            have hm := hlater m hm
            omega
          rw [returnedOn_past _ hpast]
          omega
        · rw [usedOn, if_neg hold]
          omega

/-- The circuit has been open since that time. -/
def OpenSince (t : ℚ) (g : Gate) : Prop :=
  g.circuit.state = .opened ∧ g.circuit.openAt = some t

/-- Before the reset time a dispatch of an open gate does nothing. -/
theorem OpenSince.dispatch {t : ℚ} (h : g.OpenSince t) (ht : began.monotonic < t + resetSeconds) :
    g.dispatch began ended answer = ⟨g, false, none⟩ := by
  have hstill : g.circuitAt began = g.circuit := by
    rw [circuitAt, CircuitBreaker.checkHalfOpenTransition, h.1, h.2]
    exact if_neg (by linarith)
  by_cases henabled : g.config.enabled = true
  · simp [Gate.dispatch, henabled, hstill, h.1]
  · simp [Gate.dispatch, henabled]

/-- An open gate stays open through everything but a reset, until the reset time. -/
theorem OpenSince.run {t : ℚ} (h : g.OpenSince t) {es : List GateEvent}
    (hresets : ∀ e ∈ es, ¬ e.IsReset)
    (ht : ∀ m ∈ es.flatMap GateEvent.moments, m.monotonic < t + resetSeconds) :
    (g.run es).OpenSince t := by
  induction es generalizing g with
  | nil => exact h
  | cons e es ih =>
    rw [List.flatMap_cons, List.forall_mem_append] at ht
    rw [List.forall_mem_cons] at hresets
    rw [run_cons]
    refine ih ?_ hresets.2 ht.2
    cases e with
    | dispatch began ended answer =>
      rw [next_dispatch, h.dispatch (ht.1 began (by simp [GateEvent.moments]))]
      exact h
    | applyConfig config resetCb =>
      have hkeeps : ¬ resetCb = true := hresets.1
      exact ⟨(congrArg _ (if_neg hkeeps)).trans h.1, (congrArg _ (if_neg hkeeps)).trans h.2⟩

/-- The time at which the circuit opens is on record. -/
theorem OpensAt.openSince {t : ℚ} {e : GateEvent} (h : g.OpensAt t e) :
    (g.next e).OpenSince t := by
  cases e with
  | applyConfig config resetCb => exact absurd h not_false
  | dispatch began ended answer =>
    obtain ⟨rfl, hpasses, hopened⟩ := h
    refine ⟨hopened, ?_⟩
    rw [next_dispatch]
    rcases dispatch_cases g began ended answer with
      ⟨hclosed, c, hc, heq⟩ | ⟨_, _, heq⟩ | ⟨_, _, heq⟩ | ⟨_, produced, _, x, rfl, heq⟩
    · exact absurd hpasses hclosed
    · rw [heq] at hopened ⊢
      refine (CircuitBreaker.recordFailure_cases _ _ _).resolve_left fun hsame => ?_
      exact hpasses.2 (hsame.symm.trans hopened)
    · rw [heq] at hopened
      exact absurd hopened (CircuitBreaker.recordSuccess_state_ne hpasses.2)
    · rw [heq, admitSignal_circuit] at hopened
      exact absurd hopened (CircuitBreaker.recordSuccess_state_ne hpasses.2)

/-- A signal comes back from a dispatch that got through, with the flag in force. -/
def LetsOut (g : Gate) (e : GateEvent) : Prop :=
  ∀ signal, (g.take e).returned = some signal →
    g.config.enabled = true ∧ signal.paperTrade = g.config.paperTrade ∧
      (g.next e).circuit.state ≠ .opened ∧
      ∀ began ended answer, e = .dispatch began ended answer → (g.circuitAt began).state ≠ .opened

theorem letsOut (g : Gate) (e : GateEvent) : g.LetsOut e := by
  intro signal h
  cases e with
  | applyConfig config resetCb => cases h
  | dispatch began ended answer =>
    obtain ⟨hpasses, hflag, hshut⟩ := dispatch_returned h
    refine ⟨hpasses.1, hflag, hshut, ?_⟩
    rintro _ _ _ ⟨⟩
    exact hpasses.2

/-- After a dispatch that opens the circuit at `t`, and until the reset time, no dispatch calls
the strategy, unless there was a manual reset. -/
def RestsAfterOpening (g : Gate) (es : List GateEvent) : Prop :=
  ∀ before opening between began ended answer later t,
    es = before ++ opening :: (between ++ .dispatch began ended answer :: later) →
    (g.run before).OpensAt t opening → (∀ e ∈ between, ¬ e.IsReset) →
    began.monotonic < t + resetSeconds →
    ((g.run (before ++ opening :: between)).dispatch began ended answer).ran = false

theorem restsAfterOpening (g : Gate) {es : List GateEvent}
    (hforward : (es.flatMap GateEvent.moments).Pairwise Moment.Before) :
    g.RestsAfterOpening es := by
  rintro before opening between began ended answer later t rfl hopens hresets ht
  have hbetween : ∀ m ∈ between.flatMap GateEvent.moments, m.monotonic < t + resetSeconds := by
    intro m hm
    refine lt_of_le_of_lt ?_ ht
    simp only [List.flatMap_append, List.flatMap_cons, List.pairwise_append] at hforward
    exact (hforward.2.1.2.1.2.2 m hm began (by simp [GateEvent.moments])).1
  have hopen := hopens.openSince.run hresets hbetween
  rw [run_append, run_cons, hopen.dispatch ht]

/-- Whatever the strategy answers, and whatever is reloaded or reset in between: a signal comes
back only while the strategy is enabled and its circuit not open, with the flag in force; a day
returns no more signals than the largest of the positive caps its dispatches find in force; and
an open circuit keeps the strategy from being called for the reset time. -/
theorem emission_gate (config : StrategyConfig) (today : ℤ) (es : List GateEvent)
    (hclock : ClockForward today es) :
    (∀ before e later, es = before ++ e :: later → ((start config today).run before).LetsOut e) ∧
    (∀ day most, StepsMeet next (CapWithin day most) (start config today) es →
      returnedOn day (start config today) es ≤ most) ∧
    (start config today).RestsAfterOpening es := by
  refine ⟨fun before e later _ => letsOut _ e, ?_, restsAfterOpening _ hclock.2⟩
  intro day most hcap
  have hle := returnedOn_le (g := start config today) hclock.1 hclock.2 hcap
  have hfresh : (start config today).usedOn day = 0 := by
    rw [usedOn]
    split <;> rfl
  rw [hfresh] at hle
  omega

def gateBar : Signal where
  symbol := "INFY"
  market := "NSE"
  direction := .buy
  quantity := 10
  confidence := 7 / 10
  strategyName := "orb"
  priceAtSignal := 100
  stopLoss := 98
  takeProfit := 104
  metadata := []

/-- Two signals under a cap of one, a failure that opens the circuit, and a bar while it is open. -/
def cappedDay : List GateEvent :=
  [.dispatch ⟨0, 20⟩ ⟨1, 20⟩ (.ok (some gateBar)), .dispatch ⟨60, 20⟩ ⟨61, 20⟩ (.ok (some gateBar)),
    .applyConfig { maxSignalsPerDay := 1, circuitBreakerThresholdConsecutive := 1 } false,
    .dispatch ⟨120, 20⟩ ⟨121, 20⟩ (.error .zeroDivisionError),
    .dispatch ⟨180, 20⟩ ⟨181, 20⟩ (.ok (some gateBar))]

theorem emission_gate_capped_day : ClockForward 20 cappedDay ∧
    returnedOn 20 (start { maxSignalsPerDay := 1 } 20) cappedDay ≤ 1 ∧
    (start { maxSignalsPerDay := 1 } 20).RestsAfterOpening cappedDay :=
  have h := emission_gate { maxSignalsPerDay := 1 } 20 cappedDay (by decide +kernel)
  ⟨by decide +kernel, h.2.1 20 1 (by decide +kernel), h.2.2⟩

end Gate

namespace Runner
variable {r : Registered} (now : Moment) (x : Runner r)

def gate : Gate := ⟨x.config, x.circuit, x.signalsToday, x.capDate⟩

/-- What `on_bar` and `generate_signal` answer for a bar. -/
def answerBar (e : Dispatch) : Outcome :=
  match (r.strategy.onBar e (x.strategy.sessions e.bar.symbol)).2 with
  | .error raised => .error raised
  | .ok _ => .ok (r.strategy.feedBar e x.strategy).pending

variable {now x}

theorem checkCap_gate (signal : Signal) :
    (x.checkCap now signal).1.gate = (x.gate.admitSignal now signal).1 ∧
      (x.checkCap now signal).2.map (x.checkCap now signal).1.applyPaperFlag =
        (x.gate.admitSignal now signal).2 := by
  have hroll : (if now.today = x.capDate then x
      else { x with signalsToday := 0, capDate := now.today }).gate = x.gate.rollOver now := by
    rw [Gate.rollOver]
    by_cases hdate : now.today = x.capDate
    · rw [if_pos hdate, if_pos (show now.today = x.gate.capDate from hdate)]
    · rw [if_neg hdate, if_neg (show ¬ now.today = x.gate.capDate from hdate)]
      rfl
  rw [checkCap, Gate.admitSignal, ← hroll]
  generalize ite (now.today = x.capDate) _ _ = rolled
  by_cases hcap : 0 < rolled.config.maxSignalsPerDay ∧
      rolled.config.maxSignalsPerDay ≤ rolled.signalsToday
  · have hreached : rolled.gate.CapReached := hcap
    rw [if_pos hcap, if_pos hreached]
    exact ⟨rfl, rfl⟩
  · have hfree : ¬ rolled.gate.CapReached := hcap
    rw [if_neg hcap, if_neg hfree]
    exact ⟨rfl, rfl⟩

/-- The two parts of a dispatch after the gate was passed. -/
theorem emit_gate : (x.emit now).1.gate =
      (match x.strategy.pending with
        | none => { x.gate with circuit := x.circuit.recordSuccess now.monotonic }
        | some signal => (Gate.admitSignal now signal
          { x.gate with circuit := x.circuit.recordSuccess now.monotonic }).1) ∧
    (x.emit now).2 = x.strategy.pending.bind fun signal => (Gate.admitSignal now signal
        { x.gate with circuit := x.circuit.recordSuccess now.monotonic }).2 := by
  rw [emit]
  cases hpending : x.strategy.pending with
  | none => simp [Instance.generateSignal, hpending, gate]
  | some signal =>
    simp only [Instance.generateSignal, hpending, Option.bind_some]
    exact checkCap_gate signal

theorem shouldDispatch_passes (h : x.gate.Passes now) :
    x.shouldDispatch now = ({ x with circuit := x.gate.circuitAt now }, true) := by
  have hshut : (x.circuit.checkHalfOpenTransition now.monotonic).state ≠ .opened := h.2
  rw [shouldDispatch, if_pos (show x.config.enabled = true from h.1)]
  simp [hshut, gate, Gate.circuitAt]

/-- A gate that does not let a dispatch pass is the same on both sides. -/
theorem shouldDispatch_stops (h : ¬ x.gate.Passes now) (answer : Outcome) :
    ∃ y, x.shouldDispatch now = (y, false) ∧
      x.gate.dispatch now now answer = ⟨y.gate, false, none⟩ := by
  rw [shouldDispatch, Gate.dispatch]
  by_cases henabled : x.config.enabled = true
  · have hgated : x.gate.config.enabled = true := henabled
    have hopen : (x.circuit.checkHalfOpenTransition now.monotonic).state = .opened := by
      by_contra hshut
      exact h ⟨henabled, hshut⟩
    have hgateopen : (x.gate.circuitAt now).state = .opened := hopen
    rw [if_pos henabled, if_pos hgated]
    refine ⟨{ x with circuit := x.gate.circuitAt now }, ?_, if_pos hgateopen⟩
    exact congrArg (Prod.mk _) (decide_eq_false fun hne => hne hopen)
  · have hgated : ¬ x.gate.config.enabled = true := henabled
    rw [if_neg henabled, if_neg hgated]
    exact ⟨x, rfl, rfl⟩

/-- A bar is the dispatch of the gate, with what the strategy answers. -/
theorem dispatchBar_gate (e : Dispatch) (h : e.bar.dataQuality = .normal) :
    (x.dispatchBar now e).1.gate = (x.gate.dispatch now now (x.answerBar e)).gate ∧
      (x.dispatchBar now e).2 = (x.gate.dispatch now now (x.answerBar e)).returned := by
  rw [dispatchBar, if_pos h]
  by_cases hpasses : x.gate.Passes now
  · rw [shouldDispatch_passes hpasses, Gate.dispatch_passes hpasses, answerBar]
    dsimp only
    cases (r.strategy.onBar e (x.strategy.sessions e.bar.symbol)).2 with
    | error raised => exact ⟨rfl, rfl⟩
    | ok signal =>
      have hemit := @emit_gate r now { x with
        strategy := r.strategy.feedBar e x.strategy
        circuit := x.gate.circuitAt now }
      dsimp only at hemit ⊢
      rw [hemit.1, hemit.2]
      cases (r.strategy.feedBar e x.strategy).pending <;> exact ⟨rfl, rfl⟩
  · obtain ⟨y, hstops, hgate⟩ := shouldDispatch_stops hpasses (x.answerBar e)
    rw [hstops, hgate]
    exact ⟨rfl, rfl⟩

/-- A tick is the dispatch of the gate, with the signal that is pending after it. -/
theorem dispatchTick_gate (symbol : String) (price : ℚ) :
    (x.dispatchTick now symbol price).1.gate =
        (x.gate.dispatch now now (.ok (x.feedTick symbol price).strategy.pending)).gate ∧
      (x.dispatchTick now symbol price).2 =
        (x.gate.dispatch now now (.ok (x.feedTick symbol price).strategy.pending)).returned := by
  rw [dispatchTick]
  by_cases hpasses : x.gate.Passes now
  · rw [shouldDispatch_passes hpasses, Gate.dispatch_passes hpasses]
    have hemit := @emit_gate r now { x.feedTick symbol price with
      circuit := x.gate.circuitAt now }
    dsimp only [feedTick] at hemit ⊢
    rw [hemit.1, hemit.2]
    cases (r.strategy.feedTick symbol price x.strategy).pending <;> exact ⟨rfl, rfl⟩
  · obtain ⟨y, hstops, hgate⟩ := shouldDispatch_stops hpasses
      (.ok (x.feedTick symbol price).strategy.pending)
    rw [hstops, hgate]
    exact ⟨rfl, rfl⟩

theorem applyConfig_gate (config : StrategyConfig) (resetCb : Bool) :
    (x.applyConfig config resetCb).gate = x.gate.applyConfig config resetCb := rfl

end Runner
end QuantEmbrace.Strategies
