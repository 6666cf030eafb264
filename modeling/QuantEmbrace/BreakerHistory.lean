import QuantEmbrace.StrategyRunner
import QuantEmbrace.Lib.GuardedRun
import QuantEmbrace.Lib.RecentLog

/-! The breaker of a runner against the history of its calls: its counter, its window of errors
and its count of successes say what the history says. -/
namespace QuantEmbrace.Strategies
open GuardedRun RecentLog

/-- The parameters of a breaker. -/
structure BreakerSettings where
  consecutiveThreshold : ℤ
  rateThreshold : ℤ
  successThreshold : ℕ
  rateWindowSeconds : ℚ
  resetSeconds : ℚ
  consecutive_pos : 0 < consecutiveThreshold
  rate_pos : 0 < rateThreshold
  success_pos : 0 < successThreshold
  window_pos : 0 < rateWindowSeconds
  reset_pos : 0 < resetSeconds

namespace BreakerSettings
variable (st : BreakerSettings) (c : CircuitBreaker) (now : ℚ)

def checkHalfOpenTransition : CircuitBreaker :=
  match c.state, c.openAt with
  | .opened, some openAt =>
    if st.resetSeconds ≤ now - openAt then { c with state := .halfOpen, halfOpenSuccesses := 0 }
    else c
  | _, _ => c

def evictOldErrors : CircuitBreaker :=
  { c with errorTimes := c.errorTimes.dropWhile (· < now - st.rateWindowSeconds) }

def recordSuccess : CircuitBreaker :=
  let c := st.evictOldErrors c now
  match c.state with
  | .closed => { c with consecutiveErrors := 0 }
  | .halfOpen =>
    if st.successThreshold ≤ c.halfOpenSuccesses + 1 then CircuitBreaker.transitionToClosed
    else { c with halfOpenSuccesses := c.halfOpenSuccesses + 1 }
  | .opened => c

/-- The first lines of `record_failure`. -/
def withFailure (evictedAt : ℚ) : CircuitBreaker :=
  st.evictOldErrors { c with
    consecutiveErrors := c.consecutiveErrors + 1
    errorTimes := c.errorTimes ++ [now] } evictedAt

/-- The clock is read for the error, then for the eviction, then where the circuit opens. -/
def recordFailure (evictedAt openedAt : ℚ) : CircuitBreaker × Bool :=
  let c := st.withFailure c now evictedAt
  match c.state with
  | .opened => (c, false)
  | .halfOpen => (c.transitionToOpen openedAt, true)
  | .closed =>
    if st.rateThreshold ≤ c.errorTimes.length ∨ st.consecutiveThreshold ≤ c.consecutiveErrors then
      (c.transitionToOpen openedAt, true)
    else (c, false)

section Cases
variable {st c now} {evictedAt openedAt : ℚ}

theorem recordSuccess_closed (hs : c.state = .closed) :
    st.recordSuccess c now = { st.evictOldErrors c now with consecutiveErrors := 0 } := by
  simp [recordSuccess, evictOldErrors, hs]

theorem recordSuccess_opened (hs : c.state = .opened) :
    st.recordSuccess c now = st.evictOldErrors c now := by
  simp [recordSuccess, evictOldErrors, hs]

theorem recordSuccess_halfOpen (hs : c.state = .halfOpen) :
    st.recordSuccess c now = if st.successThreshold ≤ c.halfOpenSuccesses + 1 then {}
      else { st.evictOldErrors c now with halfOpenSuccesses := c.halfOpenSuccesses + 1 } := by
  simp [recordSuccess, evictOldErrors, hs, CircuitBreaker.transitionToClosed]

theorem recordFailure_opened (hs : c.state = .opened) :
    st.recordFailure c now evictedAt openedAt = (st.withFailure c now evictedAt, false) := by
  simp [recordFailure, withFailure, evictOldErrors, hs]

theorem recordFailure_halfOpen (hs : c.state = .halfOpen) :
    st.recordFailure c now evictedAt openedAt =
      ((st.withFailure c now evictedAt).transitionToOpen openedAt, true) := by
  simp [recordFailure, withFailure, evictOldErrors, hs]

theorem recordFailure_closed (hs : c.state = .closed) :
    st.recordFailure c now evictedAt openedAt =
      if st.rateThreshold ≤ (st.withFailure c now evictedAt).errorTimes.length ∨
          st.consecutiveThreshold ≤ (c.consecutiveErrors + 1 : ℕ) then
        ((st.withFailure c now evictedAt).transitionToOpen openedAt, true)
      else (st.withFailure c now evictedAt, false) := by
  simp [recordFailure, withFailure, evictOldErrors, hs]

/-- A reading of the state leaves it, or turns an open circuit half open. -/
theorem checkHalfOpenTransition_cases :
    st.checkHalfOpenTransition c now = c ∨ c.state = .opened ∧
      st.checkHalfOpenTransition c now = { c with state := .halfOpen, halfOpenSuccesses := 0 } := by
  rw [checkHalfOpenTransition]
  split
  · next openAt hs hopen =>
    split
    · exact .inr ⟨hs, rfl⟩
    · exact .inl rfl
  · exact .inl rfl

end Cases

end BreakerSettings

/-- The breaker that a runner constructs. -/
def StrategyConfig.breaker (cfg : StrategyConfig) (hc : 0 < cfg.circuitBreakerThresholdConsecutive)
    (hr : 0 < cfg.circuitBreakerThresholdRate) : BreakerSettings where
  consecutiveThreshold := cfg.circuitBreakerThresholdConsecutive
  rateThreshold := cfg.circuitBreakerThresholdRate
  successThreshold := successThreshold
  rateWindowSeconds := rateWindowSeconds
  resetSeconds := resetSeconds
  consecutive_pos := hc
  rate_pos := hr
  success_pos := by decide
  window_pos := by norm_num [rateWindowSeconds]
  reset_pos := by norm_num [resetSeconds]

section Runner
variable {cfg : StrategyConfig} {hc : 0 < cfg.circuitBreakerThresholdConsecutive}
  {hr : 0 < cfg.circuitBreakerThresholdRate} (c : CircuitBreaker) (now : ℚ)

/-- The runner's breaker is the one with its settings, its clock standing still within a call. -/
theorem runner_checkHalfOpenTransition :
    c.checkHalfOpenTransition now = (cfg.breaker hc hr).checkHalfOpenTransition c now := rfl

theorem runner_recordSuccess : c.recordSuccess now = (cfg.breaker hc hr).recordSuccess c now := rfl

theorem runner_recordFailure :
    c.recordFailure cfg now = ((cfg.breaker hc hr).recordFailure c now now now).1 := by
  obtain ⟨state, consecutiveErrors, halfOpenSuccesses, openAt, errorTimes⟩ := c
  cases state with
  | opened => rfl
  | halfOpen => rfl
  | closed =>
    rw [BreakerSettings.recordFailure_closed rfl, apply_ite Prod.fst]
    rfl

end Runner

/-- What happened to a breaker. -/
inductive Observation where
  | success
  | failure (time : ℚ)
  | became (state : CircuitState)
  deriving DecidableEq, Repr

/-- A call, with the readings of the clock in it. `isOpen` and `isClosed` read the state. -/
inductive BreakerEvent where
  | recordSuccess (now : ℚ)
  | recordFailure (now evictedAt openedAt : ℚ)
  | readState (now : ℚ)
  | errorsInWindow (now : ℚ)
  | reset (now : ℚ)
  deriving DecidableEq, Repr

/-- A breaker with its history, newest first, and the time of the last call. -/
structure WatchedBreaker where
  circuit : CircuitBreaker := {}
  history : List Observation := []
  clock : ℚ
  deriving DecidableEq, Repr

namespace WatchedBreaker

/-- A call ends with a circuit; a change of its state is the last thing that happened. -/
def note (w : WatchedBreaker) (circuit : CircuitBreaker) (observed : List Observation)
    (now : ℚ) : WatchedBreaker where
  circuit := circuit
  history :=
    if w.circuit.state = circuit.state then observed ++ w.history
    else .became circuit.state :: (observed ++ w.history)
  clock := now

variable (st : BreakerSettings)

def step (w : WatchedBreaker) : BreakerEvent → WatchedBreaker
  | .recordSuccess now => w.note (st.recordSuccess w.circuit now) [.success] now
  | .recordFailure now evictedAt openedAt =>
    w.note (st.recordFailure w.circuit now evictedAt openedAt).1 [.failure now] openedAt
  | .readState now => w.note (st.checkHalfOpenTransition w.circuit now) [] now
  | .errorsInWindow now => w.note (st.evictOldErrors w.circuit now) [] now
  | .reset now => ⟨CircuitBreaker.transitionToClosed, .became .closed :: w.history, now⟩

/-- The clock does not run backwards. -/
def Timely (w : WatchedBreaker) : BreakerEvent → Prop
  | .recordSuccess now | .readState now | .errorsInWindow now | .reset now => w.clock ≤ now
  | .recordFailure now evictedAt openedAt =>
    w.clock ≤ now ∧ now ≤ evictedAt ∧ evictedAt ≤ openedAt

end WatchedBreaker

section History
variable (h : List Observation)

/-- The failures, oldest first. -/
def failureTimes (h : List Observation) : List ℚ :=
  (h.filterMap fun o => match o with
    | .failure time => some time
    | .success | .became _ => none).reverse

def failuresSinceClosing : List ℚ := failureTimes (h.takeWhile (· ≠ .became .closed))

/-- The failures since the last success or closing. -/
def failuresInARow : ℕ :=
  (failureTimes (h.takeWhile fun o => o ≠ .success ∧ o ≠ .became .closed)).length

def sinceHalfOpen : List Observation := h.takeWhile (· ≠ .became .halfOpen)

/-- The failures since the last closing that are at most a window old. -/
def BreakerSettings.recentFailures (st : BreakerSettings) (now : ℚ) : List ℚ :=
  (failuresSinceClosing h).filter (now - st.rateWindowSeconds ≤ ·)

variable {h} {t : ℚ} {s : CircuitState}

theorem failuresSinceClosing_failure :
    failuresSinceClosing (.failure t :: h) = failuresSinceClosing h ++ [t] := by
  simp [failuresSinceClosing, failureTimes]

theorem failuresSinceClosing_success :
    failuresSinceClosing (.success :: h) = failuresSinceClosing h := by
  simp [failuresSinceClosing, failureTimes]

theorem failuresSinceClosing_closed : failuresSinceClosing (.became .closed :: h) = [] := by
  simp [failuresSinceClosing, failureTimes]

theorem failuresSinceClosing_became (hs : s ≠ .closed) :
    failuresSinceClosing (.became s :: h) = failuresSinceClosing h := by
  simp [failuresSinceClosing, failureTimes, hs]

theorem failuresInARow_failure : failuresInARow (.failure t :: h) = failuresInARow h + 1 := by
  simp [failuresInARow, failureTimes]

theorem failuresInARow_success : failuresInARow (.success :: h) = 0 := by
  simp [failuresInARow, failureTimes]

theorem failuresInARow_closed : failuresInARow (.became .closed :: h) = 0 := by
  simp [failuresInARow, failureTimes]

theorem sinceHalfOpen_success : sinceHalfOpen (.success :: h) = .success :: sinceHalfOpen h := by
  simp [sinceHalfOpen]

theorem sinceHalfOpen_halfOpen : sinceHalfOpen (.became .halfOpen :: h) = [] := by
  simp [sinceHalfOpen]

end History

namespace WatchedBreaker
variable (st : BreakerSettings)

/-- The breaker counts what it should, opens and closes when it should. -/
structure Exact (w : WatchedBreaker) : Prop where
  inARow : w.circuit.state = .closed → w.circuit.consecutiveErrors = failuresInARow w.history
  window : ∀ now, w.clock ≤ now →
    (st.evictOldErrors w.circuit now).errorTimes = st.recentFailures w.history now
  opens : ∀ now evictedAt openedAt, w.Timely (.recordFailure now evictedAt openedAt) →
    ((st.recordFailure w.circuit now evictedAt openedAt).2 = true ↔
      w.circuit.state = .halfOpen ∨ w.circuit.state = .closed ∧
        (st.rateThreshold ≤ (st.recentFailures (.failure now :: w.history) evictedAt).length ∨
          st.consecutiveThreshold ≤ failuresInARow (.failure now :: w.history)))
  opened : ∀ now evictedAt openedAt,
    (st.recordFailure w.circuit now evictedAt openedAt).1.state = .opened ↔
      w.circuit.state = .opened ∨ (st.recordFailure w.circuit now evictedAt openedAt).2 = true
  halfOpen : w.circuit.state = .halfOpen → ∀ o ∈ sinceHalfOpen w.history, o = .success
  closes : w.circuit.state = .halfOpen → ∀ e, ((w.step st e).circuit.state = .closed ↔
    (∃ now, e = .reset now) ∨ (∃ now, e = .recordSuccess now) ∧
      (sinceHalfOpen (.success :: w.history)).length = st.successThreshold)

/-- Of the failures since the last closing none is missing that is still of use. -/
def WindowKept (w : WatchedBreaker) : Prop :=
  ∃ cut ≤ w.clock - st.rateWindowSeconds,
    Keeps cut w.clock w.circuit.errorTimes (failuresSinceClosing w.history)

/-- The fields against the history. -/
structure Tracks (w : WatchedBreaker) : Prop where
  window : w.WindowKept st
  inARow : w.circuit.state = .closed → w.circuit.consecutiveErrors = failuresInARow w.history
  halfOpen : w.circuit.state = .halfOpen → w.circuit.halfOpenSuccesses < st.successThreshold ∧
    sinceHalfOpen w.history = List.replicate w.circuit.halfOpenSuccesses .success

variable {st} {w : WatchedBreaker}

section Window
variable {clock now t : ℚ} {times log : List ℚ}

/-- An eviction, whatever else is done. -/
theorem window_evict (h : ∃ cut ≤ clock - st.rateWindowSeconds, Keeps cut clock times log)
    (hle : clock ≤ now) : Keeps (now - st.rateWindowSeconds) now
      (times.dropWhile (· < now - st.rateWindowSeconds)) log := by
  obtain ⟨cut, hcut, hkeeps⟩ := h
  exact (hkeeps.mono hle).evict (hcut.trans (sub_le_sub_right hle _))

theorem window_push (h : ∃ cut ≤ clock - st.rateWindowSeconds, Keeps cut clock times log)
    (hle : clock ≤ t) :
    ∃ cut ≤ t - st.rateWindowSeconds, Keeps cut t (times ++ [t]) (log ++ [t]) := by
  obtain ⟨cut, hcut, hkeeps⟩ := h
  have ht : cut ≤ t - st.rateWindowSeconds := hcut.trans (sub_le_sub_right hle _)
  exact ⟨cut, ht, hkeeps.push hle (ht.trans (sub_le_self _ st.window_pos.le))⟩

end Window

section Build
variable {c : CircuitBreaker} {observed : List Observation} {now : ℚ}

theorem note_same (h : w.circuit.state = c.state) :
    w.note c observed now = ⟨c, observed ++ w.history, now⟩ := by
  rw [note, if_pos h]

theorem note_changed (h : w.circuit.state ≠ c.state) :
    w.note c observed now = ⟨c, .became c.state :: (observed ++ w.history), now⟩ := by
  rw [note, if_neg h]

theorem Tracks.of_opened (hwindow : w.WindowKept st) (hs : w.circuit.state = .opened) :
    w.Tracks st where
  window := hwindow
  inARow := fun h => CircuitState.noConfusion (hs.symm.trans h)
  halfOpen := fun h => CircuitState.noConfusion (hs.symm.trans h)

theorem Tracks.of_closed (hwindow : w.WindowKept st) (hs : w.circuit.state = .closed)
    (hrow : w.circuit.consecutiveErrors = failuresInARow w.history) : w.Tracks st where
  window := hwindow
  inARow := fun _ => hrow
  halfOpen := fun h => CircuitState.noConfusion (hs.symm.trans h)

theorem Tracks.of_halfOpen (hwindow : w.WindowKept st) (hs : w.circuit.state = .halfOpen)
    (hlt : w.circuit.halfOpenSuccesses < st.successThreshold)
    (hsince : sinceHalfOpen w.history = List.replicate w.circuit.halfOpenSuccesses .success) :
    w.Tracks st where
  window := hwindow
  inARow := fun h => CircuitState.noConfusion (hs.symm.trans h)
  halfOpen := fun _ => ⟨hlt, hsince⟩

end Build

theorem tracks_init (st : BreakerSettings) (started : ℚ) :
    Tracks st { clock := started } :=
  .of_closed ⟨_, le_rfl, keeps_nil⟩ rfl rfl

/-- A closing begins the counts anew. -/
theorem tracks_closing (st : BreakerSettings) (history : List Observation) (now : ℚ) :
    Tracks st ⟨{}, .became .closed :: history, now⟩ := by
  refine .of_closed ⟨_, le_rfl, ?_⟩ rfl failuresInARow_closed.symm
  rw [failuresSinceClosing_closed]
  exact keeps_nil

theorem Tracks.recordSuccess (h : w.Tracks st) {now : ℚ} (hle : w.clock ≤ now) :
    (w.step st (.recordSuccess now)).Tracks st := by
  have hkeeps := window_evict h.window hle
  rw [← failuresSinceClosing_success] at hkeeps
  rw [step]
  cases hs : w.circuit.state with
  | closed =>
    rw [BreakerSettings.recordSuccess_closed hs, note_same (by rfl)]
    exact .of_closed ⟨_, le_rfl, hkeeps⟩ hs failuresInARow_success.symm
  | opened =>
    rw [BreakerSettings.recordSuccess_opened hs, note_same (by rfl)]
    exact .of_opened ⟨_, le_rfl, hkeeps⟩ hs
  | halfOpen =>
    obtain ⟨_, hsince⟩ := h.halfOpen hs
    rw [BreakerSettings.recordSuccess_halfOpen hs]
    split
    · rw [note_changed (by rw [hs]; decide)]
      exact tracks_closing st _ now
    · next hmore =>
      rw [note_same (by rfl)]
      refine .of_halfOpen ⟨_, le_rfl, hkeeps⟩ hs (not_le.mp hmore) ?_
      exact (sinceHalfOpen_success.trans (congrArg _ hsince)).trans List.replicate_succ.symm

theorem Tracks.recordFailure (h : w.Tracks st) {now evictedAt openedAt : ℚ}
    (ht : w.Timely (.recordFailure now evictedAt openedAt)) :
    (w.step st (.recordFailure now evictedAt openedAt)).Tracks st := by
  obtain ⟨hle, hevict, hopen⟩ := ht
  have hkeeps := (window_evict (window_push h.window hle) hevict).mono hopen
  rw [← failuresSinceClosing_failure] at hkeeps
  have hcut : evictedAt - st.rateWindowSeconds ≤ openedAt - st.rateWindowSeconds :=
    sub_le_sub_right hopen _
  -- where the circuit opens
  have hopens : w.circuit.state ≠ .opened → Tracks st (w.note
      ((st.withFailure w.circuit now evictedAt).transitionToOpen openedAt) [.failure now]
      openedAt) := by
    intro hne
    have hsame := failuresSinceClosing_became (h := .failure now :: w.history) (s := .opened)
      (by decide)
    rw [note_changed hne]
    exact .of_opened ⟨_, hcut, hsame.symm ▸ hkeeps⟩ rfl
  rw [step]
  cases hs : w.circuit.state with
  | opened =>
    rw [BreakerSettings.recordFailure_opened hs, note_same (by rfl)]
    exact .of_opened ⟨_, hcut, hkeeps⟩ hs
  | halfOpen =>
    rw [BreakerSettings.recordFailure_halfOpen hs]
    exact hopens (by rw [hs]; decide)
  | closed =>
    rw [BreakerSettings.recordFailure_closed hs]
    split
    · exact hopens (by rw [hs]; decide)
    · rw [note_same (by rfl)]
      refine .of_closed ⟨_, hcut, hkeeps⟩ hs ?_
      exact (congrArg (· + 1) (h.inARow hs)).trans failuresInARow_failure.symm

theorem Tracks.readState (h : w.Tracks st) {now : ℚ} (hle : w.clock ≤ now) :
    (w.step st (.readState now)).Tracks st := by
  obtain ⟨cut, hcut, hkeeps⟩ := h.window
  have hcut' : cut ≤ now - st.rateWindowSeconds := hcut.trans (sub_le_sub_right hle _)
  rw [step]
  have hcases : st.checkHalfOpenTransition w.circuit now = w.circuit ∨ w.circuit.state = .opened ∧
      st.checkHalfOpenTransition w.circuit now =
        { w.circuit with state := .halfOpen, halfOpenSuccesses := 0 } :=
    BreakerSettings.checkHalfOpenTransition_cases
  obtain hsame | ⟨hs, hhalf⟩ := hcases
  · rw [hsame, note_same (by rfl)]
    exact ⟨⟨cut, hcut', hkeeps.mono hle⟩, h.inARow, h.halfOpen⟩
  · have hsame := failuresSinceClosing_became (h := w.history) (s := .halfOpen) (by decide)
    rw [hhalf, note_changed (by simp [hs])]
    exact .of_halfOpen ⟨cut, hcut', hsame.symm ▸ hkeeps.mono hle⟩ rfl st.success_pos
      sinceHalfOpen_halfOpen

theorem Tracks.step (h : w.Tracks st) {e : BreakerEvent} (ht : w.Timely e) :
    (w.step st e).Tracks st := by
  cases e with
  | recordSuccess now => exact h.recordSuccess ht
  | recordFailure now evictedAt openedAt => exact h.recordFailure ht
  | readState now => exact h.readState ht
  | errorsInWindow now =>
    rw [WatchedBreaker.step, note_same (by rfl)]
    exact ⟨⟨_, le_rfl, window_evict h.window ht⟩, h.inARow, h.halfOpen⟩
  | reset now => exact tracks_closing st w.history now

theorem Tracks.errorTimes_withFailure (h : w.Tracks st) {now evictedAt : ℚ} (hle : w.clock ≤ now)
    (hevict : now ≤ evictedAt) : (st.withFailure w.circuit now evictedAt).errorTimes =
      st.recentFailures (.failure now :: w.history) evictedAt := by
  rw [BreakerSettings.recentFailures, failuresSinceClosing_failure]
  exact (window_evict (window_push h.window hle) hevict).kept

theorem Tracks.opens (h : w.Tracks st) {now evictedAt openedAt : ℚ}
    (ht : w.Timely (.recordFailure now evictedAt openedAt)) :
    (st.recordFailure w.circuit now evictedAt openedAt).2 = true ↔
      w.circuit.state = .halfOpen ∨ w.circuit.state = .closed ∧
        (st.rateThreshold ≤ (st.recentFailures (.failure now :: w.history) evictedAt).length ∨
          st.consecutiveThreshold ≤ failuresInARow (.failure now :: w.history)) := by
  cases hs : w.circuit.state with
  | opened => simp [BreakerSettings.recordFailure_opened hs]
  | halfOpen => simp [BreakerSettings.recordFailure_halfOpen hs]
  | closed =>
    rw [BreakerSettings.recordFailure_closed hs, h.errorTimes_withFailure ht.1 ht.2.1,
      h.inARow hs, failuresInARow_failure]
    split
    · next hreached => exact iff_of_true rfl (.inr ⟨rfl, hreached⟩)
    · next hbelow =>
      refine iff_of_false Bool.false_ne_true fun hopens => ?_
      exact hopens.elim (fun hhalf => CircuitState.noConfusion hhalf) fun hreached =>
        hbelow hreached.2

theorem recordFailure_state {now evictedAt openedAt : ℚ} {c : CircuitBreaker} :
    (st.recordFailure c now evictedAt openedAt).1.state = .opened ↔
      c.state = .opened ∨ (st.recordFailure c now evictedAt openedAt).2 = true := by
  have hstate : (st.withFailure c now evictedAt).state = c.state := rfl
  cases hs : c.state with
  | opened => simp [BreakerSettings.recordFailure_opened hs, hstate, hs]
  | halfOpen =>
    simp [BreakerSettings.recordFailure_halfOpen hs, CircuitBreaker.transitionToOpen]
  | closed =>
    rw [BreakerSettings.recordFailure_closed hs]
    split
    · simp [CircuitBreaker.transitionToOpen]
    · simp [hstate, hs]

/-- From half open only a reset closes, or the last of enough successes. -/
theorem Tracks.closes (h : w.Tracks st) (hs : w.circuit.state = .halfOpen) (e : BreakerEvent) :
    (w.step st e).circuit.state = .closed ↔
      (∃ now, e = .reset now) ∨ (∃ now, e = .recordSuccess now) ∧
        (sinceHalfOpen (.success :: w.history)).length = st.successThreshold := by
  obtain ⟨hlt, hsince⟩ := h.halfOpen hs
  cases e with
  | recordSuccess now =>
    rw [sinceHalfOpen_success, hsince, List.length_cons, List.length_replicate]
    simp only [reduceCtorEq, exists_const, false_or, BreakerEvent.recordSuccess.injEq,
      exists_eq', true_and]
    change (st.recordSuccess w.circuit now).state = .closed ↔ _
    rw [BreakerSettings.recordSuccess_halfOpen hs]
    split
    · next henough => exact iff_of_true rfl (le_antisymm hlt henough)
    · next hmore =>
      refine iff_of_false (fun hclosed => CircuitState.noConfusion (hs.symm.trans hclosed)) ?_
      exact fun heq => hmore heq.ge
  | recordFailure now evictedAt openedAt =>
    have hopen : (st.recordFailure w.circuit now evictedAt openedAt).1.state = .opened := by
      rw [BreakerSettings.recordFailure_halfOpen hs]
      rfl
    exact iff_of_false (fun hclosed => CircuitState.noConfusion (hopen.symm.trans hclosed))
      (by simp)
  | readState now =>
    have hhalf : (st.checkHalfOpenTransition w.circuit now).state = .halfOpen := by
      simp [BreakerSettings.checkHalfOpenTransition, hs]
    exact iff_of_false (fun hclosed => CircuitState.noConfusion (hhalf.symm.trans hclosed))
      (by simp)
  | errorsInWindow now =>
    exact iff_of_false (fun hclosed => CircuitState.noConfusion (hs.symm.trans hclosed)) (by simp)
  | reset now => exact iff_of_true rfl (.inl ⟨now, rfl⟩)

theorem Tracks.exact (h : w.Tracks st) : w.Exact st where
  inARow := h.inARow
  window := fun _ hle => (window_evict h.window hle).kept
  opens := fun _ _ _ ht => h.opens ht
  opened := fun _ _ _ => recordFailure_state
  halfOpen := fun hs o ho => by
    rw [(h.halfOpen hs).2] at ho
    exact List.eq_of_mem_replicate ho
  closes := fun hs e => h.closes hs e

end WatchedBreaker

/-- In every state of a run of calls, the clock never going backwards, the breaker counts, opens
and closes as its history says. -/
theorem breaker_exact (st : BreakerSettings) (started : ℚ) (es : List BreakerEvent)
    (h : StepsMeet (WatchedBreaker.step st) WatchedBreaker.Timely { clock := started } es) :
    AlongRun (WatchedBreaker.step st) (WatchedBreaker.Exact st) { clock := started } es := by
  have htracks := h.invariant (I := WatchedBreaker.Tracks st) (fun w e hw ht => hw.step ht)
    (WatchedBreaker.tracks_init st started)
  exact fun pre hpre => (htracks pre hpre).exact

/-- Two failures open a breaker, a success after the cooldown closes it. -/
def twoFailures : BreakerSettings where
  consecutiveThreshold := 2
  rateThreshold := 10
  successThreshold := 1
  rateWindowSeconds := 300
  resetSeconds := 300
  consecutive_pos := by decide
  rate_pos := by decide
  success_pos := by decide
  window_pos := by norm_num
  reset_pos := by norm_num

theorem breaker_exact_two_failures :
    AlongRun (WatchedBreaker.step twoFailures) (WatchedBreaker.Exact twoFailures) { clock := 0 }
      [.recordFailure 1 1 1, .recordFailure 2 2 2, .readState 302, .recordSuccess 303] :=
  breaker_exact twoFailures 0 _ (by
    simp only [StepsMeet, WatchedBreaker.Timely, WatchedBreaker.step, WatchedBreaker.note]
    norm_num)

end QuantEmbrace.Strategies
