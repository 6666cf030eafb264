import QuantEmbrace.CircuitBreaker
import QuantEmbrace.RegisteredStrategies

/-! The runner that wraps a strategy: its configuration, its circuit breaker, its daily cap, and
the two dispatches. -/
namespace QuantEmbrace.Strategies
open Candles

inductive InterfaceType where
  | tick
  | candle
  deriving DecidableEq, Repr

/-- The interface with which the service registers the strategy. -/
def Registered.interfaceType : Registered → InterfaceType
  | momentum _ => .tick
  | orb _ => .candle
  | scalp1m _ => .candle
  | vwapReversion _ _ => .candle
  | intradayTrend15m _ => .candle
  | preCloseMomentum _ => .candle

structure StrategyConfig where
  enabled : Bool := true
  paperTrade : Bool := true
  maxSignalsPerDay : ℤ := 0
  circuitBreakerThresholdConsecutive : ℤ := 5
  circuitBreakerThresholdRate : ℤ := 10
  deriving DecidableEq, Repr

/-- The breaker of one runner; its times are monotonic. -/
structure CircuitBreaker where
  state : CircuitState := .closed
  consecutiveErrors : ℕ := 0
  halfOpenSuccesses : ℕ := 0
  openAt : Option ℚ := none
  errorTimes : List ℚ := []
  deriving DecidableEq, Repr

def rateWindowSeconds : ℚ := 300
def resetSeconds : ℚ := 300
def successThreshold : ℕ := 3

namespace CircuitBreaker
variable (c : CircuitBreaker) (cfg : StrategyConfig) (now : ℚ)

/-- `_transition_to_closed`: every field is set. -/
def transitionToClosed : CircuitBreaker := {}

def transitionToOpen : CircuitBreaker :=
  { c with state := .opened, openAt := some now, halfOpenSuccesses := 0 }

/-- `_check_half_open_transition`, at each reading of the state -/
def checkHalfOpenTransition : CircuitBreaker :=
  match c.state, c.openAt with
  | .opened, some openAt =>
    if resetSeconds ≤ now - openAt then { c with state := .halfOpen, halfOpenSuccesses := 0 }
    else c
  | _, _ => c

def evictOldErrors : CircuitBreaker :=
  { c with errorTimes := c.errorTimes.dropWhile fun t => t < now - rateWindowSeconds }

def recordSuccess : CircuitBreaker :=
  let c := c.evictOldErrors now
  match c.state with
  | .closed => { c with consecutiveErrors := 0 }
  | .halfOpen =>
    if successThreshold ≤ c.halfOpenSuccesses + 1 then transitionToClosed
    else { c with halfOpenSuccesses := c.halfOpenSuccesses + 1 }
  | .opened => c

def recordFailure : CircuitBreaker :=
  let c := { c with
    consecutiveErrors := c.consecutiveErrors + 1
    errorTimes := c.errorTimes ++ [now] }.evictOldErrors now
  match c.state with
  | .opened => c
  | .halfOpen => c.transitionToOpen now
  | .closed =>
    if cfg.circuitBreakerThresholdRate ≤ c.errorTimes.length ∨
        cfg.circuitBreakerThresholdConsecutive ≤ c.consecutiveErrors then c.transitionToOpen now
    else c

end CircuitBreaker

/-- The monotonic time, and the UTC date as a day number. -/
structure Moment where
  monotonic : ℚ
  today : ℤ
  deriving DecidableEq, Repr

structure Runner (r : Registered) where
  strategy : Instance r.Daily r.Rolling
  config : StrategyConfig
  circuit : CircuitBreaker := {}
  signalsToday : ℕ := 0
  capDate : ℤ

namespace Runner
variable {r : Registered}

/-- A runner with a new instance of its strategy. -/
def start (r : Registered) (config : StrategyConfig) (today : ℤ) : Runner r where
  strategy := r.strategy.new
  config := config
  capDate := today

variable (now : Moment) (x : Runner r)

def applyConfig (config : StrategyConfig) (resetCb : Bool) : Runner r :=
  { x with
    config := config
    circuit := if resetCb then CircuitBreaker.transitionToClosed else x.circuit }

/-- `_should_dispatch`; the circuit is looked at if the strategy is enabled. -/
def shouldDispatch : Runner r × Bool :=
  if x.config.enabled then
    let circuit := x.circuit.checkHalfOpenTransition now.monotonic
    ({ x with circuit := circuit }, circuit.state ≠ .opened)
  else (x, false)

/-- `_check_cap`; the count starts again with a new date. -/
def checkCap (signal : Signal) : Runner r × Option Signal :=
  let x := if now.today = x.capDate then x
    else { x with signalsToday := 0, capDate := now.today }
  if 0 < x.config.maxSignalsPerDay ∧ x.config.maxSignalsPerDay ≤ x.signalsToday then (x, none)
  else ({ x with signalsToday := x.signalsToday + 1 }, some signal)

/-- `_apply_paper_flag` -/
def applyPaperFlag (signal : Signal) : Signal := { signal with paperTrade := x.config.paperTrade }

/-- What both dispatches do after the strategy took its input. -/
def emit : Runner r × Option Signal :=
  let (strategy, signal) := x.strategy.generateSignal
  let x := { x with strategy, circuit := x.circuit.recordSuccess now.monotonic }
  match signal with
  | none => (x, none)
  | some signal =>
    let capped := x.checkCap now signal
    (capped.1, capped.2.map capped.1.applyPaperFlag)

def feedTick (symbol : String) (price : ℚ) : Runner r :=
  { x with strategy := r.strategy.feedTick symbol price x.strategy }

def dispatchTick (symbol : String) (price : ℚ) : Runner r × Option Signal :=
  match x.shouldDispatch now with
  | (x, false) => (x, none)
  | (x, true) => (x.feedTick symbol price).emit now

def dispatchBar (e : Dispatch) : Runner r × Option Signal :=
  if e.bar.dataQuality = .normal then
    match x.shouldDispatch now with
    | (x, false) => (x, none)
    | (x, true) =>
      let fed := { x with strategy := r.strategy.feedBar e x.strategy }
      match (r.strategy.onBar e (x.strategy.sessions e.bar.symbol)).2 with
      | .error _ =>
        ({ fed with circuit := fed.circuit.recordFailure fed.config now.monotonic }, none)
      | .ok _ => fed.emit now
  else (x, none)

variable {now x}

@[simp] theorem shouldDispatch_strategy : (x.shouldDispatch now).1.strategy = x.strategy := by
  rw [shouldDispatch]
  split <;> rfl

@[simp] theorem shouldDispatch_config : (x.shouldDispatch now).1.config = x.config := by
  rw [shouldDispatch]
  split <;> rfl

/-- A circuit that never failed lets everything through. -/
theorem shouldDispatch_pristine (h : x.circuit = {}) :
    x.shouldDispatch now = (x, x.config.enabled) := by
  rw [shouldDispatch]
  cases x with
  | mk strategy config circuit signalsToday capDate =>
    subst h
    split
    · next henabled => exact Prod.ext rfl henabled.symm
    · next henabled => exact Prod.ext rfl (Bool.eq_false_of_not_eq_true henabled).symm

theorem checkCap_fst (signal : Signal) : (x.checkCap now signal).1.config = x.config ∧
    (x.checkCap now signal).1.strategy = x.strategy := by
  rw [checkCap]
  split <;> split <;> exact ⟨rfl, rfl⟩

theorem checkCap_signal {signal passed : Signal} (h : (x.checkCap now signal).2 = some passed) :
    passed = signal := by
  rw [checkCap] at h
  split at h <;> split at h <;> cases h <;> rfl

/-- Nothing stays pending after a dispatch that got through. -/
theorem emit_pending : (x.emit now).1.strategy.pending = none := by
  rw [emit]
  cases hpending : x.strategy.pending with
  | none => simp [Instance.generateSignal, hpending]
  | some signal => simp [Instance.generateSignal, hpending, (checkCap_fst signal).2]

/-- What is emitted was pending, and carries the paper flag of the configuration. -/
theorem emit_signal {signal : Signal} (h : (x.emit now).2 = some signal) :
    ∃ produced, x.strategy.pending = some produced ∧ signal = x.applyPaperFlag produced := by
  rw [emit] at h
  cases hpending : x.strategy.pending with
  | none => simp [Instance.generateSignal, hpending] at h
  | some produced =>
    simp only [Instance.generateSignal, hpending, Option.map_eq_some_iff] at h
    obtain ⟨passed, hpassed, hflag⟩ := h
    refine ⟨produced, rfl, ?_⟩
    rw [← hflag, applyPaperFlag, (checkCap_fst produced).1, checkCap_signal hpassed]
    rfl

/-- With nothing pending and no failure on record, a dispatch changes nothing more. -/
theorem emit_pristine (hpending : x.strategy.pending = none) (hcircuit : x.circuit = {}) :
    x.emit now = (x, none) := by
  cases x with
  | mk strategy config circuit signalsToday capDate =>
    cases strategy with
    | mk sessions pending state =>
      subst hpending hcircuit
      rfl

/-- A bar leaves nothing pending where nothing was. -/
theorem dispatchBar_pending {e : Dispatch} (h : x.strategy.pending = none) :
    (x.dispatchBar now e).1.strategy.pending = none := by
  have hgate : (x.shouldDispatch now).1.strategy.pending = none := by
    rw [shouldDispatch_strategy]
    exact h
  rw [dispatchBar]
  split
  · split
    · next y hgated => rwa [hgated] at hgate
    · next y hgated =>
      rw [hgated] at hgate
      dsimp only
      split
      · next raised hout =>
        rw [Strategy.feedBar_pending hgate, hout]
        rfl
      · exact emit_pending
  · exact h

/-- What a bar publishes is what the strategy made of that bar. -/
theorem dispatchBar_signal {e : Dispatch} {signal : Signal} (h : x.strategy.pending = none)
    (hsignal : (x.dispatchBar now e).2 = some signal) :
    ∃ produced,
      Outcome.signal (r.strategy.onBar e (x.strategy.sessions e.bar.symbol)).2 = some produced ∧
      signal = x.applyPaperFlag produced := by
  rw [dispatchBar] at hsignal
  split at hsignal
  · split at hsignal
    · cases hsignal
    · next y hgated =>
      have hstrategy : y.strategy = x.strategy := by
        rw [← shouldDispatch_strategy (x := x), hgated]
      have hconfig : y.config = x.config := by
        rw [← shouldDispatch_config (x := x), hgated]
      dsimp only at hsignal
      split at hsignal
      · cases hsignal
      · obtain ⟨produced, hpending, hflag⟩ := emit_signal hsignal
        rw [hstrategy, Strategy.feedBar_pending h] at hpending
        refine ⟨produced, hpending, ?_⟩
        rw [hflag, applyPaperFlag, applyPaperFlag, ← hconfig]
  · cases hsignal

end Runner

end QuantEmbrace.Strategies
