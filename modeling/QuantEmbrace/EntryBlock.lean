import QuantEmbrace.DailySessions
import QuantEmbrace.StrategyRunner

/-! The two processing loops under an entry block: a tick is still fed to its strategy, a candle
is withheld from it. The service is compared with itself on what it delivered, without a block. -/
namespace QuantEmbrace.Strategies
open Candles GuardedRun
variable {ι : Type*}

/-- What the loops of the service take up; `config` is one refresh, with what it read for each
runner. -/
inductive Event (ι : Type*) where
  | tick (symbol : String) (price : ℚ) (suppressSignals : Bool)
  | candle (e : Dispatch)
  | config (loaded : ι → StrategyConfig × Bool)

def Event.isCandle : Event ι → Bool
  | candle _ => true
  | _ => false

/-- An event, the answer that `_is_entry_blocked` gives for each runner, and the time. -/
structure Arrival (ι : Type*) where
  event : Event ι
  blocked : ι → Bool
  now : Moment

/-- The same event with no block. -/
def Arrival.unblocked (a : Arrival ι) : Arrival ι := { a with blocked := fun _ => false }

namespace Runner
variable {r : Registered} (a : Arrival ι) (i : ι) (x : Runner r)

/-- `process_tick` for one runner: suppressed or blocked, the strategy is fed directly. -/
def processTick (symbol : String) (price : ℚ) (suppressSignals : Bool) :
    Runner r × Option Signal :=
  if symbol ∉ r.strategy.symbols then (x, none)
  else if suppressSignals then (x.feedTick symbol price, none)
  else if a.blocked i then (x.feedTick symbol price, none)
  else x.dispatchTick a.now symbol price

/-- `_candle_processing_loop` for one runner: blocked, the bar is not dispatched. -/
def processCandle (e : Dispatch) : Runner r × Option Signal :=
  if r.strategy.candleInterval ≠ e.bar.interval then (x, none)
  else if e.bar.symbol ∉ r.strategy.symbols then (x, none)
  else if a.blocked i then (x, none)
  else x.dispatchBar a.now e

/-- One event at one runner, and the signal that is handed to `_publish_signal`. -/
def process : Runner r × Option Signal :=
  match a.event, r.interfaceType with
  | .config loaded, _ => (x.applyConfig (loaded i).1 (loaded i).2, none)
  | .tick symbol price suppressSignals, .tick => x.processTick a i symbol price suppressSignals
  | .candle e, .candle => x.processCandle a i e
  | _, _ => (x, none)

end Runner

/-- The runners of the service. -/
abbrev Engine (reg : ι → Registered) : Type _ := (i : ι) → Runner (reg i)

namespace Engine
variable {reg : ι → Registered}

def start (reg : ι → Registered) (config : ι → StrategyConfig) (today : ℤ) : Engine reg :=
  fun i => Runner.start (reg i) (config i) today

def step (s : Engine reg) (a : Arrival ι) : Engine reg := fun i => ((s i).process a i).1

/-- What is published for the runner at the event. -/
def published (s : Engine reg) (a : Arrival ι) (i : ι) : Option Signal :=
  ((s i).process a i).2

def run (s : Engine reg) (arrivals : List (Arrival ι)) : Engine reg := arrivals.foldl step s

@[simp] theorem run_nil (s : Engine reg) : s.run [] = s := rfl

@[simp] theorem run_cons (s : Engine reg) (a : Arrival ι) (arrivals : List (Arrival ι)) :
    s.run (a :: arrivals) = (s.step a).run arrivals := rfl

end Engine

/-- A candle that a block keeps from the runner. -/
def Arrival.Withheld (r : Registered) (i : ι) (a : Arrival ι) : Prop :=
  a.event.isCandle = true ∧ r.interfaceType = .candle ∧ a.blocked i = true

instance (r : Registered) (i : ι) : DecidablePred (Arrival.Withheld r i) :=
  fun _ => instDecidableAnd

/-- A tick that a block alone sends past the dispatch finds the runner enabled. -/
def EnabledWhenFed {reg : ι → Registered} (i : ι) (s : Engine reg) (a : Arrival ι) : Prop :=
  ∀ symbol price, a.event = .tick symbol price false → symbol ∈ (reg i).strategy.symbols →
    a.blocked i = true → (s i).config.enabled = true

namespace Runner
variable {r : Registered} {a : Arrival ι} {i : ι} {x : Runner r}

/-- Nothing is pending between two events; and a runner that is fed ticks has no failure. -/
structure Settled (x : Runner r) : Prop where
  pending : x.strategy.pending = none
  circuit : r.interfaceType = .tick → x.circuit = {}

theorem settled_start (r : Registered) (config : StrategyConfig) (today : ℤ) :
    (start r config today).Settled :=
  ⟨rfl, fun _ => rfl⟩

theorem Settled.feedTick (h : x.Settled) (symbol : String) (price : ℚ) :
    (x.feedTick symbol price).Settled :=
  ⟨h.pending, h.circuit⟩

/-- A tick that is dispatched is fed if the runner is enabled, and nothing comes of it. -/
theorem Settled.dispatchTick (h : x.Settled) (htick : r.interfaceType = .tick) (now : Moment)
    (symbol : String) (price : ℚ) : x.dispatchTick now symbol price =
      (if x.config.enabled then x.feedTick symbol price else x, none) := by
  rw [Runner.dispatchTick, shouldDispatch_pristine (h.circuit htick)]
  cases x.config.enabled with
  | true => exact emit_pristine h.pending (h.circuit htick)
  | false => rfl

/-- One tick: the runner is fed or left as it is, and nothing is published. -/
theorem Settled.processTick (h : x.Settled) (htick : r.interfaceType = .tick) (symbol : String)
    (price : ℚ) (suppressSignals : Bool) : x.processTick a i symbol price suppressSignals =
      (if symbol ∈ r.strategy.symbols ∧
          (suppressSignals = true ∨ a.blocked i = true ∨ x.config.enabled = true) then
        x.feedTick symbol price else x, none) := by
  rw [Runner.processTick]
  by_cases hwatched : symbol ∈ r.strategy.symbols
  · cases suppressSignals with
    | true => simp [hwatched]
    | false =>
      cases hblocked : a.blocked i with
      | true => simp [hwatched]
      | false => simp [hwatched, h.dispatchTick htick]
  · simp [hwatched]

/-- One bar: it is left out, or dispatched while no block is on. -/
theorem processCandle_cases (e : Dispatch) : x.processCandle a i e = (x, none) ∨
    a.blocked i = false ∧ x.processCandle a i e = x.dispatchBar a.now e := by
  rw [processCandle]
  split
  · exact .inl rfl
  · split
    · exact .inl rfl
    · split
      · exact .inl rfl
      · next hblocked => exact .inr ⟨Bool.eq_false_of_not_eq_true hblocked, rfl⟩

/-- Every event leaves a settled runner settled. -/
theorem Settled.process (h : x.Settled) : (x.process a i).1.Settled := by
  rw [Runner.process]
  split
  · next loaded heq =>
    refine ⟨h.pending, fun htick => ?_⟩
    have hcircuit := h.circuit htick
    rw [applyConfig]
    dsimp only
    split
    · rfl
    · exact hcircuit
  · next symbol price suppressSignals heq htick =>
    rw [h.processTick htick]
    split
    · exact h.feedTick symbol price
    · exact h
  · next e heq hcandle =>
    obtain hsame | ⟨-, hdispatched⟩ := x.processCandle_cases (a := a) (i := i) e
    · rw [hsame]
      exact h
    · rw [hdispatched]
      refine ⟨dispatchBar_pending h.pending, fun htick => ?_⟩
      rw [hcandle] at htick
      cases htick
  · exact h

/-- What is published is what the strategy made of this very bar, with no block on. -/
theorem Settled.process_signal (h : x.Settled) {signal : Signal}
    (hsignal : (x.process a i).2 = some signal) :
    a.blocked i = false ∧ ∃ e produced, a.event = .candle e ∧
      Outcome.signal (r.strategy.onBar e (x.strategy.sessions e.bar.symbol)).2 = some produced ∧
      signal = x.applyPaperFlag produced := by
  rw [Runner.process] at hsignal
  split at hsignal
  · cases hsignal
  · next symbol price suppressSignals heq htick =>
    rw [h.processTick htick] at hsignal
    cases hsignal
  · next e heq hcandle =>
    obtain hsame | ⟨hunblocked, hdispatched⟩ := x.processCandle_cases (a := a) (i := i) e
    · rw [hsame] at hsignal
      cases hsignal
    · rw [hdispatched] at hsignal
      obtain ⟨produced, hproduced, hflag⟩ := dispatchBar_signal h.pending hsignal
      exact ⟨hunblocked, e, produced, heq, hproduced, hflag⟩
  · cases hsignal

/-- A withheld candle does not reach the runner. -/
theorem process_withheld (h : a.Withheld r i) : x.process a i = (x, none) := by
  obtain ⟨hevent, hcandle, hblocked⟩ := h
  rw [Runner.process, hcandle]
  split
  · next loaded heq => rw [heq] at hevent; cases hevent
  · next heq hinterface => cases hinterface
  · next e heq =>
    rw [processCandle]
    simp [hblocked]
  · rfl

/-- A tick is taken as it is without a block, if it finds the runner enabled. -/
theorem Settled.process_unblocked_tick (h : x.Settled) (htick : r.interfaceType = .tick)
    (henabled : ∀ symbol price, a.event = .tick symbol price false →
      symbol ∈ r.strategy.symbols → a.blocked i = true → x.config.enabled = true) :
    x.process a i = x.process a.unblocked i := by
  rw [Runner.process, Runner.process, htick]
  cases hevent : a.event with
  | config loaded => simp [Arrival.unblocked, hevent]
  | candle e => simp [Arrival.unblocked, hevent]
  | tick symbol price suppressSignals =>
    have hfed := henabled symbol price
    simp only [Arrival.unblocked, hevent, h.processTick htick]
    cases suppressSignals with
    | true => simp
    | false =>
      by_cases hwatched : symbol ∈ r.strategy.symbols
      · cases hblocked : a.blocked i with
        | true => simp [hfed hevent hwatched hblocked]
        | false => simp
      · simp [hwatched]

/-- What is not withheld from the runner of a candle strategy, it takes as without a block. -/
theorem process_unblocked_candle (hcandle : r.interfaceType = .candle) (h : ¬ a.Withheld r i) :
    x.process a i = x.process a.unblocked i := by
  rw [Runner.process, Runner.process, hcandle]
  cases hevent : a.event with
  | config loaded => simp [Arrival.unblocked, hevent]
  | tick symbol price suppressSignals => simp [Arrival.unblocked, hevent]
  | candle e =>
    have hblocked : a.blocked i = false :=
      Bool.eq_false_of_not_eq_true fun hon => h ⟨by rw [hevent]; rfl, hcandle, hon⟩
    simp [Arrival.unblocked, hevent, processCandle, hblocked]

end Runner

namespace Engine
variable {reg : ι → Registered} {s t : Engine reg} {i : ι}

theorem settled_run (h : (s i).Settled) (arrivals : List (Arrival ι)) :
    (s.run arrivals i).Settled := by
  induction arrivals generalizing s with
  | nil => exact h
  | cons a arrivals ih => exact ih h.process

/-- Each signal is published at the bar of which it was made, while no block is on. -/
def SignalsOwn (s : Engine reg) (arrivals : List (Arrival ι)) (i : ι) : Prop :=
  ∀ seen a, seen ++ [a] <+: arrivals → ∀ signal, (s.run seen).published a i = some signal →
    a.blocked i = false ∧ ∃ e produced, a.event = .candle e ∧
      Outcome.signal ((reg i).strategy.onBar e
        ((s.run seen i).strategy.sessions e.bar.symbol)).2 = some produced ∧
      signal = (s.run seen i).applyPaperFlag produced

theorem signalsOwn (h : (s i).Settled) (arrivals : List (Arrival ι)) :
    s.SignalsOwn arrivals i :=
  fun seen _ _ _ hsignal => (settled_run h seen).process_signal hsignal

/-- A tick strategy that is enabled when a block feeds it goes through the run as without one. -/
theorem run_unblocked_tick (htick : (reg i).interfaceType = .tick) {arrivals : List (Arrival ι)}
    (h : (s i).Settled) (hmeet : StepsMeet step (EnabledWhenFed i) s arrivals) (hst : s i = t i) :
    s.run arrivals i = t.run (arrivals.map Arrival.unblocked) i := by
  induction arrivals generalizing s t with
  | nil => exact hst
  | cons a arrivals ih =>
    have hstep : s.step a i = t.step a.unblocked i := by
      rw [step, step, ← hst, h.process_unblocked_tick htick hmeet.1]
    exact ih h.process hmeet.2 hstep

/-- A candle strategy goes through the run as without a block and without the candles it was kept
from. -/
theorem run_unblocked_candle (hcandle : (reg i).interfaceType = .candle)
    (arrivals : List (Arrival ι)) (hst : s i = t i) : s.run arrivals i =
      t.run ((arrivals.filter fun a => ¬ a.Withheld (reg i) i).map Arrival.unblocked) i := by
  induction arrivals generalizing s t with
  | nil => exact hst
  | cons a arrivals ih =>
    by_cases hwithheld : a.Withheld (reg i) i
    · rw [List.filter_cons_of_neg (by simpa using hwithheld), run_cons]
      refine ih ?_
      rw [step, Runner.process_withheld hwithheld]
      exact hst
    · rw [List.filter_cons_of_pos (by simpa using hwithheld), List.map_cons, run_cons, run_cons]
      refine ih ?_
      rw [step, step, ← hst, Runner.process_unblocked_candle hcandle hwithheld]

/-- The signals are suppressed, and once the block is over every symbol has the indicator state
of the run with no block on the same inputs. -/
def SuppressesOnly (s : Engine reg) (arrivals : List (Arrival ι)) (i : ι) : Prop :=
  s.SignalsOwn arrivals i ∧
    ((∀ a ∈ arrivals.getLast?, a.blocked i = false) →
      (s.run arrivals i).strategy.sessions =
        (s.run (arrivals.map Arrival.unblocked) i).strategy.sessions)

end Engine

/-- Under an entry block a tick strategy that is enabled has the state of the run without it, a
candle strategy that of the run without the block and the candles it withheld; and no signal is
published but at its own bar, while no block is on. -/
theorem entry_block_effect (reg : ι → Registered) (config : ι → StrategyConfig) (today : ℤ)
    (arrivals : List (Arrival ι)) (i : ι) :
    ((reg i).interfaceType = .tick →
      StepsMeet Engine.step (EnabledWhenFed i) (Engine.start reg config today) arrivals →
      (Engine.start reg config today).run arrivals i =
        (Engine.start reg config today).run (arrivals.map Arrival.unblocked) i) ∧
    ((reg i).interfaceType = .candle →
      (Engine.start reg config today).run arrivals i =
        (Engine.start reg config today).run
          ((arrivals.filter fun a => ¬ a.Withheld (reg i) i).map Arrival.unblocked) i) ∧
    (Engine.start reg config today).SignalsOwn arrivals i := by
  have hsettled : (Engine.start reg config today i).Settled :=
    Runner.settled_start (reg i) (config i) today
  refine ⟨fun htick hmeet => ?_, fun hcandle => ?_, ?_⟩
  · exact Engine.run_unblocked_tick htick hsettled hmeet rfl
  · exact Engine.run_unblocked_candle hcandle arrivals rfl
  · exact Engine.signalsOwn hsettled arrivals

/-- Two ticks of INFY, the first of them during a block. -/
def blockedTicks : List (Arrival Unit) :=
  [⟨.tick "INFY" 100 false, fun _ => true, ⟨0, 0⟩⟩,
    ⟨.tick "INFY" 101 false, fun _ => false, ⟨1, 0⟩⟩]

theorem entry_block_effect_momentum :
    (Engine.start (fun _ : Unit => .momentum { symbols := ["INFY"] }) (fun _ => {}) 0).run
        blockedTicks () =
      (Engine.start (fun _ : Unit => .momentum { symbols := ["INFY"] }) (fun _ => {}) 0).run
        (blockedTicks.map Arrival.unblocked) () := by
  refine (entry_block_effect (fun _ : Unit => .momentum { symbols := ["INFY"] }) (fun _ => {}) 0
    blockedTicks ()).1 rfl ⟨fun _ _ _ _ _ => rfl, fun _ _ _ _ hblocked => ?_, trivial⟩
  cases hblocked

/-- A bar of INFY that arrives while the block is on or off. -/
def infyArrival (minute : ℕ) (blocked : Bool) : Arrival Unit where
  event := .candle (infyBar 0 minute 101 99 100 1000)
  blocked _ := blocked
  now := { monotonic := minute * 60, today := 0 }

/-- The bar that arrived during the block is missing from the state after it. -/
theorem blocked_bar_missing :
    ¬ ∀ (ι : Type) (reg : ι → Registered) (config : ι → StrategyConfig) (today : ℤ)
      (arrivals : List (Arrival ι)) (i : ι),
      (Engine.start reg config today).SuppressesOnly arrivals i := by
  intro h
  have hsame := (h Unit (fun _ => .orb infyOrb) (fun _ => {}) 0
    [infyArrival 555 true, infyArrival 556 false] ()).2 (by simp [infyArrival])
  have hcloses := congrArg (fun sessions : String → Session OrbDaily OrbRolling =>
    (sessions "INFY").rolling.closes.length) hsame
  exact absurd hcloses (by decide +kernel)

end QuantEmbrace.Strategies
