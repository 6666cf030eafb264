import QuantEmbrace.CandleConsumer
import QuantEmbrace.Indicators
import QuantEmbrace.Lib.PythonValue
import Mathlib.Data.Finset.Insert

/-! What the strategies have in common: the signal, the state of a symbol with its daily-scoped
part, one instance with its pending signal, and the sequence of signals of a run. -/
namespace QuantEmbrace.Strategies
open Indicators RiskCheck Candles PythonValue

/-- `_ist_min`: the minute of the day in IST. -/
def istMin (timestamp : ℚ) : ℤ := ⌊(timestamp + 19800) / 60⌋ % 1440

/-- What a strategy writes into a signal; its id and its time are stamped later. -/
structure Signal where
  symbol : String
  market : String
  direction : OrderSide
  quantity : ℤ
  confidence : ℚ
  strategyName : String
  priceAtSignal : ℚ
  stopLoss : ℚ
  takeProfit : ℚ
  metadata : List (String × MetaValue)
  paperTrade : Bool := false
  deriving DecidableEq, Repr

/-- `entry ∓ distance`: the stop of a BUY is below, that of a SELL above. -/
def stopSide (direction : OrderSide) (price distance : ℚ) : ℚ :=
  match direction with
  | .buy => price - distance
  | .sell => price + distance

def profitSide (direction : OrderSide) (price distance : ℚ) : ℚ :=
  match direction with
  | .buy => price + distance
  | .sell => price - distance

/-- A bar as it is dispatched, and the time at which that happens. -/
structure Dispatch where
  bar : Bar
  now : ℚ
  deriving DecidableEq, Repr

/-- The state of one symbol: `daily` is what `reset_daily` is there to clear. -/
structure Session (δ ρ : Type) where
  daily : δ
  rolling : ρ
  deriving DecidableEq, Repr

/-- What `on_bar` does to the pending signal: nothing, set it, or raise before it is set. -/
abbrev Outcome : Type := Except PyError (Option Signal)

/-- The signal that `generate_signal` has to return after `on_bar`, if any. -/
def Outcome.signal (outcome : Outcome) : Option Signal := outcome.toOption.join

structure Strategy (δ ρ : Type) where
  name : String
  symbols : List String
  candleInterval : String
  /-- `_ensure_buffers` -/
  fresh : Session δ ρ
  onBar : Dispatch → Session δ ρ → Session δ ρ × Outcome
  onTick : ℚ → Session δ ρ → Session δ ρ
  resetDaily : Session δ ρ → Session δ ρ

namespace Strategy
variable {δ ρ : Type} (s : Strategy δ ρ)

/-- The strategy is for the interval of the bar, watches its symbol, and the data are good. -/
def Takes (bar : Bar) : Prop :=
  bar.interval = s.candleInterval ∧ bar.symbol ∈ s.symbols ∧ bar.dataQuality = .normal

instance (bar : Bar) : Decidable (s.Takes bar) := instDecidableAnd

/-- The bars that reach the state of a symbol. -/
def barsOf (symbol : String) (es : List Dispatch) : List Dispatch :=
  es.filter fun e => s.Takes e.bar ∧ e.bar.symbol = symbol

theorem barsOf_cons_self {e : Dispatch} (h : s.Takes e.bar) (es : List Dispatch) :
    s.barsOf e.bar.symbol (e :: es) = e :: s.barsOf e.bar.symbol es :=
  List.filter_cons_of_pos (by simpa using h)

theorem barsOf_cons_ne {e : Dispatch} {symbol : String}
    (h : ¬ (s.Takes e.bar ∧ e.bar.symbol = symbol)) (es : List Dispatch) :
    s.barsOf symbol (e :: es) = s.barsOf symbol es :=
  List.filter_cons_of_neg (by simpa using h)

theorem barsOf_append (symbol : String) (es fs : List Dispatch) :
    s.barsOf symbol (es ++ fs) = s.barsOf symbol es ++ s.barsOf symbol fs :=
  List.filter_append es fs

/-- The state of a symbol after its bars. -/
def session (es : List Dispatch) (init : Session δ ρ) : Session δ ρ :=
  es.foldl (fun x e => (s.onBar e x).1) init

@[simp] theorem session_nil (x : Session δ ρ) : s.session [] x = x := rfl

@[simp] theorem session_cons (e : Dispatch) (es : List Dispatch) (x : Session δ ρ) :
    s.session (e :: es) x = s.session es (s.onBar e x).1 := rfl

theorem session_append (es fs : List Dispatch) (x : Session δ ρ) :
    s.session (es ++ fs) x = s.session fs (s.session es x) :=
  List.foldl_append

end Strategy

/-- `StrategyState`; the time is in microseconds of UTC. -/
structure StrategyState where
  strategyName : Text
  positions : List (Text × Json) := []
  indicators : List (Text × Json) := []
  lastSignalTime : Option ℤ := none
  customState : List (Text × Json) := []

/-- An instance of a strategy: its own dictionaries, the pending signal, and the state that
`get_state` returns. -/
structure Instance (δ ρ : Type) where
  sessions : String → Session δ ρ
  pending : Option Signal
  state : StrategyState

namespace Strategy
variable {δ ρ : Type} (s : Strategy δ ρ)

/-- A new instance. -/
def new : Instance δ ρ where
  sessions := fun _ => s.fresh
  pending := none
  state := { strategyName := Text.of s.name }

/-- `on_bar` on the instance; a signal replaces the pending one. -/
def feedBar (e : Dispatch) (i : Instance δ ρ) : Instance δ ρ :=
  let r := s.onBar e (i.sessions e.bar.symbol)
  { i with
    sessions := Function.update i.sessions e.bar.symbol r.1
    pending := match r.2 with
      | .ok (some signal) => some signal
      | _ => i.pending }

/-- `on_tick` on the instance -/
def feedTick (symbol : String) (price : ℚ) (i : Instance δ ρ) : Instance δ ρ :=
  { i with sessions :=
      Function.update i.sessions symbol (s.onTick price (i.sessions symbol)) }

end Strategy

/-- `generate_signal` -/
def Instance.generateSignal {δ ρ : Type} (i : Instance δ ρ) : Instance δ ρ × Option Signal :=
  ({ i with pending := none }, i.pending)

namespace Strategy
variable {δ ρ : Type} (s : Strategy δ ρ)

/-- `on_bar` and `generate_signal` for a bar the strategy takes; a raise ends it in between. -/
def dispatchBar (e : Dispatch) (i : Instance δ ρ) : Instance δ ρ × Option Signal :=
  if s.Takes e.bar then
    match (s.onBar e (i.sessions e.bar.symbol)).2 with
    | .error _ => (s.feedBar e i, none)
    | .ok _ => (s.feedBar e i).generateSignal
  else (i, none)

/-- The instance after a sequence of bars. -/
def feed (es : List Dispatch) (i : Instance δ ρ) : Instance δ ρ :=
  es.foldl (fun i e => (s.dispatchBar e i).1) i

/-- The answers of the instance, one for each bar. -/
def signals : List Dispatch → Instance δ ρ → List (Option Signal)
  | [], _ => []
  | e :: es, i => (s.dispatchBar e i).2 :: signals es (s.dispatchBar e i).1

@[simp] theorem feed_nil (i : Instance δ ρ) : s.feed [] i = i := rfl

@[simp] theorem feed_cons (e : Dispatch) (es : List Dispatch) (i : Instance δ ρ) :
    s.feed (e :: es) i = s.feed es (s.dispatchBar e i).1 := rfl

variable {s} {e : Dispatch} {i : Instance δ ρ}

/-- With nothing pending, what is pending after a bar is the signal of that bar. -/
theorem feedBar_pending (h : i.pending = none) :
    (s.feedBar e i).pending = Outcome.signal (s.onBar e (i.sessions e.bar.symbol)).2 := by
  rw [feedBar]
  dsimp only
  cases (s.onBar e (i.sessions e.bar.symbol)).2 with
  | error raised => exact h
  | ok signal =>
    cases signal with
    | none => exact h
    | some signal => rfl

theorem dispatchBar_ignored (h : ¬ s.Takes e.bar) : s.dispatchBar e i = (i, none) := if_neg h

theorem dispatchBar_sessions (h : s.Takes e.bar) :
    (s.dispatchBar e i).1.sessions =
      Function.update i.sessions e.bar.symbol (s.onBar e (i.sessions e.bar.symbol)).1 := by
  rw [dispatchBar, if_pos h]
  split <;> rfl

@[simp] theorem dispatchBar_state : (s.dispatchBar e i).1.state = i.state := by
  rw [dispatchBar]
  split
  · split <;> rfl
  · rfl

/-- Nothing is left pending where nothing was. -/
theorem dispatchBar_pending (h : i.pending = none) : (s.dispatchBar e i).1.pending = none := by
  by_cases htakes : s.Takes e.bar
  · rw [dispatchBar, if_pos htakes]
    split
    · next raised hout => rw [feedBar_pending h, hout]; rfl
    · rfl
  · rw [dispatchBar_ignored htakes]
    exact h

/-- With nothing pending the answer is the signal of this very bar. -/
theorem dispatchBar_signal (h : i.pending = none) (htakes : s.Takes e.bar) :
    (s.dispatchBar e i).2 = Outcome.signal (s.onBar e (i.sessions e.bar.symbol)).2 := by
  rw [dispatchBar, if_pos htakes]
  split
  · next raised hout => rw [hout]; rfl
  · exact feedBar_pending h

/-- The state of a symbol is that of its own bars. -/
theorem feed_sessions (es : List Dispatch) (i : Instance δ ρ) (symbol : String) :
    (s.feed es i).sessions symbol = s.session (s.barsOf symbol es) (i.sessions symbol) := by
  induction es generalizing i with
  | nil => rfl
  | cons e es ih =>
    rw [feed_cons, ih]
    by_cases htakes : s.Takes e.bar
    · rw [dispatchBar_sessions htakes]
      by_cases hsym : e.bar.symbol = symbol
      · subst hsym
        simp [barsOf, htakes]
      · simp [barsOf, hsym, Function.update_of_ne (Ne.symm hsym)]
    · rw [dispatchBar_ignored htakes]
      simp [barsOf, htakes]

theorem feed_pending (es : List Dispatch) (h : i.pending = none) :
    (s.feed es i).pending = none := by
  induction es generalizing i with
  | nil => exact h
  | cons e es ih => exact ih (dispatchBar_pending h)

@[simp] theorem feed_state (es : List Dispatch) : (s.feed es i).state = i.state := by
  induction es generalizing i with
  | nil => rfl
  | cons e es ih => rw [feed_cons, ih, dispatchBar_state]

end Strategy

/-- `volumes[-11:-1]` averaged, once there are eleven. -/
def averageVolume (volumes : List ℤ) : ℚ :=
  if 11 ≤ volumes.length then ((lastN 11 volumes).dropLast.sum : ℤ) / 10 else 0

end QuantEmbrace.Strategies
