import QuantEmbrace.DailySessions
import Mathlib.Logic.Equiv.Nat

/-! What survives a restart of the strategy engine: the state that is saved and restored, and
the dictionaries of the strategies, which are in no part of it. -/
namespace QuantEmbrace.Strategies
open Indicators Candles PythonValue

/-- What the service uses of the standard library to write a state and to read it. -/
structure StateCodec where
  isoformat : ℤ → Text
  fromisoformat : Text → Py ℤ
  str : Json → Text
  dictOf : Json → Py (List (Text × Json))
  isoformat_ne : ∀ t, isoformat t ≠ []
  fromisoformat_isoformat : ∀ t, fromisoformat (isoformat t) = .ok t
  str_text : ∀ t, str (.text t) = t
  dictOf_dict : ∀ entries, dictOf (.dict entries) = .ok entries

namespace StateCodec
variable (codec : StateCodec)

/-- `_serialize_strategy_state` and `json.dumps` -/
def serializeStrategyState (strategyName : Text) (state : StrategyState) : Json :=
  .dict [(Text.of "custom_state", .dict state.customState),
    (Text.of "indicators", .dict state.indicators),
    (Text.of "last_signal_time",
      state.lastSignalTime.elim .null fun t => .text (codec.isoformat t)),
    (Text.of "positions", .dict state.positions),
    (Text.of "strategy_name", (Json.text state.strategyName).orElse (.text strategyName))]

/-- `_deserialize_strategy_state` of what `json.loads` returns -/
def deserializeStrategyState (strategyName : Text) : Json → Py StrategyState
  | .dict payload => do
    let rawTime := Json.field payload "last_signal_time"
    let lastSignalTime ←
      if rawTime.truthy then some <$> codec.fromisoformat (codec.str rawTime) else pure none
    let positions ← codec.dictOf ((Json.field payload "positions").orElse (.dict []))
    let indicators ← codec.dictOf ((Json.field payload "indicators").orElse (.dict []))
    let customState ← codec.dictOf ((Json.field payload "custom_state").orElse (.dict []))
    return {
      strategyName := codec.str ((Json.field payload "strategy_name").orElse (.text strategyName))
      positions, indicators, lastSignalTime, customState }
  | _ => .error (.typeError (Text.of "Persisted strategy state must decode to a JSON object"))

theorem dictOf_orElse (entries : List (Text × Json)) :
    codec.dictOf ((Json.dict entries).orElse (.dict [])) = .ok entries := by
  cases entries <;> exact codec.dictOf_dict _

/-- The state comes back as it was, if it has a name or the strategy's. -/
theorem deserialize_serialize (strategyName : Text) (state : StrategyState)
    (hname : state.strategyName ≠ [] ∨ state.strategyName = strategyName) :
    codec.deserializeStrategyState strategyName
      (codec.serializeStrategyState strategyName state) = .ok state := by
  obtain ⟨name, positions, indicators, lastSignalTime, customState⟩ := state
  have hstored : (Json.text name).orElse (.text strategyName) = .text name := by
    obtain hne | heq := hname
    · have hne : name ≠ [] := hne
      simp [Json.orElse, Json.truthy, hne]
    · have heq : name = strategyName := heq
      rw [heq, Json.orElse, ite_self]
  rw [serializeStrategyState, hstored, deserializeStrategyState]
  simp (disch := decide) only [Json.field_cons_self, Json.field_cons_ne, dictOf_orElse,
    hstored, codec.str_text]
  cases lastSignalTime with
  | none => rfl
  | some t =>
    have htruthy : (Json.text (codec.isoformat t)).truthy = true := by
      simp [Json.truthy, codec.isoformat_ne]
    simp only [Option.elim_some, htruthy, if_true, codec.str_text, codec.fromisoformat_isoformat]
    rfl

end StateCodec

namespace Strategy
variable {δ ρ : Type} (s : Strategy δ ρ) (codec : StateCodec)

/-- `initialize` -/
def initializeWith (saved : Option StrategyState) (i : Instance δ ρ) : Instance δ ρ :=
  { i with state := saved.getD i.state }

/-- Shutdown and start: `get_state` is saved, and a new instance is initialized with it. -/
def restart (i : Instance δ ρ) : Instance δ ρ :=
  let item := codec.serializeStrategyState (Text.of s.name) i.state
  initializeWith (codec.deserializeStrategyState (Text.of s.name) item).toOption s.new

end Strategy

namespace Strategy
variable {δ ρ : Type} {s : Strategy δ ρ} {codec : StateCodec}

/-- A restart leaves a new instance: the state that comes back is as it always was. -/
theorem restart_feed (codec : StateCodec) (first : List Dispatch) :
    s.restart codec (s.feed first s.new) = s.new := by
  have hback := codec.deserialize_serialize (Text.of s.name) s.new.state (.inr rfl)
  rw [restart, feed_state, hback]
  rfl

end Strategy

namespace Registered

/-- The bar is stamped in the hours in which the strategy may signal. -/
def InHours (r : Registered) (bar : Bar) : Prop :=
  match r with
  | momentum _ => True
  | orb p => p.InHours bar
  | scalp1m _ => Scalp1mStrategy.InHours bar
  | vwapReversion _ _ => VWAPReversionStrategy.InHours bar
  | intradayTrend15m _ => IntradayTrend15mStrategy.InHours bar
  | preCloseMomentum _ => PreCloseMomentumStrategy.InHours bar

/-- The number of closes in the buffers, and the number that a signal needs. -/
def history : (r : Registered) → Session r.Daily r.Rolling → ℕ
  | momentum _, x => ((MomentumRolling.closes x.rolling).getD []).length
  | orb _, x => (OrbRolling.closes x.rolling).length
  | scalp1m _, x => (ScalpRolling.toPriceBuffers x.rolling).closes.length
  | vwapReversion _ _, x => (VwapRolling.atr x.rolling).closes.length
  | intradayTrend15m _, x => (PriceBuffers.closes x.rolling).length
  | preCloseMomentum _, x => (PreCloseRolling.toPriceBuffers x.rolling).closes.length

def warmUp : Registered → ℕ
  | momentum p => max p.longWindow p.atrPeriod
  | orb p => p.atrPeriod + 1
  | scalp1m p => p.slow + 2
  | vwapReversion p _ => p.atrPeriod + 1
  | intradayTrend15m p => p.trend + 2
  | preCloseMomentum p => p.atrPeriod + 1

variable (r : Registered) (e : Dispatch) (x : Session r.Daily r.Rolling)

theorem signal_outside_hours (h : ¬ r.InHours e.bar) :
    Outcome.signal (r.strategy.onBar e x).2 = none := by
  suffices hok : (r.strategy.onBar e x).2 = .ok none by rw [hok]; rfl
  cases r with
  | momentum p => exact absurd trivial h
  | orb p => exact ORBStrategy.onBar_quiet e x h
  | scalp1m p => exact Scalp1mStrategy.onBar_quiet p e x h
  | vwapReversion p sqrt => exact VWAPReversionStrategy.onBar_quiet p sqrt e x h
  | intradayTrend15m p => exact IntradayTrend15mStrategy.onBar_quiet p e x h
  | preCloseMomentum p => exact PreCloseMomentumStrategy.onBar_quiet p e x h

theorem signal_warming_up (h : r.history x + 1 < r.warmUp) :
    Outcome.signal (r.strategy.onBar e x).2 = none := by
  cases r with
  | momentum p => exact MomentumStrategy.onBar_short p e x h
  | orb p => exact congrArg Outcome.signal (ORBStrategy.onBar_short e x (Nat.lt_of_succ_lt_succ h))
  | scalp1m p =>
    exact congrArg Outcome.signal
      (Scalp1mStrategy.onBar_short p e x (Nat.le_of_lt_succ (Nat.lt_of_succ_lt_succ h)))
  | vwapReversion p sqrt =>
    exact VWAPReversionStrategy.onBar_short p sqrt e x (Nat.lt_of_succ_lt_succ h)
  | intradayTrend15m p =>
    exact congrArg Outcome.signal
      (IntradayTrend15mStrategy.onBar_short p e x (Nat.le_of_lt_succ (Nat.lt_of_succ_lt_succ h)))
  | preCloseMomentum p =>
    exact congrArg Outcome.signal
      (PreCloseMomentumStrategy.onBar_short p e x (Nat.lt_of_succ_lt_succ h))

/-- A bar adds at most one close. -/
theorem history_onBar : r.history (r.strategy.onBar e x).1 ≤ r.history x + 1 := by
  cases r with
  | momentum p => exact MomentumStrategy.length_closes_le p e x
  | orb p => exact ORBStrategy.length_closes_le e x
  | scalp1m p => exact Scalp1mStrategy.length_closes_le p e x
  | vwapReversion p sqrt => exact VWAPReversionStrategy.length_closes_le p sqrt e x
  | intradayTrend15m p => exact IntradayTrend15mStrategy.length_closes_le p e x
  | preCloseMomentum p => exact PreCloseMomentumStrategy.length_closes_le p e x

variable {r e x} {y : Session r.Daily r.Rolling} {bars : List Dispatch}

theorem history_session (bars : List Dispatch) (x : Session r.Daily r.Rolling) :
    r.history (r.strategy.session bars x) ≤ r.history x + bars.length := by
  induction bars generalizing x with
  | nil => exact le_refl _
  | cons e bars ih =>
    have hstep := r.history_onBar e x
    have hrest := ih (r.strategy.onBar e x).1
    rw [Strategy.session_cons, List.length_cons]
    omega

theorem history_fresh : r.history r.strategy.fresh = 0 := by
  cases r <;> rfl

/-- Two states of a symbol that answer alike to its bars: they are equal, or neither signals, for
want of hours or of history. -/
def Alike (r : Registered) (bars : List Dispatch) (x y : Session r.Daily r.Rolling) : Prop :=
  x = y ∨ (∀ e ∈ bars, ¬ r.InHours e.bar) ∨
    r.history x + bars.length < r.warmUp ∧ r.history y + bars.length < r.warmUp

theorem Alike.answer (h : r.Alike (e :: bars) x y) :
    Outcome.signal (r.strategy.onBar e x).2 = Outcome.signal (r.strategy.onBar e y).2 := by
  obtain rfl | hout | ⟨hx, hy⟩ := h
  · rfl
  · have hquiet := hout e (by simp)
    rw [r.signal_outside_hours e x hquiet, r.signal_outside_hours e y hquiet]
  · rw [List.length_cons] at hx hy
    rw [r.signal_warming_up e x (by omega), r.signal_warming_up e y (by omega)]

theorem Alike.next (h : r.Alike (e :: bars) x y) :
    r.Alike bars (r.strategy.onBar e x).1 (r.strategy.onBar e y).1 := by
  obtain rfl | hout | ⟨hx, hy⟩ := h
  · exact .inl rfl
  · exact .inr (.inl fun a ha => hout a (List.mem_cons_of_mem e ha))
  · have hxs := r.history_onBar e x
    have hys := r.history_onBar e y
    rw [List.length_cons] at hx hy
    exact .inr (.inr ⟨by omega, by omega⟩)

/-- Instances whose states answer alike give the same answers. -/
theorem signals_congr (es : List Dispatch) {i j : Instance r.Daily r.Rolling}
    (hi : i.pending = none) (hj : j.pending = none)
    (h : ∀ symbol, r.Alike (r.strategy.barsOf symbol es) (i.sessions symbol)
      (j.sessions symbol)) :
    r.strategy.signals es i = r.strategy.signals es j := by
  induction es generalizing i j with
  | nil => rfl
  | cons e es ih =>
    rw [Strategy.signals, Strategy.signals]
    by_cases htakes : r.strategy.Takes e.bar
    · have hown := h e.bar.symbol
      rw [Strategy.barsOf_cons_self _ htakes] at hown
      rw [Strategy.dispatchBar_signal hi htakes, Strategy.dispatchBar_signal hj htakes,
        hown.answer, ih (Strategy.dispatchBar_pending hi) (Strategy.dispatchBar_pending hj)]
      intro symbol
      rw [Strategy.dispatchBar_sessions htakes, Strategy.dispatchBar_sessions htakes]
      by_cases hsym : symbol = e.bar.symbol
      · subst hsym
        rw [Function.update_self, Function.update_self]
        exact hown.next
      · have hother := h symbol
        rw [Strategy.barsOf_cons_ne _ fun ha => hsym ha.2.symm] at hother
        rw [Function.update_of_ne hsym, Function.update_of_ne hsym]
        exact hother
    · rw [Strategy.dispatchBar_ignored htakes, Strategy.dispatchBar_ignored htakes, ih hi hj]
      intro symbol
      have hother := h symbol
      rwa [Strategy.barsOf_cons_ne _ fun ha => htakes ha.1] at hother

end Registered

/-- After a restart the signals are those of the uninterrupted instance, if each symbol with bars
before it has none after it in the hours of the strategy, or too few in all for a signal. -/
theorem warm_restart_same_signals (r : Registered) (codec : StateCodec)
    (first rest : List Dispatch)
    (h : ∀ symbol, r.strategy.barsOf symbol first = [] ∨
      (∀ e ∈ r.strategy.barsOf symbol rest, ¬ r.InHours e.bar) ∨
      (r.strategy.barsOf symbol (first ++ rest)).length < r.warmUp) :
    r.strategy.signals rest (r.strategy.restart codec (r.strategy.feed first r.strategy.new)) =
      r.strategy.signals rest (r.strategy.feed first r.strategy.new) := by
  rw [Strategy.restart_feed]
  refine Registered.signals_congr rest rfl (Strategy.feed_pending first rfl) fun symbol => ?_
  rw [Strategy.feed_sessions]
  obtain hfirst | hhours | hshort := h symbol
  · refine .inl ?_
    rw [hfirst, Strategy.session_nil]
  · exact .inr (.inl hhours)
  · have hkept := Registered.history_session (r.strategy.barsOf symbol first) r.strategy.fresh
    have hnew := Registered.history_fresh (r := r)
    rw [Strategy.barsOf_append, List.length_append] at hshort
    rw [hnew, Nat.zero_add] at hkept
    have hfresh : r.history (r.strategy.new.sessions symbol) = 0 := hnew
    exact .inr (.inr ⟨by omega, (Nat.add_le_add_right hkept _).trans_lt hshort⟩)

/-- Times as the lengths of texts. -/
def unaryCodec : StateCodec where
  isoformat t := List.replicate (Equiv.intEquivNat t + 1) (.scalar '0')
  fromisoformat text := .ok (Equiv.intEquivNat.symm (text.length - 1))
  str
    | .text t => t
    | _ => []
  dictOf
    | .dict entries => .ok entries
    | _ => .error (.typeError [])
  isoformat_ne t := by simp [List.replicate_succ]
  fromisoformat_isoformat t := by simp
  str_text _ := rfl
  dictOf_dict _ := rfl

theorem warm_restart_same_signals_after_hours :
    infyOrb.strategy.signals [infyBar 0 900 120 110 115 5000]
        (infyOrb.strategy.restart unaryCodec
          (infyOrb.strategy.feed (breakoutDay 0) infyOrb.strategy.new)) =
      infyOrb.strategy.signals [infyBar 0 900 120 110 115 5000]
        (infyOrb.strategy.feed (breakoutDay 0) infyOrb.strategy.new) := by
  refine warm_restart_same_signals (.orb infyOrb) unaryCodec (breakoutDay 0)
    [infyBar 0 900 120 110 115 5000] fun symbol => .inr (.inl fun e he => ?_)
  obtain rfl := List.mem_singleton.mp (List.mem_of_mem_filter he)
  exact fun hhours => absurd hhours.2 (by decide +kernel)

/-- Restarted between the confirmation of its range and the breakout, the strategy stays silent. -/
theorem breakout_lost_at_restart :
    ¬ ∀ (r : Registered) (codec : StateCodec) (first rest : List Dispatch),
      r.strategy.signals rest (r.strategy.restart codec (r.strategy.feed first r.strategy.new)) =
        r.strategy.signals rest (r.strategy.feed first r.strategy.new) := by
  intro h
  have hsame := h (.orb infyOrb) unaryCodec ((breakoutDay 0).take 16) ((breakoutDay 0).drop 16)
  rw [Strategy.restart_feed] at hsame
  have hnew : (infyOrb.strategy.signals ((breakoutDay 0).drop 16)
      infyOrb.strategy.new).map (·.isSome) = [false] := by decide +kernel
  have hkept : (infyOrb.strategy.signals ((breakoutDay 0).drop 16)
      (infyOrb.strategy.feed ((breakoutDay 0).take 16) infyOrb.strategy.new)).map (·.isSome) =
      [true] := by decide +kernel
  have hanswers := congrArg (List.map (·.isSome)) hsame
  exact absurd (hnew.symm.trans (hanswers.trans hkept)) (by decide)

end QuantEmbrace.Strategies
