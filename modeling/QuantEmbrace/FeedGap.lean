import QuantEmbrace.EntryBlock
import QuantEmbrace.OrderEvents
import QuantEmbrace.TickOrder
import QuantEmbrace.Lib.Countdown

/-! The first ticks after a gap in a feed: the connectors mark them, and the mark goes with the tick
through the tasks of the publisher and the topic to the strategies, which take no signal of it. -/
namespace QuantEmbrace.DataIngestion
open Countdown IsoFormat PythonValue SignalFlow

def reconnectGapTicks : ℕ := 20

section Zerodha

/-- A raw tick as the connector reads it; what it cannot read raises an error. -/
structure KiteTick where
  token : ℤ
  depth : Option (ℚ × ℚ)
  lastPrice : Option ℚ
  volume : Option ℤ
  timestamp : ℚ
  deriving DecidableEq, Repr

structure ZerodhaConnector where
  instrumentMap : List (String × ℤ)
  gapTicksRemaining : Counters String := fun _ => 0

namespace ZerodhaConnector
variable (c : ZerodhaConnector)

/-- `_reverse_map`, in which the last symbol with a token stands. -/
def symbolOf (token : ℤ) : String :=
  match c.instrumentMap.reverse.find? fun entry => entry.2 = token with
  | some entry => entry.1
  | none => "UNKNOWN"

def symbols : List String := c.instrumentMap.map Prod.fst

/-- `_on_reconnect_callback` -/
def onReconnect : ZerodhaConnector :=
  { c with gapTicksRemaining := arm reconnectGapTicks c.symbols c.gapTicksRemaining }

/-- `_normalize_tick`: the count goes down before the price and the volume are read. -/
def normalizeTick (raw : KiteTick) : ZerodhaConnector × Option String × Option NormalizedTick :=
  match raw.depth with
  | none => (c, none, none)
  | some (bid, ask) =>
    let symbol := c.symbolOf raw.token
    let gap := decide (0 < c.gapTicksRemaining symbol)
    ({ c with gapTicksRemaining := consume symbol c.gapTicksRemaining }, some symbol,
      match raw.lastPrice, raw.volume with
      | some lastPrice, some volume => some {
          symbol := symbol
          market := .nse
          lastPrice := lastPrice
          bid := some bid
          ask := some ask
          volume := volume
          timestamp := raw.timestamp
          gapDetected := gap }
      | _, _ => none)

/-- The symbol of a tick that has been counted goes with it, marked while its count is not over. -/
theorem normalizeTick_spec (raw : KiteTick) : ∃ counted tick,
    c.normalizeTick raw = (
      { c with
        gapTicksRemaining := counted.elim c.gapTicksRemaining (consume · c.gapTicksRemaining) },
      counted, tick) ∧
    ∀ t, tick = some t → counted = some t.symbol ∧ t.market = .nse ∧
      t.gapDetected = decide (0 < c.gapTicksRemaining t.symbol) := by
  rw [normalizeTick]
  cases raw.depth with
  | none => exact ⟨none, none, rfl, fun t ht => by cases ht⟩
  | some depth =>
    refine ⟨some (c.symbolOf raw.token), _, rfl, fun t ht => ?_⟩
    split at ht
    · cases ht
      exact ⟨rfl, rfl, rfl⟩
    · cases ht

end ZerodhaConnector

end Zerodha

section Alpaca

/-- A trade or a quote as the connector reads it; what it cannot read raises an error. -/
inductive AlpacaTick where
  | trade (symbol : String) (price : Option ℚ) (size : Option ℤ) (timestamp : ℚ)
  | quote (symbol : String) (book : Option (ℚ × ℚ × ℤ)) (timestamp : ℚ)
  deriving DecidableEq, Repr

structure AlpacaConnector where
  subscribedSymbols : List String := []
  gapTicksRemaining : Counters String := fun _ => 0

namespace AlpacaConnector
variable (c : AlpacaConnector)

/-- `_arm_gap_counters` -/
def armGapCounters (symbols : List String) : AlpacaConnector :=
  { c with gapTicksRemaining := arm reconnectGapTicks symbols c.gapTicksRemaining }

def subscribe (symbols : List String) : AlpacaConnector :=
  { c with subscribedSymbols := c.subscribedSymbols ++ symbols }.armGapCounters symbols

def unsubscribe (symbols : List String) : AlpacaConnector :=
  { c with subscribedSymbols := c.subscribedSymbols.filter fun s => s ∉ symbols }

/-- `_consume_gap_tick` -/
def consumeGapTick (symbol : String) : AlpacaConnector × Bool :=
  ({ c with gapTicksRemaining := consume symbol c.gapTicksRemaining },
    decide (0 < c.gapTicksRemaining symbol))

def normalizeTrade (symbol : String) (price : Option ℚ) (size : Option ℤ) (timestamp : ℚ) :
    AlpacaConnector × Option String × Option NormalizedTick :=
  match price with
  | none => (c, none, none)
  | some price =>
    let (c, gap) := c.consumeGapTick symbol
    (c, some symbol, size.map fun size => {
      symbol := symbol
      market := .us
      lastPrice := price
      bid := some price
      ask := some price
      volume := size
      timestamp := timestamp
      gapDetected := gap })

def normalizeQuote (symbol : String) (book : Option (ℚ × ℚ × ℤ)) (timestamp : ℚ) :
    AlpacaConnector × Option String × Option NormalizedTick :=
  match book with
  | none => (c, none, none)
  | some (bid, ask, size) =>
    let (c, gap) := c.consumeGapTick symbol
    (c, some symbol, some {
      symbol := symbol
      market := .us
      lastPrice :=
        if 0 < bid ∧ 0 < ask then (bid + ask) / 2 else if bid ≠ 0 then bid else ask
      bid := some bid
      ask := some ask
      volume := size
      timestamp := timestamp
      gapDetected := gap })

/-- `_normalize_tick` -/
def normalizeTick : AlpacaTick → AlpacaConnector × Option String × Option NormalizedTick
  | .trade symbol price size timestamp => c.normalizeTrade symbol price size timestamp
  | .quote symbol book timestamp => c.normalizeQuote symbol book timestamp

theorem normalizeTick_spec (raw : AlpacaTick) : ∃ counted tick,
    c.normalizeTick raw = (
      { c with
        gapTicksRemaining := counted.elim c.gapTicksRemaining (consume · c.gapTicksRemaining) },
      counted, tick) ∧
    ∀ t, tick = some t → counted = some t.symbol ∧ t.market = .us ∧
      t.gapDetected = decide (0 < c.gapTicksRemaining t.symbol) := by
  cases raw with
  | trade symbol price size timestamp =>
    cases price with
    | none => exact ⟨none, none, rfl, fun t ht => by cases ht⟩
    | some price =>
      refine ⟨some symbol, _, rfl, fun t ht => ?_⟩
      obtain ⟨size, -, rfl⟩ := Option.map_eq_some_iff.mp ht
      exact ⟨rfl, rfl, rfl⟩
  | quote symbol book timestamp =>
    cases book with
    | none => exact ⟨none, none, rfl, fun t ht => by cases ht⟩
    | some book =>
      refine ⟨some symbol, _, rfl, fun t ht => ?_⟩
      cases ht
      exact ⟨rfl, rfl, rfl⟩

end AlpacaConnector

end Alpaca

section Feed

/-- The connectors before the tasks of the publisher; ticks that wait for their task to start; and
what the connectors have armed and counted. -/
structure Feed where
  zerodha : ZerodhaConnector
  alpaca : AlpacaConnector := {}
  pending : List NormalizedTick := []
  ingestion : Ingestion := {}
  marks : List (Countdown.Event (Market × String)) := []

inductive FeedEvent where
  | reconnect
  | kiteTick (raw : KiteTick)
  | subscribe (symbols : List String)
  | unsubscribe (symbols : List String)
  | streamFailed
  | alpacaTick (raw : AlpacaTick)
  | start (k : ℕ) (stamp : Stamp) (outcome : ProduceOutcome)
  | resume (a : Resume)

namespace Feed
variable (p : Pipeline)

/-- A tick that has been normalized waits for its task; one that raised is dropped. -/
def deliver (market : Market) (counted : Option String) (tick : Option NormalizedTick)
    (w : Feed) : Feed :=
  { w with
    marks := w.marks ++ counted.toList.map fun symbol => .consume (market, symbol)
    pending := w.pending ++ tick.toList }

def step (w : Feed) : FeedEvent → Feed
  | .reconnect =>
    { w with
      zerodha := w.zerodha.onReconnect
      marks := w.marks ++ [.arm (w.zerodha.symbols.map (Market.nse, ·))] }
  | .kiteTick raw =>
    let (zerodha, counted, tick) := w.zerodha.normalizeTick raw
    deliver .nse counted tick { w with zerodha }
  | .subscribe symbols =>
    { w with
      alpaca := w.alpaca.subscribe symbols
      marks := w.marks ++ [.arm (symbols.map (Market.us, ·))] }
  | .unsubscribe symbols => { w with alpaca := w.alpaca.unsubscribe symbols }
  | .streamFailed =>
    { w with
      alpaca := w.alpaca.armGapCounters w.alpaca.subscribedSymbols
      marks := w.marks ++ [.arm (w.alpaca.subscribedSymbols.map (Market.us, ·))] }
  | .alpacaTick raw =>
    let (alpaca, counted, tick) := w.alpaca.normalizeTick raw
    deliver .us counted tick { w with alpaca }
  | .start k stamp outcome =>
    match w.pending[k]? with
    | some tick =>
      { w with
        pending := w.pending.eraseIdx k
        ingestion := w.ingestion.step p (.arrive tick stamp outcome) }
    | none => w
  | .resume (.arrive ..) => w
  | .resume a => { w with ingestion := w.ingestion.step p a }

def run (instrumentMap : List (String × ℤ)) (events : List FeedEvent) : Feed :=
  events.foldl (step p) { zerodha := { instrumentMap } }

theorem run_snoc (instrumentMap : List (String × ℤ)) (events : List FeedEvent) (e : FeedEvent) :
    run p instrumentMap (events ++ [e]) = (run p instrumentMap events).step p e := by
  rw [run, List.foldl_append]
  rfl

end Feed

/-- The counters of the connectors are those of what they have armed and counted. -/
structure Feed.Counts (w : Feed) : Prop where
  nse : ∀ symbol, w.zerodha.gapTicksRemaining symbol =
    Countdown.run reconnectGapTicks w.marks (.nse, symbol)
  us : ∀ symbol, w.alpaca.gapTicksRemaining symbol =
    Countdown.run reconnectGapTicks w.marks (.us, symbol)

/-- The symbol is among its first ticks since a gap. -/
def Feed.InGap (w : Feed) (market : Market) (symbol : String) : Prop :=
  Within reconnectGapTicks w.marks (market, symbol)

/-- The tick that a connector makes of the event. -/
def Feed.delivered (w : Feed) : FeedEvent → Option NormalizedTick
  | .kiteTick raw => (w.zerodha.normalizeTick raw).2.2
  | .alpacaTick raw => (w.alpaca.normalizeTick raw).2.2
  | _ => none

end Feed

section Topic

def TickType.value : TickType → String
  | .full => "FULL"
  | .quote => "QUOTE"
  | .ltp => "LTP"

def optionalNumber : Option ℚ → Json
  | none => .null
  | some x => .float (.finite x)

/-- The message of an event; `utc` gives the time of an instant. -/
def TickEvent.body (utc : ℚ → DateTime) (e : TickEvent) : Body := [
  ("event_id", .string e.eventId),
  ("trace_id", .string e.traceId),
  ("event_type", .string "TICK"),
  ("schema_version", .string "3.0"),
  ("source", .string e.source),
  ("published_time", isoText (utc e.publishedTime)),
  ("instrument_id", .string e.instrumentId),
  ("market", .string e.market.value),
  ("session_id", .string e.sessionId),
  ("sequence_id", .int e.sequenceId),
  ("exchange_sequence", .int e.exchangeSequence),
  ("exchange_time", isoText (utc e.exchangeTime)),
  ("ltp", .float (.finite e.ltp)),
  ("volume", .int e.volume),
  ("bid", optionalNumber e.bid),
  ("ask", optionalNumber e.ask),
  ("tick_type", .string e.tickType.value),
  ("gap_detected", .bool e.gapDetected)]

/-- A tick event of the strategy engine. -/
structure TickMessage where
  symbol : String
  market : String
  price : JsonFloat
  volume : ℤ
  timestamp : DateTime
  traceId : Json
  sequenceId : ℤ
  gapDetected : Bool

/-- `_coerce_bool`, with `strip` and `lower` of a text. -/
def coerceBool (stripLower : Text → String) : Json → Bool
  | .bool b => b
  | .text t => stripLower t ∈ ["1", "true", "yes", "y"]
  | value => value.truthy

inductive PolledTick where
  | event (m : TickMessage)
  | deadLetter
  | raised (error : EventError)

variable (py : Python) (stripLower : Text → String)

def readTick (body : Body) : Parsed TickMessage := do
  let instrumentId ← methodText (← body.index "instrument_id")
  let (market, symbol) ← splitInstrument instrumentId
  let timestamp ← parseIso py (← body.index "exchange_time")
  let price ← toFloat py (← body.index "ltp")
  let volume := body.get "volume" .null
  let volume ← toInteger (if volume.truthy then volume else .int 0)
  let sequenceId ← toInteger (body.get "sequence_id" (.int 0))
  return {
    symbol
    market
    price
    volume
    timestamp
    traceId := body.get "trace_id" (.string "")
    sequenceId
    gapDetected := coerceBool stripLower (body.get "gap_detected" (.bool false)) }

/-- `_parse_message` -/
def parseMessage : SignalFlow.Payload → PolledTick
  | .malformed => .deadLetter
  | .notDict => .deadLetter
  | .dict body =>
    if (body.get "schema_version" .null).asString ≠ some "3.0" then .deadLetter
    else match readTick py stripLower body with
      | .ok m => .event m
      | .error error => if error.caught then .deadLetter else .raised error

/-- The tick as it comes out of its message. -/
def NormalizedTick.message (utc : ℚ → DateTime) (tick : NormalizedTick) (stamp : Stamp) (n : ℕ) :
    TickMessage where
  symbol := tick.symbol
  market := tick.market.value
  price := .finite tick.lastPrice
  volume := tick.volume
  timestamp := (utc tick.timestamp).aware
  traceId := .string stamp.traceId
  sequenceId := n
  gapDetected := tick.gapDetected

/-- The event that the publisher builds of a tick is parsed to the tick. -/
theorem parseMessage_buildEvent (utc : ℚ → DateTime) (tick : NormalizedTick) (stamp : Stamp)
    (n : ℕ) : parseMessage py stripLower (.dict ((buildEvent tick stamp n).body utc)) =
      .event (tick.message utc stamp n) := by
  set body := (buildEvent tick stamp n).body utc with hbody
  have hversion : (body.get "schema_version" .null).asString = some "3.0" :=
    Json.asString_string _
  have hinstrument : body.index "instrument_id" = .ok (.string tick.instrumentId) := rfl
  have htime : body.index "exchange_time" = .ok (isoText (utc tick.timestamp)) := rfl
  have hprice : body.index "ltp" = .ok (.float (.finite tick.lastPrice)) := rfl
  have hvolume : body.get "volume" .null = .int tick.volume := rfl
  have hsequence : body.get "sequence_id" (.int 0) = .int n := rfl
  have hmarket : ':' ∉ tick.market.value.toList := by cases tick.market <;> decide
  have hint : toInteger (if (Json.int tick.volume).truthy then .int tick.volume else .int 0) =
      .ok tick.volume := by
    by_cases hzero : tick.volume = 0
    · rw [hzero]
      rfl
    · rw [if_pos (by simpa [Json.truthy] using hzero)]
      rfl
  have hread : readTick py stripLower body = .ok (tick.message utc stamp n) := by
    rw [readTick]
    simp only [ok_bind, hinstrument, htime, hprice, hvolume, hsequence, methodText_string,
      NormalizedTick.instrumentId, splitInstrument_eq hmarket, parseIso_isoText, toFloat, hint]
    rfl
  rw [parseMessage, if_neg (not_not.mpr hversion), hread]

end Topic

namespace Ingestion
variable {p : Pipeline} {s : Ingestion} {i : ℕ} {tick : NormalizedTick} {event : TickEvent}

/-- The event is that of the tick with that number of arrival. -/
def BuiltOf (s : Ingestion) (i : ℕ) (event : TickEvent) : Prop :=
  ∃ tick stamp n, s.ticks[i]? = some tick ∧ event = buildEvent tick stamp n

/-- Whatever is overtaken, a task goes on with its own tick. -/
structure Own (s : Ingestion) : Prop where
  event : ∀ i e, s.Numbered i e → s.BuiltOf i e
  batch : ∀ i tick batch, s.phase i = .flushing tick batch → s.ticks[i]? = some tick

theorem Own.setPhase {phase : Phase} (h : Own s)
    (hcarried : ∀ e, phase.carried = some e → s.BuiltOf i e)
    (hbatch : ∀ tick batch, phase = .flushing tick batch → s.ticks[i]? = some tick) :
    Own (setPhase i phase s) where
  event j e hn := by
    obtain hj | hj := hn
    · rw [phase_setPhase] at hj
      split at hj
      · next heq => exact heq ▸ hcarried e hj
      · exact h.event j e (.inl hj)
    · exact h.event j e (.inr hj)
  batch j tick batch hj := by
    rw [phase_setPhase] at hj
    split at hj
    · next heq => exact heq ▸ hbatch tick batch hj
    · exact h.batch j tick batch hj

theorem Own.accept (h : Own s) (hevent : s.BuiltOf i event) : Own (accept i event s) := by
  have hproduced : Own { s with produced := s.produced ++ [⟨i, event⟩] } := by
    refine ⟨fun j e hn => ?_, h.batch⟩
    obtain hj | hj := hn
    · exact h.event j e (.inl hj)
    · obtain hj | hj := List.mem_append.mp hj
      · exact h.event j e (.inr hj)
      · cases List.mem_singleton.mp hj
        exact hevent
  exact hproduced.setPhase (fun e he => by cases he) fun _ _ he => by cases he

theorem Own.produce {outcome : ProduceOutcome} (h : Own s) (hevent : s.BuiltOf i event) :
    Own (produce i event s outcome) := by
  cases outcome with
  | accepted => exact h.accept hevent
  | bufferFull =>
    refine h.setPhase (fun e he => ?_) fun _ _ he => by cases he
    cases he
    exact hevent
  | kafkaError => exact h.setPhase (fun e he => by cases he) fun _ _ he => by cases he

theorem Own.publish {stamp : Stamp} {outcome : ProduceOutcome} (h : Own s)
    (htick : s.ticks[i]? = some tick) : Own (publish p i tick stamp outcome s) := by
  have hnext : Own { s with sequenceId := s.sequenceId + 1 } := ⟨h.event, h.batch⟩
  have hevent : BuiltOf { s with sequenceId := s.sequenceId + 1 } i
      (buildEvent tick stamp (s.sequenceId + 1)) := ⟨tick, stamp, s.sequenceId + 1, htick, rfl⟩
  rw [Ingestion.publish]
  split
  · refine hnext.setPhase (fun e he => ?_) fun _ _ he => by cases he
    cases he
    exact hevent
  · exact hnext.produce hevent

theorem Own.arrive (h : Own s) (tick : NormalizedTick) :
    Own { s with ticks := s.ticks ++ [tick] } where
  event i e hn := by
    obtain ⟨t, stamp, n, ht, he⟩ := h.event i e hn
    exact ⟨t, stamp, n, List.getElem?_append_left (List.getElem?_eq_some_iff.mp ht).1 ▸ ht, he⟩
  batch i t batch hi := by
    have ht := h.batch i t batch hi
    exact List.getElem?_append_left (List.getElem?_eq_some_iff.mp ht).1 ▸ ht

theorem Own.step (h : Own s) (a : Resume) : Own (s.step p a) := by
  cases a with
  | arrive tick stamp outcome =>
    have harrive := h.arrive tick
    have htick : (s.ticks ++ [tick])[s.ticks.length]? = some tick := by simp
    rw [Ingestion.step, processTick]
    split
    · exact harrive
    · split
      · exact Own.setPhase ⟨harrive.event, harrive.batch⟩ (fun e he => by cases he)
          fun t b he => by cases he; exact htick
      · exact Own.publish ⟨harrive.event, harrive.batch⟩ htick
  | flushed i uploaded stamp outcome =>
    rw [Ingestion.step]
    cases hi : s.phase i with
    | flushing tick batch => exact Own.publish ⟨h.event, h.batch⟩ (h.batch i tick batch hi)
    | idle => exact h
    | storing event => exact h
    | retrying event => exact h
  | stored i written outcome =>
    rw [Ingestion.step]
    cases hi : s.phase i with
    | storing event =>
      dsimp only
      split
      · exact h.produce (h.event i event (.inl (by rw [hi]; rfl)))
      · exact h.setPhase (fun e he => by cases he) fun _ _ he => by cases he
    | idle => exact h
    | flushing tick batch => exact h
    | retrying event => exact h
  | retried i outcome =>
    rw [Ingestion.step]
    cases hi : s.phase i with
    | retrying event =>
      dsimp only
      split
      · exact h.accept (h.event i event (.inl (by rw [hi]; rfl)))
      · exact h.setPhase (fun e he => by cases he) fun _ _ he => by cases he
    | idle => exact h
    | flushing tick batch => exact h
    | storing event => exact h

theorem ticks_publish (stamp : Stamp) (outcome : ProduceOutcome) :
    (publish p i tick stamp outcome s).ticks = s.ticks := by
  rw [publish]
  split
  · rfl
  · cases outcome <;> rfl

/-- The ticks are those that have arrived. -/
theorem ticks_step (a : Resume) : (s.step p a).ticks =
    match a with
    | .arrive tick _ _ => s.ticks ++ [tick]
    | _ => s.ticks := by
  cases a with
  | arrive tick stamp outcome =>
    rw [Ingestion.step, processTick]
    split
    · rfl
    · split
      · rfl
      · exact ticks_publish stamp outcome
  | flushed i uploaded stamp outcome =>
    rw [Ingestion.step]
    cases s.phase i with
    | flushing tick batch => exact ticks_publish stamp outcome
    | idle => rfl
    | storing event => rfl
    | retrying event => rfl
  | stored i written outcome =>
    rw [Ingestion.step]
    cases s.phase i with
    | storing event =>
      cases written with
      | false => rfl
      | true => cases outcome <;> rfl
    | idle => rfl
    | flushing tick batch => rfl
    | retrying event => rfl
  | retried i outcome =>
    rw [Ingestion.step]
    cases s.phase i with
    | retrying event => cases outcome <;> rfl
    | idle => rfl
    | flushing tick batch => rfl
    | storing event => rfl

end Ingestion

section Runs
variable {p : Pipeline} {w : Feed} {instrumentMap : List (String × ℤ)} {events : List FeedEvent}

theorem mem_map_market {m m' : Market} {symbol : String} {symbols : List String} :
    (m, symbol) ∈ symbols.map (m', ·) ↔ m = m' ∧ symbol ∈ symbols := by
  rw [List.mem_map]
  constructor
  · rintro ⟨s, hs, heq⟩
    cases heq
    exact ⟨rfl, hs⟩
  · rintro ⟨rfl, hs⟩
    exact ⟨symbol, hs, rfl⟩

/-- Arming the symbols of a market arms the counters of that market. -/
theorem run_arm (marks : List (Countdown.Event (Market × String))) (m m' : Market)
    (symbols : List String) (symbol : String) :
    Countdown.run reconnectGapTicks (marks ++ [.arm (symbols.map (m', ·))]) (m, symbol) =
      if m = m' then arm reconnectGapTicks symbols
        (fun symbol => Countdown.run reconnectGapTicks marks (m, symbol)) symbol
      else Countdown.run reconnectGapTicks marks (m, symbol) := by
  rw [Countdown.run_snoc, Countdown.step, arm, arm]
  by_cases hm : m = m'
  · simp only [mem_map_market, hm, true_and, if_true]
  · simp only [mem_map_market, hm, false_and, if_false]

theorem run_consume (marks : List (Countdown.Event (Market × String))) (m m' : Market)
    (counted symbol : String) :
    Countdown.run reconnectGapTicks (marks ++ [.consume (m', counted)]) (m, symbol) =
      if m = m' then consume counted
        (fun symbol => Countdown.run reconnectGapTicks marks (m, symbol)) symbol
      else Countdown.run reconnectGapTicks marks (m, symbol) := by
  rw [Countdown.run_snoc, Countdown.step, consume, consume, Function.update_apply,
    Function.update_apply]
  by_cases hm : m = m'
  · subst hm
    simp only [Prod.mk.injEq, true_and, if_true]
  · simp only [Prod.mk.injEq, hm, false_and, if_false]

/-- What a connector does with a tick counts the symbol in its market. -/
theorem run_counted (marks : List (Countdown.Event (Market × String))) (m m' : Market)
    (counted : Option String) (symbol : String) :
    Countdown.run reconnectGapTicks
        (marks ++ counted.toList.map fun symbol => .consume (m', symbol)) (m, symbol) =
      if m = m' then counted.elim (fun symbol => Countdown.run reconnectGapTicks marks (m, symbol))
        (consume · fun symbol => Countdown.run reconnectGapTicks marks (m, symbol)) symbol
      else Countdown.run reconnectGapTicks marks (m, symbol) := by
  cases counted with
  | none => simp
  | some counted => exact run_consume marks m m' counted symbol

theorem Feed.counts_start (instrumentMap : List (String × ℤ)) :
    Feed.Counts { zerodha := { instrumentMap } } :=
  ⟨fun _ => rfl, fun _ => rfl⟩

theorem Feed.Counts.arm_us (h : w.Counts) {symbols : List String} {alpaca : AlpacaConnector}
    (halpaca : alpaca.gapTicksRemaining =
      arm reconnectGapTicks symbols w.alpaca.gapTicksRemaining) :
    Counts { w with alpaca, marks := w.marks ++ [.arm (symbols.map (Market.us, ·))] } where
  nse symbol := by
    rw [run_arm, if_neg (by decide)]
    exact h.nse symbol
  us symbol := by
    rw [run_arm, if_pos rfl, halpaca, funext h.us]

/-- Every event keeps the counters of the connectors in step with what is counted. -/
theorem Feed.Counts.step (h : w.Counts) (e : FeedEvent) : (w.step p e).Counts := by
  have hnse : w.zerodha.gapTicksRemaining =
      fun symbol => Countdown.run reconnectGapTicks w.marks (.nse, symbol) := funext h.nse
  have hus : w.alpaca.gapTicksRemaining =
      fun symbol => Countdown.run reconnectGapTicks w.marks (.us, symbol) := funext h.us
  cases e with
  | reconnect =>
    refine ⟨fun symbol => ?_, fun symbol => ?_⟩
    · rw [Feed.step, run_arm, if_pos rfl, ← hnse]
      rfl
    · rw [Feed.step, run_arm, if_neg (by decide)]
      exact h.us symbol
  | subscribe symbols => exact h.arm_us rfl
  | unsubscribe symbols => exact ⟨h.nse, h.us⟩
  | streamFailed => exact h.arm_us rfl
  | kiteTick raw =>
    obtain ⟨counted, tick, heq, -⟩ := w.zerodha.normalizeTick_spec raw
    simp only [Feed.step, heq]
    refine ⟨fun symbol => ?_, fun symbol => ?_⟩
    · rw [deliver, run_counted, if_pos rfl, ← hnse]
    · rw [deliver, run_counted, if_neg (by decide)]
      exact h.us symbol
  | alpacaTick raw =>
    obtain ⟨counted, tick, heq, -⟩ := w.alpaca.normalizeTick_spec raw
    simp only [Feed.step, heq]
    refine ⟨fun symbol => ?_, fun symbol => ?_⟩
    · rw [deliver, run_counted, if_neg (by decide)]
      exact h.nse symbol
    · rw [deliver, run_counted, if_pos rfl, ← hus]
  | start k stamp outcome =>
    rw [Feed.step]
    split
    · exact ⟨h.nse, h.us⟩
    · exact h
  | resume a =>
    cases a with
    | arrive tick stamp outcome => exact h
    | flushed i uploaded stamp outcome => exact ⟨h.nse, h.us⟩
    | stored i written outcome => exact ⟨h.nse, h.us⟩
    | retried i outcome => exact ⟨h.nse, h.us⟩

theorem Feed.counts_run : (run p instrumentMap events).Counts := by
  induction events using List.reverseRecOn with
  | nil => exact counts_start instrumentMap
  | append_singleton events e ih =>
    rw [run_snoc]
    exact ih.step e

/-- A tick is marked exactly if its symbol is among its first ticks since a gap. -/
theorem Feed.Counts.delivered_gap {e : FeedEvent} {tick : NormalizedTick} (h : w.Counts)
    (htick : w.delivered e = some tick) :
    tick.gapDetected = true ↔ w.InGap tick.market tick.symbol := by
  rw [InGap, ← pos_run_iff]
  cases e with
  | kiteTick raw =>
    obtain ⟨counted, tick', heq, hspec⟩ := w.zerodha.normalizeTick_spec raw
    rw [delivered, heq] at htick
    obtain ⟨-, hmarket, hgap⟩ := hspec tick htick
    rw [hmarket, hgap, decide_eq_true_iff, h.nse]
  | alpacaTick raw =>
    obtain ⟨counted, tick', heq, hspec⟩ := w.alpaca.normalizeTick_spec raw
    rw [delivered, heq] at htick
    obtain ⟨-, hmarket, hgap⟩ := hspec tick htick
    rw [hmarket, hgap, decide_eq_true_iff, h.us]
  | reconnect => cases htick
  | subscribe symbols => cases htick
  | unsubscribe symbols => cases htick
  | streamFailed => cases htick
  | start k stamp outcome => cases htick
  | resume a => cases htick

/-- A tick that a task has or waits for is new, or was there before. -/
theorem Feed.mem_step {e : FeedEvent} {tick : NormalizedTick}
    (htick : tick ∈ (w.step p e).pending ∨ tick ∈ (w.step p e).ingestion.ticks) :
    w.delivered e = some tick ∨ tick ∈ w.pending ∨ tick ∈ w.ingestion.ticks := by
  have hdeliver (new : Option NormalizedTick) (h : tick ∈ w.pending ++ new.toList ∨
      tick ∈ w.ingestion.ticks) :
      new = some tick ∨ tick ∈ w.pending ∨ tick ∈ w.ingestion.ticks := by
    obtain h | h := h
    · obtain h | h := List.mem_append.mp h
      · exact .inr (.inl h)
      · exact .inl (Option.mem_toList.mp h)
    · exact .inr (.inr h)
  cases e with
  | kiteTick raw => exact hdeliver _ htick
  | alpacaTick raw => exact hdeliver _ htick
  | reconnect => exact .inr htick
  | subscribe symbols => exact .inr htick
  | unsubscribe symbols => exact .inr htick
  | streamFailed => exact .inr htick
  | start k stamp outcome =>
    rw [step] at htick
    split at htick
    · next t ht =>
      obtain h | h := htick
      · exact .inr (.inl (List.mem_of_mem_eraseIdx h))
      · rw [Ingestion.ticks_step] at h
        obtain h | h := List.mem_append.mp h
        · exact .inr (.inr h)
        · rw [List.mem_singleton.mp h]
          exact .inr (.inl (List.mem_of_getElem? ht))
    · exact .inr htick
  | resume a =>
    cases a with
    | arrive t stamp outcome => exact .inr htick
    | flushed i uploaded stamp outcome =>
      have h : (w.ingestion.step p (.flushed i uploaded stamp outcome)).ticks = w.ingestion.ticks :=
        Ingestion.ticks_step _
      exact .inr (htick.imp_right (h ▸ ·))
    | stored i written outcome =>
      have h : (w.ingestion.step p (.stored i written outcome)).ticks = w.ingestion.ticks :=
        Ingestion.ticks_step _
      exact .inr (htick.imp_right (h ▸ ·))
    | retried i outcome =>
      have h : (w.ingestion.step p (.retried i outcome)).ticks = w.ingestion.ticks :=
        Ingestion.ticks_step _
      exact .inr (htick.imp_right (h ▸ ·))

theorem Feed.own_step (h : w.ingestion.Own) (e : FeedEvent) : (w.step p e).ingestion.Own := by
  cases e with
  | kiteTick raw => exact h
  | alpacaTick raw => exact h
  | reconnect => exact h
  | subscribe symbols => exact h
  | unsubscribe symbols => exact h
  | streamFailed => exact h
  | start k stamp outcome =>
    rw [step]
    split
    · next tick ht => exact h.step (p := p) (.arrive tick stamp outcome)
    · exact h
  | resume a =>
    cases a with
    | arrive tick stamp outcome => exact h
    | flushed i uploaded stamp outcome => exact h.step (p := p) (.flushed i uploaded stamp outcome)
    | stored i written outcome => exact h.step (p := p) (.stored i written outcome)
    | retried i outcome => exact h.step (p := p) (.retried i outcome)

theorem Feed.own_run : (run p instrumentMap events).ingestion.Own := by
  induction events using List.reverseRecOn with
  | nil =>
    refine ⟨fun i e hn => ?_, fun i tick batch hi => by cases hi⟩
    obtain hi | hi := hn
    · cases hi
    · cases hi
  | append_singleton events e ih =>
    rw [run_snoc]
    exact own_step ih e

/-- Every tick of the publisher is what a connector made of an event of the run. -/
theorem Feed.tick_origin {tick : NormalizedTick}
    (htick : tick ∈ (run p instrumentMap events).pending ∨
      tick ∈ (run p instrumentMap events).ingestion.ticks) :
    ∃ pre e post, events = pre ++ e :: post ∧
      (run p instrumentMap pre).delivered e = some tick := by
  induction events using List.reverseRecOn with
  | nil =>
    obtain h | h := htick
    · cases h
    · cases h
  | append_singleton events e ih =>
    rw [run_snoc] at htick
    obtain hnew | hold := mem_step htick
    · exact ⟨events, e, [], rfl, hnew⟩
    · obtain ⟨pre, e', post, rfl, hdelivered⟩ := ih hold
      exact ⟨pre, e', post ++ [e], by simp, hdelivered⟩

/-- A tick that is marked is fed to the strategies, and no runner publishes anything of it. -/
theorem published_tick_marked {ι : Type*} {reg : ι → Strategies.Registered}
    {s : Strategies.Engine reg} {a : Strategies.Arrival ι} {i : ι} {symbol : String} {price : ℚ}
    (hevent : a.event = .tick symbol price true) : s.published a i = none := by
  rw [Strategies.Engine.published, Strategies.Runner.process, hevent]
  cases (reg i).interfaceType with
  | tick =>
    dsimp only [Strategies.Runner.processTick]
    split <;> rfl
  | candle => rfl

end Runs

/-- However the feeds reconnect and fail, and whatever the tasks of the publisher wait for, every
message in the topic is parsed to a tick that a connector made of one event, marked exactly if its
symbol was then among its first ticks since a gap of its market's feed; of such a tick nothing is
published, in whatever state the strategies are. -/
theorem gap_ticks_silent (p : Pipeline) (py : Python) (stripLower : Text → String)
    (utc : ℚ → DateTime) (instrumentMap : List (String × ℤ)) (events : List FeedEvent)
    (produce : Produce)
    (hproduce : produce ∈ (Feed.run p instrumentMap events).ingestion.produced) :
    ∃ pre e post tick stamp n, events = pre ++ e :: post ∧
      (Feed.run p instrumentMap pre).delivered e = some tick ∧
      parseMessage py stripLower (.dict (produce.event.body utc)) =
        .event (tick.message utc stamp n) ∧
      (tick.gapDetected = true ↔
        (Feed.run p instrumentMap pre).InGap tick.market tick.symbol) ∧
      ((Feed.run p instrumentMap pre).InGap tick.market tick.symbol →
        ∀ {ι : Type} {reg : ι → Strategies.Registered} (s : Strategies.Engine reg)
          (a : Strategies.Arrival ι) (i : ι) (price : ℚ),
          a.event = .tick tick.symbol price (tick.message utc stamp n).gapDetected →
          s.published a i = none) := by
  obtain ⟨tick, stamp, n, htick, hevent⟩ :=
    Feed.own_run.event produce.task produce.event (.inr hproduce)
  obtain ⟨pre, e, post, hsplit, hdelivered⟩ :=
    Feed.tick_origin (.inr (List.mem_of_getElem? htick))
  have hgap := Feed.counts_run.delivered_gap hdelivered
  refine ⟨pre, e, post, tick, stamp, n, hsplit, hdelivered, ?_, hgap,
    fun hin _ _ s a i price ha => ?_⟩
  · rw [hevent]
    exact parseMessage_buildEvent py stripLower utc tick stamp n
  · have hmarked : (tick.message utc stamp n).gapDetected = true := hgap.mpr hin
    rw [hmarked] at ha
    exact published_tick_marked ha

/-- The socket reconnects before the first tick of the share. -/
def reconnectedFeed : List FeedEvent :=
  [.reconnect, .kiteTick ⟨408065, some (100, 101), some 100, some 10, 0⟩,
    .start 0 (Ingestion.infyStamp "a" 0) .accepted]

def markedTick : NormalizedTick :=
  { Ingestion.infyTick 100 0 with bid := some 100, ask := some 101, gapDetected := true }

def directPipeline : Pipeline where
  batchSize := none
  outboxEnabled := false

def stripLower (t : Text) : String :=
  ((t.chars.map fun cs => String.ofList (PythonInt.strip cs)).getD "?").toLower

theorem gap_ticks_silent_reconnected :
    ∃ pre e post tick stamp n, reconnectedFeed = pre ++ e :: post ∧
      (Feed.run directPipeline [("INFY", 408065)] pre).delivered e = some tick ∧
      parseMessage python stripLower
        (.dict ((buildEvent markedTick (Ingestion.infyStamp "a" 0) 1).body fun _ => emitted)) =
        .event (tick.message (fun _ => emitted) stamp n) ∧
      (tick.gapDetected = true ↔ (Feed.run directPipeline [("INFY", 408065)] pre).InGap
        tick.market tick.symbol) := by
  obtain ⟨pre, e, post, tick, stamp, n, hsplit, hdelivered, hparse, hgap, -⟩ :=
    gap_ticks_silent directPipeline python stripLower (fun _ => emitted) [("INFY", 408065)]
      reconnectedFeed ⟨0, buildEvent markedTick (Ingestion.infyStamp "a" 0) 1⟩ (by decide +kernel)
  exact ⟨pre, e, post, tick, stamp, n, hsplit, hdelivered, hparse, hgap⟩

end QuantEmbrace.DataIngestion
