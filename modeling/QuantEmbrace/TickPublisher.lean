import QuantEmbrace.Order
import Mathlib.Algebra.Order.Ring.Rat
import Mathlib.Data.Rat.Floor

/-! Ticks as the connectors hand them over, and the events that the publisher builds of them. -/
namespace QuantEmbrace

def Market.value : Market → String
  | .nse => "NSE"
  | .us => "US"

namespace DataIngestion

/-- Times are seconds since the epoch; `aware` says that the timestamp has a time zone. -/
structure NormalizedTick where
  symbol : String
  market : Market
  lastPrice : ℚ
  bid : Option ℚ
  ask : Option ℚ
  volume : ℤ
  timestamp : ℚ
  aware : Bool := true
  gapDetected : Bool := false
  deriving DecidableEq, Repr

def NormalizedTick.instrumentId (tick : NormalizedTick) : String :=
  tick.market.value ++ ":" ++ tick.symbol

/-- `_validate_tick` -/
def NormalizedTick.Valid (staleThreshold now : ℚ) (tick : NormalizedTick) : Prop :=
  0 < tick.lastPrice ∧ tick.aware = true ∧ now - tick.timestamp ≤ staleThreshold

instance (staleThreshold now : ℚ) (tick : NormalizedTick) :
    Decidable (tick.Valid staleThreshold now) :=
  instDecidableAnd

/-- A tick under the name of its broker, as the writers of prices and of the archive store it. -/
structure BrokerTick extends NormalizedTick where
  broker : String
  deriving DecidableEq, Repr

inductive TickType where
  | full | quote | ltp
  deriving DecidableEq, Repr

/-- A tick event of schema 3.0. -/
structure TickEvent where
  eventId : String
  traceId : String
  source : String
  publishedTime : ℚ
  instrumentId : String
  market : Market
  sessionId : String
  sequenceId : ℕ
  exchangeSequence : ℤ
  exchangeTime : ℚ
  ltp : ℚ
  volume : ℤ
  bid : Option ℚ
  ask : Option ℚ
  tickType : TickType
  gapDetected : Bool
  deriving DecidableEq, Repr

/-- What an event takes from elsewhere than its tick: two new uuids, the clock and its date. -/
structure Stamp where
  eventId : String
  traceId : String
  now : ℚ
  sessionDate : String
  deriving DecidableEq, Repr

def topicOf : Market → String
  | .nse => "ticks.nse"
  | .us => "ticks.us"

/-- The name of the market in lower case. -/
def sourceOf : Market → String
  | .nse => "data_ingestion_nse"
  | .us => "data_ingestion_us"

/-- `_build_event`, with the number that the counter gives. -/
def buildEvent (tick : NormalizedTick) (stamp : Stamp) (sequenceId : ℕ) : TickEvent where
  eventId := stamp.eventId
  traceId := stamp.traceId
  source := sourceOf tick.market
  publishedTime := stamp.now
  instrumentId := tick.instrumentId
  market := tick.market
  sessionId := tick.market.value ++ "-" ++ stamp.sessionDate
  sequenceId := sequenceId
  exchangeSequence := (tick.timestamp * 1000000).num.tdiv (tick.timestamp * 1000000).den
  exchangeTime := tick.timestamp
  ltp := tick.lastPrice
  volume := tick.volume
  bid := tick.bid
  ask := tick.ask
  tickType :=
    if tick.bid.isSome ∧ tick.ask.isSome then .full
    else if tick.bid.isSome ∨ tick.ask.isSome then .quote
    else .ltp
  gapDetected := tick.gapDetected

/-- What a call of `produce` does: the message is in the producer's queue, the queue is full, or
another error is raised. -/
inductive ProduceOutcome where
  | accepted | bufferFull | kafkaError
  deriving DecidableEq, Repr

end DataIngestion
end QuantEmbrace
