import QuantEmbrace.SignalRoutes

/-! The AI engine on the bytes of a message, whatever they are: what its consumer reads out of them,
which exceptions it lets through, and the event that its publisher encodes. -/
namespace QuantEmbrace.AiEngine
open IsoFormat LossyUtf8 PythonValue SignalFlow Strategies

/-- What the service uses of the standard library. `json` may raise anything; a text that
`fromisoformat`, `int` or `float` refuses is a `ValueError`. -/
structure Library where
  loads : Text → Py Json
  dumps : List (String × Json) → List (Json × Json) → Py Bytes
  fromisoformat : Text → Option DateTime
  intOfText : Text → Option ℤ
  floatOfText : Text → Option JsonFloat
  repr : Text → Text

/-- A signal as it is read: an identifier and a name may be any values. Of the metadata it has the
items that the `dict` is made from; a later one replaces an earlier one. -/
structure AiSignal where
  signalId : Json
  strategyName : Json
  symbol : Text
  market : Text
  direction : OrderSide
  quantity : ℤ
  priceAtSignal : JsonFloat
  confidence : JsonFloat
  generatedAt : DateTime
  stopLoss : Json
  takeProfit : Json
  paperTrade : Bool
  metadata : List (Json × Json)

structure AiSignalEvent where
  signal : AiSignal
  traceId : Json
  strategyId : Json
  productType : Json
  expiresAt : DateTime

abbrev Entries : Type := List (Text × Json)

def Present (entries : Entries) (name : String) : Prop := Text.of name ∈ entries.map Prod.fst

instance (entries : Entries) (name : String) : Decidable (Present entries name) :=
  inferInstanceAs (Decidable (_ ∈ _))

def HasText (entries : Entries) (name text : String) : Prop :=
  (Json.field entries name).asString = some text

/-- `validate_event` finds no error in the entries of a `dict`. -/
def Valid (entries : Entries) : Prop :=
  HasText entries "schema_version" EventType.signalPending.schemaVersion ∧
    HasText entries "event_type" EventType.signalPending.value ∧
    ∀ name ∈ EventType.signalPending.requiredFields, Present entries name

instance (entries : Entries) : Decidable (Valid entries) :=
  inferInstanceAs (Decidable (_ = _ ∧ _ = _ ∧ ∀ name ∈ _, Present entries name))

section Reading
variable (lib : Library)

/-- `market, symbol = instrument_id.split(":", 1)` -/
def splitInstrument : Json → Py (Text × Text)
  | .text t =>
    match t.dropWhile (· ≠ .scalar ':') with
    | [] => .error (.valueError (Text.of "not enough values to unpack (expected 2, got 1)"))
    | _ :: symbol => .ok (t.takeWhile (· ≠ .scalar ':'), symbol)
  | value => .error (.attributeError value.typeName "split")

/-- `_parse_dt` -/
def parseDt (now : DateTime) : Json → Py DateTime
  | .text t =>
    match lib.fromisoformat t with
    | some time => .ok time.aware
    | none => .error (.valueError (Text.of "Invalid isoformat string: " ++ lib.repr t))
  | _ => .ok now

/-- `hash(value)` -/
def hashable : Json → Py Json
  | .list items => .error (.typeError (Text.of ("unhashable type: '" ++
      (Json.list items).typeName ++ "'")))
  | .dict entries => .error (.typeError (Text.of ("unhashable type: '" ++
      (Json.dict entries).typeName ++ "'")))
  | value => .ok value

def wrongLength (i length : ℕ) : Exc :=
  .valueError (Text.of ("dictionary update sequence element #" ++ toString i ++ " has length " ++
    toString length ++ "; 2 is required"))

/-- The `i`-th element of the argument of `dict`, as an item -/
def itemOf (i : ℕ) : Json → Py (Json × Json)
  | .list [key, value] => return (← hashable key, value)
  | .list items => .error (wrongLength i items.length)
  | .text [key, value] => .ok (.text [key], .text [value])
  | .text t => .error (wrongLength i t.length)
  | .dict [(key, _), (value, _)] => .ok (.text key, .text value)
  | .dict entries => .error (wrongLength i entries.length)
  | _ => .error (.typeError (Text.of ("cannot convert dictionary update sequence element #" ++
      toString i ++ " to a sequence")))

def itemsFrom (i : ℕ) : List Json → Py (List (Json × Json))
  | [] => .ok []
  | element :: elements => do
    let item ← itemOf i element
    return item :: (← itemsFrom (i + 1) elements)

/-- `dict(value or {})` -/
def dictItems (value : Json) : Py (List (Json × Json)) :=
  match value.orElse (.dict []) with
  | .dict entries => .ok (entries.map fun e => (.text e.1, e.2))
  | .list elements => itemsFrom 0 elements
  | .text t => itemsFrom 0 (t.map fun c => .text [c])
  | value => .error (.typeError (Text.of ("'" ++ value.typeName ++ "' object is not iterable")))

/-- `Direction(value)` -/
def toDirection (value : Json) : Py OrderSide :=
  if value.asString = some "BUY" then .ok .buy
  else if value.asString = some "SELL" then .ok .sell
  else .error (.valueError (Text.of "not a valid Direction"))

/-- `float(value)` -/
def toFloat : Json → Py JsonFloat
  | .float x => .ok x
  | .bool b => .ok (.finite (if b then 1 else 0))
  | .int n =>
    match Double.ofInt n with
    | some m => .ok (.finite m)
    | none => .error (.overflowError "int too large to convert to float")
  | .text t =>
    match lib.floatOfText t with
    | some x => .ok x
    | none => .error (.valueError (Text.of "could not convert string to float: " ++ lib.repr t))
  | value => .error (.typeError (Text.of ("float() argument must be a string or a real number, " ++
      "not '" ++ value.typeName ++ "'")))

/-- The signal event in the entries of a valid body, where every required field is present -/
def readEvent (now : DateTime) (entries : Entries) : Py AiSignalEvent := do
  let (market, symbol) ← splitInstrument (Json.field entries "instrument_id")
  let signalTime ← parseDt lib now (Json.field entries "signal_time")
  let expiresAt ← parseDt lib now (Json.field entries "expires_at")
  let items ← dictItems (Json.field entries "metadata")
  let direction ← toDirection (Json.field entries "direction")
  let quantity ← (Json.field entries "quantity").toInt lib.intOfText lib.repr
  let priceAtSignal ← toFloat lib (Json.field entries "price_at_signal")
  let confidence ← toFloat lib (Json.field entries "confidence")
  return {
    signal := {
      signalId := Json.field entries "signal_id"
      strategyName := Json.field entries "strategy_name"
      symbol, market, direction, quantity, priceAtSignal, confidence
      generatedAt := signalTime
      stopLoss := Json.field entries "stop_loss"
      takeProfit := Json.field entries "take_profit"
      paperTrade := (Json.field entries "paper_trade").truthy
      metadata := items ++ [
        (.string "strategy_id", Json.field entries "strategy_id"),
        (.string "product_type", Json.field entries "product_type"),
        (.string "expires_at", Json.field entries "expires_at")] }
    traceId := Json.field entries "trace_id"
    strategyId := Json.field entries "strategy_id"
    productType := Json.field entries "product_type"
    expiresAt }

/-- The `try` block of `_parse_message`; `none` is a body that `validate_event` refuses. -/
def parseMessage (now : DateTime) (value : Bytes) : Py (Option AiSignalEvent) := do
  let text ← decodeStrict value
  let body ← lib.loads text
  let entries ← body.entries
  if Valid entries then return some (← readEvent lib now entries) else return none

end Reading

/-- `EnrichedSignal`: its signal, with what the engine adds -/
structure EnrichedSignal extends AiSignal, Enrichment where
  expiresAt : DateTime
  strategyId : Json
  productType : Json
  traceId : Json
  enrichedAt : DateTime

/-- `from_signal` -/
def EnrichedSignal.fromSignal (now : DateTime) (event : AiSignalEvent) (enrichment : Enrichment) :
    EnrichedSignal :=
  { event.signal, enrichment with
    expiresAt := event.expiresAt
    strategyId := event.strategyId.orElse event.signal.strategyName
    productType := event.productType
    traceId := event.traceId
    enrichedAt := now }

/-- `enrich`: whatever its pipeline raises, the signal goes on with degraded defaults. -/
def enrich (now : DateTime) (event : AiSignalEvent) : EnrichmentOutcome → EnrichedSignal
  | .computed enrichment => .fromSignal now event enrichment
  | .failed latencyMs => .fromSignal now event (degraded latencyMs)

/-- The service name and what an event takes from elsewhere -/
structure Envelope where
  source : String
  eventId : String
  now : DateTime

namespace EnrichedSignal
variable (e : EnrichedSignal)

def instrumentId : Text := e.market ++ .scalar ':' :: e.symbol

/-- `_build_event`, but for the metadata -/
def payload (env : Envelope) : List (String × Json) := [
  ("schema_version", .string EventType.signalEnriched.schemaVersion),
  ("signal_id", e.signalId),
  ("strategy_name", e.strategyName),
  ("strategy_id", e.strategyId),
  ("instrument_id", .text e.instrumentId),
  ("symbol", .text e.symbol),
  ("market", .text e.market),
  ("direction", .string (directionValue e.direction)),
  ("quantity", .int e.quantity),
  ("confidence", .float e.confidence),
  ("price_at_signal", .float e.priceAtSignal),
  ("generated_at", isoText e.generatedAt),
  ("signal_time", isoText e.generatedAt),
  ("expires_at", isoText e.expiresAt),
  ("stop_loss", e.stopLoss),
  ("take_profit", e.takeProfit),
  ("paper_trade", .bool e.paperTrade),
  ("product_type", e.productType),
  ("trace_id", e.traceId),
  ("regime", .string e.regime),
  ("regime_confidence", .float e.regimeConfidence),
  ("quality_score", .float e.qualityScore),
  ("filtered", .bool e.filtered),
  ("enriched_at", isoText e.enrichedAt),
  ("enrichment_latency_ms", .float e.latencyMs),
  ("model_versions", .dict e.modelVersions),
  ("event_id", .string env.eventId),
  ("event_type", .string EventType.signalEnriched.value),
  ("source", .string env.source),
  ("published_time", isoText env.now)]

end EnrichedSignal

/-- Key and value of an event of `signals.enriched` -/
structure Encoded where
  key : Bytes
  value : Bytes

/-- `publish`, before `produce`, which alone is in its `try` block -/
def encodeEnriched (lib : Library) (env : Envelope) (e : EnrichedSignal) : Py Encoded := do
  let key ← e.symbol.encodeStrict
  let value ← lib.dumps (e.payload env) e.metadata
  return ⟨key, value⟩

end QuantEmbrace.AiEngine
