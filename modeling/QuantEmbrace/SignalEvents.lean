import QuantEmbrace.Lib.Double
import QuantEmbrace.Lib.PythonInt
import QuantEmbrace.Lib.PythonValue
import QuantEmbrace.SignalId

/-! The events that carry a signal: the fields they must have, what is read out of them, and the
`SIGNAL_PENDING` event with its parsers. -/
namespace QuantEmbrace.SignalFlow
open IsoFormat PythonValue Strategies

/-- What the services use of the language on values of any type, with what holds of it. -/
structure Python where
  str : Json → String
  str_string : ∀ s, str (.string s) = s
  str_truthy : ∀ value : Json, value.truthy = true → str value ≠ ""
  repr : Json → String
  upper : String → String
  upper_direction : ∀ d, upper (directionValue d) = directionValue d
  floatOfText : Text → Option JsonFloat
  fromisoformat : String → Option DateTime
  fromisoformat_isoformat : ∀ t : DateTime, fromisoformat (String.ofList t.isoformat) = some t

inductive EventError where
  | invalid (errors : List String)
  | keyError (name : String)
  | valueError
  | typeError
  | attributeError
  | overflowError
  deriving DecidableEq, Repr

abbrev Parsed : Type → Type := Except EventError

/-- An event as it is sent, and as `json.loads` returns it. -/
abbrev Body : Type := List (String × Json)

namespace Body

/-- `body[name]` -/
def index (body : Body) (name : String) : Parsed Json :=
  match body.lookup name with
  | some value => .ok value
  | none => .error (.keyError name)

/-- `body.get(name, default)` -/
def get (body : Body) (name : String) (default : Json) : Json := (body.lookup name).getD default

/-- `body[name] = value` -/
def set (name : String) (value : Json) : Body → Body
  | [] => [(name, value)]
  | (n, v) :: rest => if n = name then (n, value) :: rest else (n, v) :: set name value rest

def update (body : Body) (entries : Body) : Body :=
  entries.foldl (fun body entry => set entry.1 entry.2 body) body

end Body

/-- A field that is to be text; the services would take another value along. -/
def text (value : Json) : Parsed String :=
  match value.asString with
  | some s => .ok s
  | none => .error .typeError

/-- A field on which a method of `str` is called. -/
def methodText (value : Json) : Parsed String :=
  match value.asString with
  | some s => .ok s
  | none => .error .attributeError

/-- `int(value)` -/
def toInteger : Json → Parsed ℤ
  | .int n => .ok n
  | .bool b => .ok (if b then 1 else 0)
  | .float (.finite q) => .ok (Json.truncate q)
  | .float .nan => .error .valueError
  | .float (.infinity _) => .error .overflowError
  | .text t =>
    match t.chars.bind PythonInt.parse with
    | some n => .ok n
    | none => .error .valueError
  | _ => .error .typeError

/-- `float(value)` -/
def toFloat (py : Python) : Json → Parsed JsonFloat
  | .float x => .ok x
  | .int n =>
    match Double.ofInt n with
    | some m => .ok (.finite m)
    | none => .error .overflowError
  | .bool b => .ok (.finite (if b then 1 else 0))
  | .text t =>
    match py.floatOfText t with
    | some x => .ok x
    | none => .error .valueError
  | _ => .error .typeError

/-- `Direction(value)` -/
def toDirection (value : Json) : Parsed OrderSide :=
  if value.asString = some "BUY" then .ok .buy
  else if value.asString = some "SELL" then .ok .sell
  else .error .valueError

/-- `dict(value or {})` -/
def toDict (value : Json) : Parsed (List (Text × Json)) :=
  match value.orElse (.dict []) with
  | .dict entries => .ok entries
  | _ => .error .typeError

/-- `_parse_dt`: a time without a zone is in UTC, and what is no text is now. -/
def parseDt (py : Python) (now : DateTime) (value : Json) : Parsed DateTime :=
  match value with
  | .text t =>
    match (t.chars.map String.ofList).bind py.fromisoformat with
    | some time => .ok time.aware
    | none => .error .valueError
  | _ => .ok now

/-- `datetime.fromisoformat(value)`, and UTC where it names no zone. -/
def parseIso (py : Python) (value : Json) : Parsed DateTime :=
  match value with
  | .text t =>
    match (t.chars.map String.ofList).bind py.fromisoformat with
    | some time => .ok time.aware
    | none => .error .valueError
  | _ => .error .typeError

/-- `market, symbol = instrument_id.split(":", 1)` -/
def splitInstrument (instrument : String) : Parsed (String × String) :=
  match instrument.toList.dropWhile (· ≠ ':') with
  | [] => .error .valueError
  | _ :: symbol => .ok (String.ofList (instrument.toList.takeWhile (· ≠ ':')), String.ofList symbol)

def isoText (t : DateTime) : Json := .string (String.ofList t.isoformat)

section Schemas

inductive EventType where
  | signalPending | signalEnriched | signalApproved
  deriving DecidableEq, Repr

def EventType.value : EventType → String
  | .signalPending => "SIGNAL_PENDING"
  | .signalEnriched => "SIGNAL_ENRICHED"
  | .signalApproved => "SIGNAL_APPROVED"

def EventType.schemaVersion : EventType → String
  | .signalEnriched => "4.0"
  | .signalPending | .signalApproved => "3.0"

def baseRequiredFields : List String :=
  ["event_id", "trace_id", "event_type", "schema_version", "source", "published_time"]

def signalRequiredFields : List String :=
  baseRequiredFields ++ ["signal_id", "strategy_id", "strategy_name", "instrument_id", "market",
    "direction", "quantity", "price_at_signal", "confidence", "signal_time", "expires_at",
    "stop_loss", "take_profit", "product_type", "paper_trade", "metadata"]

def EventType.requiredFields : EventType → List String
  | .signalPending => signalRequiredFields
  | .signalEnriched => signalRequiredFields ++ ["regime", "regime_confidence", "quality_score",
      "filtered", "enriched_at", "enrichment_latency_ms", "model_versions"]
  | .signalApproved => signalRequiredFields ++ ["risk_decision_id", "approved_at"]

def mismatch (py : Python) (body : Body) (name expected : String) : List String :=
  let value := body.get name .null
  if value.asString = some expected then []
  else [name ++ " must be " ++ py.repr (.string expected) ++ ", got " ++ py.repr value]

/-- `validate_event` -/
def validateEvent (py : Python) (body : Body) (expected : EventType) : List String :=
  let missing := (expected.requiredFields.filter fun name => name ∉ body.map Prod.fst).mergeSort
  mismatch py body "schema_version" expected.schemaVersion ++
    mismatch py body "event_type" expected.value ++
    if missing = [] then [] else ["missing required fields: " ++ String.intercalate ", " missing]

/-- A builder raises what `validate_event` finds, and a consumer drops the message for it. -/
def checked (py : Python) (expected : EventType) (body : Body) : Parsed Body :=
  match validateEvent py body expected with
  | [] => .ok body
  | errors => .error (.invalid errors)

theorem checked_eq {py : Python} {expected : EventType} {body : Body}
    (hversion : (body.get "schema_version" .null).asString = some expected.schemaVersion)
    (htype : (body.get "event_type" .null).asString = some expected.value)
    (hfields : ∀ name ∈ expected.requiredFields, name ∈ body.map Prod.fst) :
    checked py expected body = .ok body := by
  have hmissing : expected.requiredFields.filter (fun name => name ∉ body.map Prod.fst) = [] := by
    rw [List.filter_eq_nil_iff]
    intro name hname
    simpa using hfields name hname
  have hvalid : validateEvent py body expected = [] := by
    simp only [validateEvent, hmissing, mismatch, hversion, htype]
    simp
  rw [checked, hvalid]

end Schemas

/-- A signal; its prices, stop and target are whatever JSON they are read from or sent as. -/
structure Signal where
  signalId : String
  strategyName : String
  symbol : String
  market : String
  direction : OrderSide
  quantity : ℤ
  confidence : JsonFloat
  priceAtSignal : JsonFloat
  generatedAt : DateTime
  stopLoss : Json := .null
  takeProfit : Json := .null
  paperTrade : Bool := false
  metadata : List (Text × Json) := []

/-- What an event takes from elsewhere: new uuids, and the clock. -/
structure Envelope where
  eventId : String
  freshTraceId : String
  now : DateTime
  deriving DecidableEq, Repr

/-- `f"{x:.4f}"` -/
def priceText : JsonFloat → List Char
  | .finite q => fixed4 q
  | .infinity false => ['i', 'n', 'f']
  | .infinity true => ['-', 'i', 'n', 'f']
  | .nan => ['n', 'a', 'n']

namespace Signal
variable (s : Signal)

def instrumentId : String := s.market ++ ":" ++ s.symbol

/-- `_make_deterministic_signal_id` -/
def deterministicId (sha256 : List Char → List Char) : String :=
  String.ofList ((sha256 (List.intercalate ['|'] [s.strategyName.toList, s.symbol.toList,
    (directionValue s.direction).toList, priceText s.priceAtSignal,
    s.generatedAt.aware.isoformat])).take 32)

/-- `str(metadata.get("strategy_id") or strategy_name)` -/
def strategyId (py : Python) : String :=
  py.str ((Json.field s.metadata "strategy_id").orElse (.string s.strategyName))

/-- `str(metadata.get("product_type") or ("MIS" if market.upper() == "NSE" else "DAY"))` -/
def productType (py : Python) : String :=
  py.str ((Json.field s.metadata "product_type").orElse
    (.string (if py.upper s.market = "NSE" then "MIS" else "DAY")))

end Signal

/-- `_SIGNAL_TTL_SECONDS` -/
def signalTtlSeconds : ℕ := 30

/-- The fields of a `SIGNAL_PENDING` event. -/
def pendingBody (py : Python) (sha256 : List Char → List Char) (env : Envelope) (s : Signal)
    (traceId : String) (expiresAt : DateTime) : Body := [
  ("event_id", .string env.eventId),
  ("trace_id", .string (if traceId ≠ "" then traceId else env.freshTraceId)),
  ("event_type", .string "SIGNAL_PENDING"),
  ("schema_version", .string "3.0"),
  ("source", .string "strategy_engine"),
  ("published_time", isoText env.now),
  ("signal_id", .string (s.deterministicId sha256)),
  ("strategy_id", .string (s.strategyId py)),
  ("strategy_name", .string s.strategyName),
  ("instrument_id", .string s.instrumentId),
  ("market", .string s.market),
  ("direction", .string (directionValue s.direction)),
  ("quantity", .int s.quantity),
  ("target_price", s.takeProfit),
  ("stop_loss", s.stopLoss),
  ("take_profit", s.takeProfit),
  ("product_type", .string (s.productType py)),
  ("confidence", .float s.confidence),
  ("price_at_signal", .float s.priceAtSignal),
  ("signal_time", isoText s.generatedAt.aware),
  ("expires_at", isoText expiresAt),
  ("paper_trade", .bool s.paperTrade),
  ("metadata", .dict s.metadata)]

/-- `_build_signal_event` of the strategy engine -/
def buildSignalEvent (py : Python) (sha256 : List Char → List Char) (env : Envelope) (s : Signal)
    (traceId : String) : Parsed Body :=
  match s.generatedAt.aware.addSeconds signalTtlSeconds with
  | none => .error .overflowError
  | some expiresAt => checked py .signalPending (pendingBody py sha256 env s traceId expiresAt)

/-- What the consumers of `signals.pending` make of a message. -/
structure SignalEvent where
  signal : Signal
  traceId : String
  strategyId : String
  productType : String
  expiresAt : DateTime

/-- What the three parsers of a `SIGNAL_PENDING` event have in common; they differ in how they read
a time and in what they make of a missing price. -/
def parsePending (py : Python) (time : Json → Parsed DateTime) (price : Body → Parsed Json)
    (received : Body) : Parsed SignalEvent := do
  let body ← checked py .signalPending received
  let (market, symbol) ← splitInstrument (← methodText (← body.index "instrument_id"))
  let signalTime ← time (← body.index "signal_time")
  let expiresAt ← time (← body.index "expires_at")
  let metadata ← toDict (body.get "metadata" .null)
  let strategyId ← body.index "strategy_id"
  let productType ← body.index "product_type"
  let metadata := Json.set "strategy_id" strategyId metadata
  let metadata := Json.set "product_type" productType metadata
  let metadata := Json.set "expires_at" (← body.index "expires_at") metadata
  let signal : Signal := {
    signalId := ← text (← body.index "signal_id")
    strategyName := ← text (← body.index "strategy_name")
    symbol := symbol
    market := market
    direction := ← toDirection (← body.index "direction")
    quantity := ← toInteger (← body.index "quantity")
    priceAtSignal := ← toFloat py (← price body)
    confidence := ← toFloat py (body.get "confidence" (.float (.finite 1)))
    generatedAt := signalTime
    stopLoss := body.get "stop_loss" .null
    takeProfit := body.get "take_profit" .null
    paperTrade := (body.get "paper_trade" (.bool false)).truthy
    metadata := metadata }
  return {
    signal := signal
    traceId := ← text (body.get "trace_id" (.string ""))
    strategyId := ← text strategyId
    productType := ← text productType
    expiresAt := expiresAt }

/-- A missing price is zero. -/
def priceOrZero (body : Body) : Parsed Json := .ok (body.get "price_at_signal" (.float (.finite 0)))

/-- `_parse_message` of the AI engine's `KafkaSignalConsumer` -/
def aiParseMessage (py : Python) (now : DateTime) : Body → Parsed SignalEvent :=
  parsePending py (parseDt py now) priceOrZero

/-- `_parse_message` of the risk engine's `KafkaSignalConsumer` -/
def riskParseMessage (py : Python) : Body → Parsed SignalEvent :=
  parsePending py (parseIso py) fun body => body.index "price_at_signal"

section Reading
variable {py : Python}

theorem ok_bind {α β : Type} (a : α) (f : α → Parsed β) : ((.ok a : Parsed α) >>= f) = f a := rfl

@[simp] theorem text_string (s : String) : text (.string s) = .ok s := by
  rw [text, Json.asString_string]

@[simp] theorem methodText_string (s : String) : methodText (.string s) = .ok s := by
  rw [methodText, Json.asString_string]

@[simp] theorem toDirection_value (d : OrderSide) :
    toDirection (.string (directionValue d)) = .ok d := by
  cases d <;> simp [toDirection, directionValue]

theorem toDict_dict (entries : List (Text × Json)) : toDict (.dict entries) = .ok entries := by
  cases entries <;> rfl

theorem chars_isoText (t : DateTime) :
    (Text.of (String.ofList t.isoformat)).chars.map String.ofList =
      some (String.ofList t.isoformat) := by
  simp [Text.of]

@[simp] theorem parseDt_isoText (now t : DateTime) : parseDt py now (isoText t) = .ok t.aware := by
  rw [isoText, Json.string, parseDt, chars_isoText, Option.bind_some, py.fromisoformat_isoformat]

@[simp] theorem parseIso_isoText (t : DateTime) : parseIso py (isoText t) = .ok t.aware := by
  rw [isoText, Json.string, parseIso, chars_isoText, Option.bind_some, py.fromisoformat_isoformat]

/-- A market without a colon comes back whole, and the symbol with it, colons or not. -/
theorem splitInstrument_eq {market symbol : String} (h : ':' ∉ market.toList) :
    splitInstrument (market ++ ":" ++ symbol) = .ok (market, symbol) := by
  have hchars : (market ++ ":" ++ symbol).toList = market.toList ++ ':' :: symbol.toList := by
    simp
  have hno : ∀ c ∈ market.toList, decide (c ≠ ':') = true := fun c hc => by
    simpa using ne_of_mem_of_not_mem hc h
  rw [splitInstrument, hchars, List.dropWhile_append_of_pos hno, List.takeWhile_append_of_pos hno]
  simp

end Reading

section Pending
variable {py : Python} {sha256 : List Char → List Char} {env : Envelope} {s : Signal}
  {traceId : String} {expiresAt : DateTime}

theorem checked_pendingBody :
    checked py .signalPending (pendingBody py sha256 env s traceId expiresAt) =
      .ok (pendingBody py sha256 env s traceId expiresAt) := by
  refine checked_eq ?_ ?_ ?_
  · exact Json.asString_string _
  · exact Json.asString_string _
  · change ∀ name ∈ EventType.signalPending.requiredFields, name ∈ ["event_id", "trace_id",
      "event_type", "schema_version", "source", "published_time", "signal_id", "strategy_id",
      "strategy_name", "instrument_id", "market", "direction", "quantity", "target_price",
      "stop_loss", "take_profit", "product_type", "confidence", "price_at_signal", "signal_time",
      "expires_at", "paper_trade", "metadata"]
    decide +kernel

theorem buildSignalEvent_eq (h : s.generatedAt.aware.addSeconds signalTtlSeconds = some expiresAt) :
    buildSignalEvent py sha256 env s traceId =
      .ok (pendingBody py sha256 env s traceId expiresAt) := by
  rw [buildSignalEvent, h]
  exact checked_pendingBody

/-- The signal behind the event, as each of the parsers rebuilds it. -/
def carried (py : Python) (sha256 : List Char → List Char) (s : Signal) (expiresAt : DateTime) :
    Signal :=
  { s with
    signalId := s.deterministicId sha256
    generatedAt := s.generatedAt.aware
    metadata := Json.set "expires_at" (isoText expiresAt)
      (Json.set "product_type" (.string (s.productType py))
        (Json.set "strategy_id" (.string (s.strategyId py)) s.metadata)) }

theorem parsePending_pendingBody {time : Json → Parsed DateTime} {price : Body → Parsed Json}
    (htime : ∀ t, time (isoText t) = .ok t.aware)
    (hprice : price (pendingBody py sha256 env s traceId expiresAt) = .ok (.float s.priceAtSignal))
    (hmarket : ':' ∉ s.market.toList) :
    parsePending py time price (pendingBody py sha256 env s traceId expiresAt) = .ok {
      signal := carried py sha256 s expiresAt
      traceId := if traceId ≠ "" then traceId else env.freshTraceId
      strategyId := s.strategyId py
      productType := s.productType py
      expiresAt := expiresAt.aware } := by
  rw [parsePending, checked_pendingBody]
  set body := pendingBody py sha256 env s traceId expiresAt with hbody
  have hinstrument : body.index "instrument_id" = .ok (.string s.instrumentId) := rfl
  have hsignalTime : body.index "signal_time" = .ok (isoText s.generatedAt.aware) := rfl
  have hexpiresAt : body.index "expires_at" = .ok (isoText expiresAt) := rfl
  have hmetadata : body.get "metadata" .null = .dict s.metadata := rfl
  have hstrategyId : body.index "strategy_id" = .ok (.string (s.strategyId py)) := rfl
  have hproductType : body.index "product_type" = .ok (.string (s.productType py)) := rfl
  have hsignalId : body.index "signal_id" = .ok (.string (s.deterministicId sha256)) := rfl
  have hname : body.index "strategy_name" = .ok (.string s.strategyName) := rfl
  have hdirection : body.index "direction" = .ok (.string (directionValue s.direction)) := rfl
  have hquantity : body.index "quantity" = .ok (.int s.quantity) := rfl
  have hconfidence : body.get "confidence" (.float (.finite 1)) = .float s.confidence := rfl
  have hstop : body.get "stop_loss" .null = s.stopLoss := rfl
  have htake : body.get "take_profit" .null = s.takeProfit := rfl
  have hpaper : body.get "paper_trade" (.bool false) = .bool s.paperTrade := rfl
  have htrace : body.get "trace_id" (.string "") =
    .string (if traceId ≠ "" then traceId else env.freshTraceId) := rfl
  simp only [ok_bind, hinstrument, hsignalTime, hexpiresAt, hmetadata, hstrategyId, hproductType,
    hsignalId, hname, hdirection, hquantity, hconfidence, hstop, htake, hpaper, htrace, hprice,
    htime, text_string, methodText_string, toDirection_value, toDict_dict, Signal.instrumentId,
    splitInstrument_eq hmarket, DateTime.aware_aware]
  rfl

end Pending

end QuantEmbrace.SignalFlow
