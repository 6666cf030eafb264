import QuantEmbrace.SignalEvents

/-! The routes of a signal from the strategy engine to the execution engine: through the AI engine,
past it with the consumer of enriched signals, and with the consumer of pending ones. -/
namespace QuantEmbrace.SignalFlow
open IsoFormat PythonValue Strategies

/-- What the AI engine adds to a signal. -/
structure Enrichment where
  regime : String
  regimeConfidence : JsonFloat
  qualityScore : JsonFloat
  filtered : Bool
  latencyMs : JsonFloat
  modelVersions : List (Text × Json)

def degraded (latencyMs : JsonFloat) : Enrichment where
  regime := "unknown"
  regimeConfidence := .finite 0
  qualityScore := .finite (1 / 2)
  filtered := false
  latencyMs := latencyMs
  modelVersions := []

structure EnrichedSignal extends Signal, Enrichment where
  expiresAt : DateTime
  strategyId : String
  productType : String
  traceId : String
  enrichedAt : DateTime
  schemaVersion : String

namespace EnrichedSignal

/-- `from_signal`, of what the consumer made of the message -/
def fromSignal (now : DateTime) (event : SignalEvent) (enrichment : Enrichment) : EnrichedSignal :=
  { event.signal, enrichment with
    expiresAt := event.expiresAt
    strategyId := if event.strategyId ≠ "" then event.strategyId else event.signal.strategyName
    productType := event.productType
    traceId := event.traceId
    enrichedAt := now
    schemaVersion := "4.0" }

/-- `to_dict` -/
def toDict (e : EnrichedSignal) : Body := [
  ("schema_version", .string e.schemaVersion),
  ("signal_id", .string e.signalId),
  ("strategy_name", .string e.strategyName),
  ("strategy_id", .string e.strategyId),
  ("instrument_id", .string e.instrumentId),
  ("symbol", .string e.symbol),
  ("market", .string e.market),
  ("direction", .string (directionValue e.direction)),
  ("quantity", .int e.quantity),
  ("confidence", .float e.confidence),
  ("price_at_signal", .float e.priceAtSignal),
  ("generated_at", isoText e.generatedAt),
  ("signal_time", isoText e.generatedAt),
  ("expires_at", isoText e.expiresAt),
  ("stop_loss", e.stopLoss),
  ("take_profit", e.takeProfit),
  ("paper_trade", .bool e.paperTrade),
  ("product_type", .string e.productType),
  ("trace_id", .string e.traceId),
  ("metadata", .dict e.metadata),
  ("regime", .string e.regime),
  ("regime_confidence", .float e.regimeConfidence),
  ("quality_score", .float e.qualityScore),
  ("filtered", .bool e.filtered),
  ("enriched_at", isoText e.enrichedAt),
  ("enrichment_latency_ms", .float e.latencyMs),
  ("model_versions", .dict e.modelVersions)]

/-- `from_dict` -/
def fromDict (py : Python) (now : DateTime) (data : Body) : Parsed EnrichedSignal := do
  let (market, symbol) ← splitInstrument (← methodText (← data.index "instrument_id"))
  let generatedAt ← parseDt py now
    ((data.get "generated_at" .null).orElse (data.get "signal_time" .null))
  let expiresAt ← parseDt py now (← data.index "expires_at")
  let enrichedAt ← parseDt py now (← data.index "enriched_at")
  return {
    signalId := ← text (← data.index "signal_id")
    strategyName := ← text (← data.index "strategy_name")
    strategyId := ← text (data.get "strategy_id" (← data.index "strategy_name"))
    symbol := symbol
    market := market
    direction := ← toDirection (← data.index "direction")
    quantity := ← toInteger (← data.index "quantity")
    confidence := ← toFloat py (data.get "confidence" (.float (.finite 1)))
    priceAtSignal := ← toFloat py (data.get "price_at_signal" (.float (.finite 0)))
    generatedAt := generatedAt
    expiresAt := expiresAt
    stopLoss := data.get "stop_loss" .null
    takeProfit := data.get "take_profit" .null
    paperTrade := (data.get "paper_trade" (.bool false)).truthy
    productType := ← text (data.get "product_type" (.string "MIS"))
    traceId := ← text (data.get "trace_id" (.string ""))
    metadata := ← SignalFlow.toDict (data.get "metadata" .null)
    regime := ← text (data.get "regime" (.string "unknown"))
    regimeConfidence := ← toFloat py (data.get "regime_confidence" (.float (.finite 0)))
    qualityScore := ← toFloat py (data.get "quality_score" (.float (.finite (1 / 2))))
    filtered := (data.get "filtered" (.bool false)).truthy
    enrichedAt := enrichedAt
    latencyMs := ← toFloat py (data.get "enrichment_latency_ms" (.float (.finite 0)))
    modelVersions := ← SignalFlow.toDict (data.get "model_versions" .null)
    schemaVersion := ← text (data.get "schema_version" (.string "4.0")) }

end EnrichedSignal

/-- How the pipeline of the enricher ends: with an enrichment, or with an exception. -/
inductive EnrichmentOutcome where
  | computed (enrichment : Enrichment)
  | failed (latencyMs : JsonFloat)

/-- `enrich`: a failed pipeline gives degraded defaults. -/
def enrich (now : DateTime) (event : SignalEvent) : EnrichmentOutcome → EnrichedSignal
  | .computed enrichment => .fromSignal now event enrichment
  | .failed latencyMs => .fromSignal now event (degraded latencyMs)

/-- `_build_event` of the publisher of enriched signals -/
def buildEnrichedEvent (env : Envelope) (source : String) (e : EnrichedSignal) : Body :=
  e.toDict.update [
    ("event_id", .string env.eventId),
    ("event_type", .string "SIGNAL_ENRICHED"),
    ("schema_version", .string "4.0"),
    ("source", .string source),
    ("published_time", isoText env.now),
    ("instrument_id", .string e.instrumentId),
    ("signal_time", isoText e.generatedAt)]

/-- What the consumer of enriched signals makes of a message. -/
structure EnrichedSignalEvent where
  enriched : EnrichedSignal
  traceId : String
  strategyId : String
  productType : String
  expiresAt : DateTime

/-- `_parse_v4` -/
def parseV4 (py : Python) (now : DateTime) (received : Body) : Parsed EnrichedSignalEvent := do
  let body ← checked py .signalEnriched received
  let enriched ← EnrichedSignal.fromDict py now body
  return {
    enriched := enriched
    traceId := ← text (body.get "trace_id" (.string ""))
    strategyId := ← text (body.get "strategy_id" (.string enriched.strategyName))
    productType := ← text (body.get "product_type" (.string "MIS"))
    expiresAt := ← parseDt py now (body.get "expires_at" .null) }

/-- `_parse_v3_fallback`: a pending signal with degraded defaults -/
def parseV3Fallback (py : Python) (now : DateTime) (received : Body) :
    Parsed EnrichedSignalEvent := do
  let event ← parsePending py (parseDt py now) priceOrZero received
  return {
    enriched := .fromSignal now event (degraded (.finite 0))
    traceId := event.traceId
    strategyId := event.strategyId
    productType := event.productType
    expiresAt := event.expiresAt }

/-- `_parse_message` of `KafkaEnrichedConsumer`, by the version of the schema -/
def parseEnrichedMessage (py : Python) (now : DateTime) (body : Body) :
    Parsed EnrichedSignalEvent :=
  let version := (body.get "schema_version" (.string "")).asString
  if version = some "4.0" then parseV4 py now body
  else if version = some "3.0" then parseV3Fallback py now body
  else .error (.invalid ["unknown_schema"])

/-- What the metadata of the signal is told of its enrichment. -/
def annotations (py : Python) (e : EnrichedSignal) : List (String × String) := [
  ("strategy_id", e.strategyId),
  ("product_type", e.productType),
  ("expires_at", String.ofList e.expiresAt.isoformat),
  ("regime", e.regime),
  ("regime_confidence", py.str (.float e.regimeConfidence)),
  ("quality_score", py.str (.float e.qualityScore)),
  ("filtered", py.str (.bool e.filtered)),
  ("schema_version", e.schemaVersion),
  ("enrichment_latency_ms", py.str (.float e.latencyMs))]

/-- `_signal_from_enriched` -/
def signalFromEnriched (py : Python) (event : EnrichedSignalEvent) : Signal :=
  { event.enriched.toSignal with
    metadata := (annotations py event.enriched).foldl (fun md a => Json.set a.1 (.string a.2) md)
      event.enriched.metadata }

/-- The fields of a `SIGNAL_APPROVED` event. -/
def approvedBody (py : Python) (env : Envelope) (s : Signal) (riskDecisionId traceId : String)
    (expiresAt : String) : Body := [
  ("event_id", .string env.eventId),
  ("trace_id", .string (if traceId ≠ "" then traceId else env.freshTraceId)),
  ("event_type", .string "SIGNAL_APPROVED"),
  ("schema_version", .string "3.0"),
  ("source", .string "risk_engine"),
  ("published_time", isoText env.now),
  ("signal_id", .string s.signalId),
  ("risk_decision_id", .string riskDecisionId),
  ("strategy_id", .string (s.strategyId py)),
  ("instrument_id", .string s.instrumentId),
  ("market", .string s.market),
  ("strategy_name", .string s.strategyName),
  ("direction", .string (directionValue s.direction)),
  ("quantity", .int s.quantity),
  ("price_at_signal", .float s.priceAtSignal),
  ("stop_loss", s.stopLoss),
  ("take_profit", s.takeProfit),
  ("product_type", .string (s.productType py)),
  ("confidence", .float s.confidence),
  ("signal_time", isoText s.generatedAt),
  ("expires_at", .string expiresAt),
  ("approved_at", isoText env.now),
  ("paper_trade", .bool s.paperTrade),
  ("metadata", .dict s.metadata)]

/-- `_build_event` of the publisher of approved signals -/
def buildApprovedEvent (py : Python) (env : Envelope) (s : Signal)
    (riskDecisionId traceId : String) : Parsed Body :=
  let stored := Json.field s.metadata "expires_at"
  if stored.truthy then
    checked py .signalApproved (approvedBody py env s riskDecisionId traceId (py.str stored))
  else
    match s.generatedAt.aware.addSeconds 30 with
    | none => .error .overflowError
    | some expiresAt => checked py .signalApproved
        (approvedBody py env s riskDecisionId traceId (String.ofList expiresAt.isoformat))

structure ApprovedSignalEvent where
  signalId : String
  riskDecisionId : String
  traceId : String
  strategyId : String
  symbol : String
  market : String
  strategyName : String
  direction : String
  quantity : JsonFloat
  priceAtSignal : JsonFloat
  stopLoss : Json
  takeProfit : Json
  productType : String
  expiresAt : DateTime
  confidence : JsonFloat
  signalTime : DateTime
  approvedAt : DateTime
  paperTrade : Bool

/-- `_parse_message` of `KafkaApprovedConsumer` -/
def parseApprovedMessage (py : Python) (received : Body) : Parsed ApprovedSignalEvent := do
  let body ← checked py .signalApproved received
  let (market, symbol) ← splitInstrument (← methodText (← body.index "instrument_id"))
  return {
    signalId := ← text (← body.index "signal_id")
    riskDecisionId := ← text (← body.index "risk_decision_id")
    traceId := ← text (body.get "trace_id" (.string ""))
    strategyId := ← text (← body.index "strategy_id")
    symbol := symbol
    market := market
    strategyName := ← text (← body.index "strategy_name")
    direction := py.upper (← methodText (← body.index "direction"))
    quantity := ← toFloat py (← body.index "quantity")
    priceAtSignal := ← toFloat py (← body.index "price_at_signal")
    stopLoss := body.get "stop_loss" .null
    takeProfit := body.get "take_profit" .null
    productType := ← text (← body.index "product_type")
    expiresAt := ← parseIso py (← body.index "expires_at")
    confidence := ← toFloat py (body.get "confidence" (.float (.finite 1)))
    signalTime := ← parseIso py (← body.index "signal_time")
    approvedAt := ← parseIso py (← body.index "approved_at")
    paperTrade := (body.get "paper_trade" (.bool false)).truthy }

/-- The ways of a signal to the risk engine. -/
inductive Route where
  | enriched (outcome : EnrichmentOutcome)
  | v3Fallback
  | pending

/-- What the services on the way have of their own: their clocks, uuids and names. -/
structure Journey where
  py : Python
  sha256 : List Char → List Char
  signalEnv : Envelope
  aiNow : DateTime
  enrichedNow : DateTime
  enrichedEnv : Envelope
  source : String
  riskNow : DateTime
  riskDecisionId : String
  approvedEnv : Envelope

namespace Journey
variable (j : Journey)

/-- The signal that the risk engine validates, and its trace. -/
def reachRisk (event : Body) : Route → Parsed (Signal × String)
  | .enriched outcome => do
    let received ← aiParseMessage j.py j.aiNow event
    let enriched := enrich j.enrichedNow received outcome
    let message ← parseEnrichedMessage j.py j.riskNow
      (buildEnrichedEvent j.enrichedEnv j.source enriched)
    return (signalFromEnriched j.py message, message.traceId)
  | .v3Fallback => do
    let message ← parseEnrichedMessage j.py j.riskNow event
    return (signalFromEnriched j.py message, message.traceId)
  | .pending => do
    let message ← riskParseMessage j.py event
    return (message.signal, message.traceId)

/-- From the strategy runner to the execution engine. -/
def deliver (s : Signal) (traceId : String) (route : Route) : Parsed ApprovedSignalEvent := do
  let event ← buildSignalEvent j.py j.sha256 j.signalEnv s traceId
  let (signal, trace) ← j.reachRisk event route
  let approved ← buildApprovedEvent j.py j.approvedEnv signal j.riskDecisionId trace
  parseApprovedMessage j.py approved

end Journey

section Enriched
variable {py : Python} {now : DateTime} {env : Envelope} {source : String} {e : EnrichedSignal}

/-- The event has the places of the signal's dictionary, and the envelope after them. -/
def enrichedBody (env : Envelope) (source : String) (e : EnrichedSignal) : Body := [
  ("schema_version", .string "4.0"),
  ("signal_id", .string e.signalId),
  ("strategy_name", .string e.strategyName),
  ("strategy_id", .string e.strategyId),
  ("instrument_id", .string e.instrumentId),
  ("symbol", .string e.symbol),
  ("market", .string e.market),
  ("direction", .string (directionValue e.direction)),
  ("quantity", .int e.quantity),
  ("confidence", .float e.confidence),
  ("price_at_signal", .float e.priceAtSignal),
  ("generated_at", isoText e.generatedAt),
  ("signal_time", isoText e.generatedAt),
  ("expires_at", isoText e.expiresAt),
  ("stop_loss", e.stopLoss),
  ("take_profit", e.takeProfit),
  ("paper_trade", .bool e.paperTrade),
  ("product_type", .string e.productType),
  ("trace_id", .string e.traceId),
  ("metadata", .dict e.metadata),
  ("regime", .string e.regime),
  ("regime_confidence", .float e.regimeConfidence),
  ("quality_score", .float e.qualityScore),
  ("filtered", .bool e.filtered),
  ("enriched_at", isoText e.enrichedAt),
  ("enrichment_latency_ms", .float e.latencyMs),
  ("model_versions", .dict e.modelVersions),
  ("event_id", .string env.eventId),
  ("event_type", .string "SIGNAL_ENRICHED"),
  ("source", .string source),
  ("published_time", isoText env.now)]

theorem buildEnrichedEvent_eq : buildEnrichedEvent env source e = enrichedBody env source e := rfl

theorem checked_enrichedBody : checked py .signalEnriched (enrichedBody env source e) =
    .ok (enrichedBody env source e) := by
  refine checked_eq ?_ ?_ ?_
  · exact Json.asString_string _
  · exact Json.asString_string _
  · change ∀ name ∈ EventType.signalEnriched.requiredFields, name ∈ ["schema_version", "signal_id",
      "strategy_name", "strategy_id", "instrument_id", "symbol", "market", "direction", "quantity",
      "confidence", "price_at_signal", "generated_at", "signal_time", "expires_at", "stop_loss",
      "take_profit", "paper_trade", "product_type", "trace_id", "metadata", "regime",
      "regime_confidence", "quality_score", "filtered", "enriched_at", "enrichment_latency_ms",
      "model_versions", "event_id", "event_type", "source", "published_time"]
    decide +kernel

/-- An enriched signal as it comes back from the topic. -/
def EnrichedSignal.received (e : EnrichedSignal) : EnrichedSignal :=
  { e with
    generatedAt := e.generatedAt.aware
    expiresAt := e.expiresAt.aware
    enrichedAt := e.enrichedAt.aware
    schemaVersion := "4.0" }

theorem truthy_isoText (t : DateTime) : (isoText t).truthy = true := by
  rw [isoText, Json.truthy_string]
  exact fun h => t.isoformat_ne_nil (by simpa using congrArg String.toList h)

theorem fromDict_enrichedBody (hmarket : ':' ∉ e.market.toList) :
    EnrichedSignal.fromDict py now (enrichedBody env source e) = .ok e.received := by
  rw [EnrichedSignal.fromDict]
  set data := enrichedBody env source e with hdata
  have hinstrument : data.index "instrument_id" = .ok (.string e.instrumentId) := rfl
  have hgenerated : (data.get "generated_at" .null).orElse (data.get "signal_time" .null) =
    isoText e.generatedAt := if_pos (truthy_isoText e.generatedAt)
  have hexpires : data.index "expires_at" = .ok (isoText e.expiresAt) := rfl
  have henriched : data.index "enriched_at" = .ok (isoText e.enrichedAt) := rfl
  have hsignalId : data.index "signal_id" = .ok (.string e.signalId) := rfl
  have hname : data.index "strategy_name" = .ok (.string e.strategyName) := rfl
  have hstrategyId (d : Json) : data.get "strategy_id" d = .string e.strategyId := rfl
  have hdirection : data.index "direction" = .ok (.string (directionValue e.direction)) := rfl
  have hquantity : data.index "quantity" = .ok (.int e.quantity) := rfl
  have hconfidence (d : Json) : data.get "confidence" d = .float e.confidence := rfl
  have hprice (d : Json) : data.get "price_at_signal" d = .float e.priceAtSignal := rfl
  have hstop (d : Json) : data.get "stop_loss" d = e.stopLoss := rfl
  have htake (d : Json) : data.get "take_profit" d = e.takeProfit := rfl
  have hpaper (d : Json) : data.get "paper_trade" d = .bool e.paperTrade := rfl
  have hproduct (d : Json) : data.get "product_type" d = .string e.productType := rfl
  have htrace (d : Json) : data.get "trace_id" d = .string e.traceId := rfl
  have hmetadata (d : Json) : data.get "metadata" d = .dict e.metadata := rfl
  have hregime (d : Json) : data.get "regime" d = .string e.regime := rfl
  have hregimeConfidence (d : Json) :
    data.get "regime_confidence" d = .float e.regimeConfidence := rfl
  have hquality (d : Json) : data.get "quality_score" d = .float e.qualityScore := rfl
  have hfiltered (d : Json) : data.get "filtered" d = .bool e.filtered := rfl
  have hlatency (d : Json) : data.get "enrichment_latency_ms" d = .float e.latencyMs := rfl
  have hversions (d : Json) : data.get "model_versions" d = .dict e.modelVersions := rfl
  have hschema (d : Json) : data.get "schema_version" d = .string "4.0" := rfl
  simp only [ok_bind, hinstrument, hgenerated, hexpires, henriched, hsignalId, hname, hstrategyId,
    hdirection, hquantity, hconfidence, hprice, hstop, htake, hpaper, hproduct, htrace, hmetadata,
    hregime, hregimeConfidence, hquality, hfiltered, hlatency, hversions, hschema, text_string,
    methodText_string, toDirection_value, toDict_dict, parseDt_isoText, Signal.instrumentId,
    splitInstrument_eq hmarket]
  rfl

theorem parseV4_enrichedBody (hmarket : ':' ∉ e.market.toList) :
    parseV4 py now (enrichedBody env source e) = .ok {
      enriched := e.received
      traceId := e.traceId
      strategyId := e.strategyId
      productType := e.productType
      expiresAt := e.expiresAt.aware } := by
  rw [parseV4, checked_enrichedBody]
  have hfrom : EnrichedSignal.fromDict py now (enrichedBody env source e) = .ok e.received :=
    fromDict_enrichedBody hmarket
  set data := enrichedBody env source e with hdata
  have hexpires : data.get "expires_at" .null = isoText e.expiresAt := rfl
  have htrace : data.get "trace_id" (.string "") = .string e.traceId := rfl
  have hstrategyId (d : Json) : data.get "strategy_id" d = .string e.strategyId := rfl
  have hproduct : data.get "product_type" (.string "MIS") = .string e.productType := rfl
  simp only [ok_bind, hfrom, hexpires, htrace, hstrategyId, hproduct, text_string, parseDt_isoText]
  rfl

end Enriched

/-- The strategy's id is empty only where its name is. -/
theorem strategyName_of_strategyId {py : Python} {s : Signal} (h : s.strategyId py = "") :
    s.strategyName = "" := by
  rw [Signal.strategyId, Json.orElse] at h
  split at h
  · next htruthy => exact absurd h (py.str_truthy _ htruthy)
  · rwa [py.str_string] at h

theorem productType_ne {py : Python} (s : Signal) : s.productType py ≠ "" := by
  rw [Signal.productType, Json.orElse]
  split
  · next htruthy => exact py.str_truthy _ htruthy
  · rw [py.str_string]
    split <;> decide

/-- A text that stands for itself, unless it is empty and so is its substitute. -/
theorem str_orElse_string {py : Python} {text other : String} (h : text = "" → other = "") :
    py.str ((Json.string text).orElse (.string other)) = text := by
  rw [Json.orElse]
  split
  · exact py.str_string text
  · next hfalsy =>
    have hempty : text = "" := by
      by_contra hne
      exact hfalsy ((Json.truthy_string text).mpr hne)
    rw [py.str_string, h hempty, hempty]

/-- A signal that has all that matters to an order from the one that was emitted. -/
structure Carries (py : Python) (sha256 : List Char → List Char) (s : Signal)
    (expiresAt : DateTime) (g : Signal) : Prop where
  signalId : g.signalId = s.deterministicId sha256
  strategyName : g.strategyName = s.strategyName
  symbol : g.symbol = s.symbol
  market : g.market = s.market
  direction : g.direction = s.direction
  quantity : g.quantity = s.quantity
  priceAtSignal : g.priceAtSignal = s.priceAtSignal
  generatedAt : g.generatedAt = s.generatedAt.aware
  stopLoss : g.stopLoss = s.stopLoss
  takeProfit : g.takeProfit = s.takeProfit
  paperTrade : g.paperTrade = s.paperTrade
  strategyId : Json.field g.metadata "strategy_id" = .string (s.strategyId py)
  productType : Json.field g.metadata "product_type" = .string (s.productType py)
  expiresAt : Json.field g.metadata "expires_at" = isoText expiresAt

section Routes
variable {py : Python} {sha256 : List Char → List Char} {s g : Signal} {expiresAt : DateTime}

theorem carried_carries : Carries py sha256 s expiresAt (carried py sha256 s expiresAt) where
  signalId := rfl
  strategyName := rfl
  symbol := rfl
  market := rfl
  direction := rfl
  quantity := rfl
  priceAtSignal := rfl
  generatedAt := rfl
  stopLoss := rfl
  takeProfit := rfl
  paperTrade := rfl
  strategyId := by
    rw [carried, Json.field_set_ne (by decide), Json.field_set_ne (by decide), Json.field_set_self]
  productType := by rw [carried, Json.field_set_ne (by decide), Json.field_set_self]
  expiresAt := Json.field_set_self _ _ _

theorem annotations_nodup (e : EnrichedSignal) : ((annotations py e).map Prod.fst).Nodup := by
  change ["strategy_id", "product_type", "expires_at", "regime", "regime_confidence",
    "quality_score", "filtered", "schema_version", "enrichment_latency_ms"].Nodup
  decide +kernel

/-- The annotations take the place of what the metadata had under their names. -/
theorem field_signalFromEnriched {event : EnrichedSignalEvent} {name value : String}
    (h : (name, value) ∈ annotations py event.enriched) :
    Json.field (signalFromEnriched py event).metadata name = .string value :=
  Json.field_foldl_set Json.string (annotations_nodup event.enriched) h _

theorem signalFromEnriched_carries {event : EnrichedSignalEvent}
    (hsignal : Carries py sha256 s expiresAt event.enriched.toSignal)
    (hstrategyId : event.enriched.strategyId = s.strategyId py)
    (hproductType : event.enriched.productType = s.productType py)
    (hexpiresAt : event.enriched.expiresAt = expiresAt) :
    Carries py sha256 s expiresAt (signalFromEnriched py event) where
  signalId := hsignal.signalId
  strategyName := hsignal.strategyName
  symbol := hsignal.symbol
  market := hsignal.market
  direction := hsignal.direction
  quantity := hsignal.quantity
  priceAtSignal := hsignal.priceAtSignal
  generatedAt := hsignal.generatedAt
  stopLoss := hsignal.stopLoss
  takeProfit := hsignal.takeProfit
  paperTrade := hsignal.paperTrade
  strategyId := by
    rw [← hstrategyId]
    exact field_signalFromEnriched (.head _)
  productType := by
    rw [← hproductType]
    exact field_signalFromEnriched (.tail _ (.head _))
  expiresAt := by
    rw [← hexpiresAt]
    exact field_signalFromEnriched (.tail _ (.tail _ (.head _)))

/-- What the consumers of pending signals make of the event. -/
def pendingEvent (py : Python) (sha256 : List Char → List Char) (s : Signal) (expiresAt : DateTime)
    (traceId : String) : SignalEvent where
  signal := carried py sha256 s expiresAt
  traceId := traceId
  strategyId := s.strategyId py
  productType := s.productType py
  expiresAt := expiresAt.aware

theorem fromSignal_strategyId (now : DateTime) (traceId : String) (enrichment : Enrichment) :
    (EnrichedSignal.fromSignal now (pendingEvent py sha256 s expiresAt traceId)
      enrichment).strategyId = s.strategyId py := by
  change (if s.strategyId py ≠ "" then s.strategyId py else s.strategyName) = s.strategyId py
  split
  · rfl
  · next hempty =>
    have hid : s.strategyId py = "" := not_not.mp hempty
    rw [strategyName_of_strategyId hid, hid]

/-- An enrichment of any kind leaves what matters to an order. -/
theorem fromSignal_carries {now : DateTime} {traceId : String} {enrichment : Enrichment}
    {e : EnrichedSignal} (haware : expiresAt.aware = expiresAt)
    (he : e = .fromSignal now (pendingEvent py sha256 s expiresAt traceId) enrichment ∨
      e = (EnrichedSignal.fromSignal now (pendingEvent py sha256 s expiresAt traceId)
        enrichment).received) (event : EnrichedSignalEvent) (hevent : event.enriched = e) :
    Carries py sha256 s expiresAt (signalFromEnriched py event) := by
  apply signalFromEnriched_carries
  · rw [hevent]
    obtain rfl | rfl := he
    · exact carried_carries
    · exact carried_carries
  · rw [hevent]
    obtain rfl | rfl := he
    · exact fromSignal_strategyId now traceId enrichment
    · exact fromSignal_strategyId now traceId enrichment
  · rw [hevent]
    obtain rfl | rfl := he
    · rfl
    · rfl
  · rw [hevent]
    obtain rfl | rfl := he
    · exact haware
    · exact haware

/-- The trace that an event has, fresh where its signal came without one. -/
def Envelope.trace (env : Envelope) (traceId : String) : String :=
  if traceId ≠ "" then traceId else env.freshTraceId

theorem riskParseMessage_eq (env : Envelope) (traceId : String)
    (hmarket : ':' ∉ s.market.toList) :
    riskParseMessage py (pendingBody py sha256 env s traceId expiresAt) =
      .ok (pendingEvent py sha256 s expiresAt (env.trace traceId)) :=
  parsePending_pendingBody parseIso_isoText rfl hmarket

theorem parsePending_eq (now : DateTime) (env : Envelope) (traceId : String)
    (hmarket : ':' ∉ s.market.toList) :
    parsePending py (parseDt py now) priceOrZero (pendingBody py sha256 env s traceId expiresAt) =
      .ok (pendingEvent py sha256 s expiresAt (env.trace traceId)) :=
  parsePending_pendingBody (parseDt_isoText now) rfl hmarket

theorem parseEnrichedMessage_v4 (now : DateTime) (env : Envelope) (source : String)
    (e : EnrichedSignal) : parseEnrichedMessage py now (buildEnrichedEvent env source e) =
      parseV4 py now (enrichedBody env source e) := by
  have hversion : (enrichedBody env source e).get "schema_version" (.string "") =
    .string "4.0" := rfl
  rw [buildEnrichedEvent_eq, parseEnrichedMessage, hversion, Json.asString_string]
  exact if_pos rfl

theorem parseEnrichedMessage_v3 (now : DateTime) (env : Envelope) (traceId : String) :
    parseEnrichedMessage py now (pendingBody py sha256 env s traceId expiresAt) =
      parseV3Fallback py now (pendingBody py sha256 env s traceId expiresAt) := by
  have hversion : (pendingBody py sha256 env s traceId expiresAt).get "schema_version"
    (.string "") = .string "3.0" := rfl
  rw [parseEnrichedMessage, hversion, Json.asString_string]
  simp

/-- Every route brings the risk engine a signal that has all that matters to an order. -/
theorem reachRisk_carries (j : Journey) (traceId : String) (route : Route)
    (haware : expiresAt.aware = expiresAt) (hmarket : ':' ∉ s.market.toList) :
    ∃ g trace, j.reachRisk (pendingBody j.py j.sha256 j.signalEnv s traceId expiresAt) route =
      .ok (g, trace) ∧ Carries j.py j.sha256 s expiresAt g := by
  cases route with
  | enriched outcome =>
    obtain ⟨enrichment, henrich⟩ : ∃ enrichment, enrich j.enrichedNow (pendingEvent j.py j.sha256 s
        expiresAt (j.signalEnv.trace traceId)) outcome = .fromSignal j.enrichedNow
          (pendingEvent j.py j.sha256 s expiresAt (j.signalEnv.trace traceId)) enrichment := by
      cases outcome with
      | computed enrichment => exact ⟨enrichment, rfl⟩
      | failed latencyMs => exact ⟨degraded latencyMs, rfl⟩
    set e := EnrichedSignal.fromSignal j.enrichedNow (pendingEvent j.py j.sha256 s expiresAt
      (j.signalEnv.trace traceId)) enrichment with he
    have hcolon : ':' ∉ e.market.toList := hmarket
    refine ⟨_, e.traceId, ?_, fromSignal_carries haware (.inr rfl) {
      enriched := e.received
      traceId := e.traceId
      strategyId := e.strategyId
      productType := e.productType
      expiresAt := e.expiresAt.aware } rfl⟩
    rw [Journey.reachRisk, aiParseMessage, parsePending_eq _ _ _ hmarket, ok_bind, henrich]
    simp only [parseEnrichedMessage_v4, parseV4_enrichedBody hcolon]
    rfl
  | v3Fallback =>
    refine ⟨_, j.signalEnv.trace traceId, ?_, fromSignal_carries haware (.inl rfl) {
      enriched := .fromSignal j.riskNow (pendingEvent j.py j.sha256 s expiresAt
        (j.signalEnv.trace traceId)) (degraded (.finite 0))
      traceId := j.signalEnv.trace traceId
      strategyId := s.strategyId j.py
      productType := s.productType j.py
      expiresAt := expiresAt.aware } rfl⟩
    rw [Journey.reachRisk, parseEnrichedMessage_v3, parseV3Fallback, parsePending_eq _ _ _ hmarket]
    rfl
  | pending =>
    refine ⟨carried j.py j.sha256 s expiresAt, j.signalEnv.trace traceId, ?_, carried_carries⟩
    rw [Journey.reachRisk, riskParseMessage_eq _ _ hmarket]
    rfl

theorem checked_approvedBody (env : Envelope) (riskDecisionId traceId expiry : String) :
    checked py .signalApproved (approvedBody py env g riskDecisionId traceId expiry) =
      .ok (approvedBody py env g riskDecisionId traceId expiry) := by
  refine checked_eq ?_ ?_ ?_
  · exact Json.asString_string _
  · exact Json.asString_string _
  · change ∀ name ∈ EventType.signalApproved.requiredFields, name ∈ ["event_id", "trace_id",
      "event_type", "schema_version", "source", "published_time", "signal_id", "risk_decision_id",
      "strategy_id", "instrument_id", "market", "strategy_name", "direction", "quantity",
      "price_at_signal", "stop_loss", "take_profit", "product_type", "confidence", "signal_time",
      "expires_at", "approved_at", "paper_trade", "metadata"]
    decide +kernel

/-- The expiry of the approved event is the one that the metadata brings along. -/
theorem buildApprovedEvent_eq (h : Carries py sha256 s expiresAt g) (env : Envelope)
    (riskDecisionId traceId : String) :
    buildApprovedEvent py env g riskDecisionId traceId = .ok (approvedBody py env g riskDecisionId
      traceId (String.ofList expiresAt.isoformat)) := by
  have hstored : py.str (isoText expiresAt) = String.ofList expiresAt.isoformat := py.str_string _
  rw [buildApprovedEvent, h.expiresAt, if_pos (truthy_isoText expiresAt), hstored]
  exact checked_approvedBody env riskDecisionId traceId _

theorem Carries.strategyId_eq (h : Carries py sha256 s expiresAt g) :
    g.strategyId py = s.strategyId py := by
  rw [Signal.strategyId, h.strategyId, h.strategyName]
  exact str_orElse_string strategyName_of_strategyId

theorem Carries.productType_eq (h : Carries py sha256 s expiresAt g) :
    g.productType py = s.productType py := by
  rw [Signal.productType, h.productType]
  exact str_orElse_string fun hempty => absurd hempty (productType_ne s)

/-- What the execution engine makes of an approved event. -/
def approvedEvent (py : Python) (env : Envelope) (g : Signal) (riskDecisionId traceId : String)
    (expiresAt : DateTime) (quantity : JsonFloat) : ApprovedSignalEvent where
  signalId := g.signalId
  riskDecisionId := riskDecisionId
  traceId := env.trace traceId
  strategyId := g.strategyId py
  symbol := g.symbol
  market := g.market
  strategyName := g.strategyName
  direction := directionValue g.direction
  quantity := quantity
  priceAtSignal := g.priceAtSignal
  stopLoss := g.stopLoss
  takeProfit := g.takeProfit
  productType := g.productType py
  expiresAt := expiresAt.aware
  confidence := g.confidence
  signalTime := g.generatedAt.aware
  approvedAt := env.now.aware
  paperTrade := g.paperTrade

theorem parseApprovedMessage_eq (env : Envelope) (riskDecisionId traceId : String)
    (hmarket : ':' ∉ g.market.toList) :
    parseApprovedMessage py (approvedBody py env g riskDecisionId traceId
      (String.ofList expiresAt.isoformat)) =
        (toFloat py (.int g.quantity)).map
          (approvedEvent py env g riskDecisionId traceId expiresAt) := by
  rw [parseApprovedMessage, checked_approvedBody]
  set body := approvedBody py env g riskDecisionId traceId (String.ofList expiresAt.isoformat)
    with hbody
  have hinstrument : body.index "instrument_id" = .ok (.string g.instrumentId) := rfl
  have hsignalId : body.index "signal_id" = .ok (.string g.signalId) := rfl
  have hdecision : body.index "risk_decision_id" = .ok (.string riskDecisionId) := rfl
  have htrace : body.get "trace_id" (.string "") = .string (env.trace traceId) := rfl
  have hstrategyId : body.index "strategy_id" = .ok (.string (g.strategyId py)) := rfl
  have hname : body.index "strategy_name" = .ok (.string g.strategyName) := rfl
  have hdirection : body.index "direction" = .ok (.string (directionValue g.direction)) := rfl
  have hquantity : body.index "quantity" = .ok (.int g.quantity) := rfl
  have hprice : body.index "price_at_signal" = .ok (.float g.priceAtSignal) := rfl
  have hstop : body.get "stop_loss" .null = g.stopLoss := rfl
  have htake : body.get "take_profit" .null = g.takeProfit := rfl
  have hproductType : body.index "product_type" = .ok (.string (g.productType py)) := rfl
  have hexpiresAt : body.index "expires_at" = .ok (isoText expiresAt) := rfl
  have hconfidence : body.get "confidence" (.float (.finite 1)) = .float g.confidence := rfl
  have hsignalTime : body.index "signal_time" = .ok (isoText g.generatedAt) := rfl
  have happrovedAt : body.index "approved_at" = .ok (isoText env.now) := rfl
  have hpaper : body.get "paper_trade" (.bool false) = .bool g.paperTrade := rfl
  simp only [ok_bind, hinstrument, hsignalId, hdecision, htrace, hstrategyId, hname, hdirection,
    hquantity, hprice, hstop, htake, hproductType, hexpiresAt, hconfidence, hsignalTime,
    happrovedAt, hpaper, text_string, methodText_string, py.upper_direction, parseIso_isoText,
    Signal.instrumentId, splitInstrument_eq hmarket]
  cases toFloat py (.int g.quantity) with
  | error e => rfl
  | ok quantity => rfl

/-- An approved event that orders what the signal asked for. -/
structure Orders (py : Python) (sha256 : List Char → List Char) (s : Signal) (expiresAt : DateTime)
    (a : ApprovedSignalEvent) : Prop where
  signalId : a.signalId = s.deterministicId sha256
  strategyId : a.strategyId = s.strategyId py
  symbol : a.symbol = s.symbol
  market : a.market = s.market
  direction : a.direction = directionValue s.direction
  priceAtSignal : a.priceAtSignal = s.priceAtSignal
  stopLoss : a.stopLoss = s.stopLoss
  takeProfit : a.takeProfit = s.takeProfit
  productType : a.productType = s.productType py
  paperTrade : a.paperTrade = s.paperTrade
  signalTime : a.signalTime = s.generatedAt.aware
  expiresAt : a.expiresAt = expiresAt

theorem Carries.orders (h : Carries py sha256 s expiresAt g) (haware : expiresAt.aware = expiresAt)
    (env : Envelope) (riskDecisionId traceId : String) (quantity : JsonFloat) : Orders py sha256 s
      expiresAt (approvedEvent py env g riskDecisionId traceId expiresAt quantity) where
  signalId := h.signalId
  strategyId := h.strategyId_eq
  symbol := h.symbol
  market := h.market
  direction := congrArg directionValue h.direction
  priceAtSignal := h.priceAtSignal
  stopLoss := h.stopLoss
  takeProfit := h.takeProfit
  productType := h.productType_eq
  paperTrade := h.paperTrade
  signalTime := by
    rw [approvedEvent, h.generatedAt]
    exact DateTime.aware_aware _
  expiresAt := haware

/-- What the execution engine gets on each of the routes, up to the conversion of the quantity. -/
theorem deliver_eq (j : Journey) (traceId : String) (route : Route)
    (hmarket : ':' ∉ s.market.toList)
    (hexpiry : s.generatedAt.aware.addSeconds signalTtlSeconds = some expiresAt) :
    ∃ event : JsonFloat → ApprovedSignalEvent,
      j.deliver s traceId route = (toFloat j.py (.int s.quantity)).map event ∧
        ∀ quantity, Orders j.py j.sha256 s expiresAt (event quantity) ∧
          (event quantity).quantity = quantity := by
  have haware : expiresAt.aware = expiresAt := by
    apply DateTime.aware_of_offset
    rw [DateTime.offset_addSeconds _ hexpiry]
    exact Option.some_ne_none _
  obtain ⟨g, trace, hreach, hg⟩ := reachRisk_carries j traceId route haware hmarket
  have hcolon : ':' ∉ g.market.toList := hg.market ▸ hmarket
  refine ⟨approvedEvent j.py j.approvedEnv g j.riskDecisionId trace expiresAt, ?_,
    fun quantity => ⟨hg.orders haware _ _ _ quantity, rfl⟩⟩
  rw [Journey.deliver, buildSignalEvent_eq hexpiry, ok_bind, hreach]
  change (do
    let approved ← buildApprovedEvent j.py j.approvedEnv g j.riskDecisionId trace
    parseApprovedMessage j.py approved) = _
  rw [buildApprovedEvent_eq hg, ok_bind, parseApprovedMessage_eq _ _ _ hcolon, hg.quantity]

/-- Whichever way a signal goes, the same order comes out, with the quantity as a double. -/
theorem same_on_every_route (j : Journey) (traceId : String) (route : Route)
    (hmarket : ':' ∉ s.market.toList)
    (hexpiry : s.generatedAt.aware.addSeconds signalTtlSeconds = some expiresAt) :
    (∀ x, Double.ofInt s.quantity = some x → ∃ a, j.deliver s traceId route = .ok a ∧
      Orders j.py j.sha256 s expiresAt a ∧ a.quantity = .finite x) ∧
    (s.quantity.natAbs ≤ 2 ^ 53 → Double.ofInt s.quantity = some s.quantity) ∧
    (Double.ofInt s.quantity = none → j.deliver s traceId route = .error .overflowError) := by
  obtain ⟨event, hdeliver, hevent⟩ := deliver_eq j traceId route hmarket hexpiry
  refine ⟨fun x hx => ?_, Double.ofInt_of_le, fun hx => ?_⟩
  · refine ⟨event (.finite x), ?_, hevent _⟩
    rw [hdeliver, toFloat, hx]
    rfl
  · rw [hdeliver, toFloat, hx]
    rfl

end Routes

section Instances
open scoped Classical in
/-- The inverse of `isoformat`. -/
noncomputable def ofIsoformat (text : String) : Option DateTime :=
  if h : ∃ t : DateTime, String.ofList t.isoformat = text then some h.choose else none

theorem ofIsoformat_isoformat (t : DateTime) :
    ofIsoformat (String.ofList t.isoformat) = some t := by
  have h : ∃ u : DateTime, String.ofList u.isoformat = String.ofList t.isoformat := ⟨t, rfl⟩
  rw [ofIsoformat, dif_pos h]
  congr 1
  exact DateTime.isoformat_injective (by simpa using congrArg String.toList h.choose_spec)

/-- `str` of the values that a degraded signal is annotated with -/
def strOf : Json → String
  | .text t => (t.chars.map String.ofList).getD "?"
  | .bool true => "True"
  | .bool false => "False"
  | .float (.finite q) => if q = 0 then "0.0" else if q = 1 / 2 then "0.5" else "?"
  | _ => "?"

theorem strOf_text {t : Text} (h : t ≠ []) : strOf (.text t) ≠ "" := by
  cases t with
  | nil => exact absurd rfl h
  | cons p t =>
    cases p with
    | surrogate n => simp [strOf, Text.chars]
    | scalar c => cases hchars : Text.chars t <;> simp [strOf, Text.chars, hchars]

noncomputable def python : Python where
  str := strOf
  str_string s := by
    simp [strOf, Json.string, Text.of]
  str_truthy value htruthy := by
    cases value with
    | text t => exact strOf_text (by simpa [Json.truthy] using htruthy)
    | bool b => cases b <;> simp [strOf]
    | float x =>
      cases x with
      | finite q =>
        rw [strOf]
        split_ifs <;> decide
      | _ => simp [strOf]
    | _ => simp [strOf]
  repr := strOf
  upper := String.toUpper
  upper_direction d := by
    cases d <;> decide +kernel
  floatOfText _ := none
  fromisoformat := ofIsoformat
  fromisoformat_isoformat := ofIsoformat_isoformat

def emitted : DateTime := infyTick.timestamp

/-- A sale without a stop that is to be on paper only. -/
def sellInfy (quantity : ℤ) : Signal where
  signalId := "u-1"
  strategyName := "momentum"
  symbol := "INFY"
  market := "NSE"
  direction := .sell
  quantity := quantity
  confidence := .finite (3 / 4)
  priceAtSignal := .finite 1500
  generatedAt := emitted
  takeProfit := .float (.finite 1450)
  paperTrade := true

noncomputable def journey : Journey where
  py := python
  sha256 := id
  signalEnv := ⟨"e-1", "t-1", emitted⟩
  aiNow := emitted
  enrichedNow := emitted
  enrichedEnv := ⟨"e-2", "t-2", emitted⟩
  source := "ai_engine"
  riskNow := emitted
  riskDecisionId := "r-1"
  approvedEnv := ⟨"e-3", "t-3", emitted⟩

theorem expiry_emitted : emitted.aware.addSeconds signalTtlSeconds =
    some { emitted with second := 30 } := by
  decide

theorem same_on_every_route_sellInfy : ∃ a,
    journey.deliver (sellInfy 25) "t-0" (.enriched (.failed (.finite 0))) = .ok a ∧
      Orders python id (sellInfy 25) { emitted with second := 30 } a ∧
      a.quantity = .finite (25 : ℤ) :=
  (same_on_every_route journey "t-0" (.enriched (.failed (.finite 0))) (s := sellInfy 25)
    (by decide +kernel) expiry_emitted).1 25 (Double.ofInt_of_le (by decide))

/-- The first odd number that is no double. -/
theorem quantity_rounded : ¬ ∀ (j : Journey) (s : Signal) (traceId : String) (route : Route)
    (expiresAt : DateTime), ':' ∉ s.market.toList → 0 < s.quantity →
    s.generatedAt.aware.addSeconds signalTtlSeconds = some expiresAt →
    ∃ a, j.deliver s traceId route = .ok a ∧ Orders j.py j.sha256 s expiresAt a ∧
      a.quantity = .finite s.quantity := by
  intro h
  have hround : Double.ofInt (sellInfy 9007199254740993).quantity = some 9007199254740992 := by
    decide +kernel
  have hmarket : ':' ∉ (sellInfy 9007199254740993).market.toList := by
    decide +kernel
  obtain ⟨a, ha, -, hquantity⟩ := h journey (sellInfy 9007199254740993) "t-0" .pending _ hmarket
    (by decide) expiry_emitted
  obtain ⟨event, hdeliver, hevent⟩ := deliver_eq journey "t-0" .pending hmarket expiry_emitted
  rw [hdeliver, toFloat, hround] at ha
  cases ha
  rw [(hevent _).2, JsonFloat.finite.injEq] at hquantity
  exact absurd hquantity (by decide +kernel)

end Instances

end QuantEmbrace.SignalFlow
