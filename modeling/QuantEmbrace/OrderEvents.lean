import QuantEmbrace.FillAccounting
import QuantEmbrace.SignalRoutes

/-! The order events on `orders.events`: what the execution engine publishes of a fill or of a
rejection, what the risk engine's consumer makes of a message, and what it hands to the loss
ledger. -/
namespace QuantEmbrace.SignalFlow
open IsoFormat PythonValue Strategies

section Schemas

def orderRequiredFields : List String :=
  baseRequiredFields ++ ["order_id", "signal_id", "risk_decision_id", "strategy_id",
    "instrument_id", "market", "direction", "quantity_ordered", "quantity_filled",
    "avg_fill_price", "broker_order_id", "fill_time", "reject_reason", "product_type",
    "expires_at", "stop_loss", "take_profit"]

def killSwitchRequiredFields : List String := baseRequiredFields ++ ["reason", "activated_by"]

def orderEventTypes : List String :=
  ["ORDER_SUBMITTED", "ORDER_PLACED", "ORDER_PARTIAL", "ORDER_FILLED", "ORDER_REJECTED",
    "ORDER_CANCELLED"]

def killSwitchEventTypes : List String := ["KILL_SWITCH_ACTIVE", "KILL_SWITCH_CLEARED"]

/-- `EVENT_REQUIRED_FIELDS.get(expected)` -/
def eventRequiredFields (expected : String) : Option (List String) :=
  if expected = "SIGNAL_PENDING" then some EventType.signalPending.requiredFields
  else if expected = "SIGNAL_ENRICHED" then some EventType.signalEnriched.requiredFields
  else if expected = "SIGNAL_APPROVED" then some EventType.signalApproved.requiredFields
  else if expected ∈ orderEventTypes then some orderRequiredFields
  else if expected ∈ killSwitchEventTypes then some killSwitchRequiredFields
  else none

/-- `validate_event`, with the name of any event type. -/
def validateNamed (py : Python) (body : Body) (expected : String) : List String :=
  let version := if expected = "SIGNAL_ENRICHED" then "4.0" else "3.0"
  mismatch py body "schema_version" version ++ mismatch py body "event_type" expected ++
    match eventRequiredFields expected with
    | none => ["unknown expected event type " ++ py.repr (.string expected)]
    | some required =>
      let missing := (required.filter fun name => name ∉ body.map Prod.fst).mergeSort
      if missing = [] then [] else ["missing required fields: " ++ String.intercalate ", " missing]

theorem validateNamed_value (py : Python) (body : Body) (expected : EventType) :
    validateNamed py body expected.value = validateEvent py body expected := by
  cases expected <;> rfl

/-- A body of a known type with all its fields passes. -/
theorem validateNamed_eq_nil {py : Python} {body : Body} {expected : String}
    {required : List String} (hrequired : eventRequiredFields expected = some required)
    (hplain : expected ≠ "SIGNAL_ENRICHED")
    (hversion : (body.get "schema_version" .null).asString = some "3.0")
    (htype : (body.get "event_type" .null).asString = some expected)
    (hfields : ∀ name ∈ required, name ∈ body.map Prod.fst) :
    validateNamed py body expected = [] := by
  have hmissing : required.filter (fun name => name ∉ body.map Prod.fst) = [] := by
    rw [List.filter_eq_nil_iff]
    intro name hname
    simpa using hfields name hname
  simp only [validateNamed, if_neg hplain, mismatch, hversion, htype, hrequired, hmissing]
  simp

theorem validateNamed_unknown {py : Python} {body : Body} {expected : String}
    (hunknown : eventRequiredFields expected = none) : validateNamed py body expected ≠ [] := by
  simp [validateNamed, hunknown]

theorem validateNamed_missing {py : Python} {body : Body} {expected : String}
    {required : List String} {name : String}
    (hrequired : eventRequiredFields expected = some required) (hname : name ∈ required)
    (hmissing : name ∉ body.map Prod.fst) : validateNamed py body expected ≠ [] := by
  have hfilter : (required.filter fun name => name ∉ body.map Prod.fst).mergeSort ≠ [] := by
    refine List.ne_nil_of_mem (a := name) ?_
    rw [List.mem_mergeSort, List.mem_filter]
    exact ⟨hname, by simpa using hmissing⟩
  intro hnil
  rw [validateNamed, hrequired] at hnil
  dsimp only at hnil
  rw [if_neg hfilter] at hnil
  simp at hnil

/-- An event type that is not that of an order has a field of its own. -/
theorem eventRequiredFields_other {expected : String} {required : List String}
    (h : eventRequiredFields expected = some required) (hother : expected ∉ orderEventTypes) :
    "strategy_name" ∈ required ∨ "reason" ∈ required := by
  rw [eventRequiredFields, if_neg hother] at h
  split at h
  · cases h
    exact .inl (by decide)
  · split at h
    · cases h
      exact .inl (by decide)
    · split at h
      · cases h
        exact .inl (by decide)
      · split at h
        · cases h
          exact .inr (by decide)
        · cases h

end Schemas

/-- What the two publishing calls have in common. -/
structure OrderArgs where
  orderId : String
  signalId : String
  riskDecisionId : String
  traceId : String
  symbol : String
  market : String
  direction : String
  quantityOrdered : ℤ
  brokerOrderId : String
  strategyId : String := ""
  productType : String := "DAY"
  expiresAt : Option String := none
  stopLoss : Json := .null
  takeProfit : Json := .null

structure FillArgs extends OrderArgs where
  quantityFilled : ℤ
  avgFillPrice : JsonFloat
  fillTime : Option DateTime := none
  eventType : Option String := none

structure RejectionArgs extends OrderArgs where
  rejectReason : String

namespace OrderArgs
variable (args : OrderArgs)

def instrumentId : String := args.market ++ ":" ++ args.symbol

def expiry : Json :=
  match args.expiresAt with
  | none => .null
  | some text => .string text

/-- The fields of an order event; the last five differ from one call to the other. -/
def body (env : Envelope) (eventType : String) (quantityFilled : ℤ) (avgFillPrice fillTime : Json)
    (rejectReason : Json) : Body := [
  ("event_id", .string env.eventId),
  ("trace_id", .string (if args.traceId ≠ "" then args.traceId else env.freshTraceId)),
  ("event_type", .string eventType),
  ("schema_version", .string "3.0"),
  ("source", .string "execution_engine"),
  ("published_time", isoText env.now),
  ("order_id", .string args.orderId),
  ("signal_id", .string args.signalId),
  ("risk_decision_id", .string args.riskDecisionId),
  ("strategy_id", .string args.strategyId),
  ("instrument_id", .string args.instrumentId),
  ("market", .string args.market),
  ("direction", .string args.direction),
  ("quantity_ordered", .int args.quantityOrdered),
  ("quantity_filled", .int quantityFilled),
  ("avg_fill_price", avgFillPrice),
  ("broker_order_id", .string args.brokerOrderId),
  ("product_type", .string args.productType),
  ("expires_at", args.expiry),
  ("stop_loss", args.stopLoss),
  ("take_profit", args.takeProfit),
  ("fill_time", fillTime),
  ("reject_reason", rejectReason)]

end OrderArgs

/-- `_validate_event` of the publisher -/
def orderChecked (py : Python) (expected : String) (body : Body) : Parsed Body :=
  match validateNamed py body expected with
  | [] => .ok body
  | errors => .error (.invalid errors)

namespace FillArgs
variable (args : FillArgs)

/-- An event type that is not given, or empty, is read off the quantities. -/
def resolvedType : String :=
  match args.eventType.filter (· ≠ "") with
  | some eventType => eventType
  | none => if args.quantityFilled < args.quantityOrdered then "ORDER_PARTIAL" else "ORDER_FILLED"

/-- A fill without a time happened now. -/
def filledAt (now : DateTime) : DateTime := args.fillTime.getD now

/-- `publish_fill`, as far as the event that it enqueues. -/
def publish (py : Python) (env : Envelope) (now : DateTime) : Parsed Body :=
  orderChecked py args.resolvedType (args.body env args.resolvedType args.quantityFilled
    (.float args.avgFillPrice) (isoText (args.filledAt now)) .null)

end FillArgs

/-- `publish_rejection`, as far as the event that it enqueues. -/
def RejectionArgs.publish (py : Python) (env : Envelope) (args : RejectionArgs) : Parsed Body :=
  orderChecked py "ORDER_REJECTED"
    (args.body env "ORDER_REJECTED" 0 .null .null (.string args.rejectReason))

/-- An event of the risk engine's consumer; what it only hands on may be any JSON. -/
structure OrderFillEvent where
  eventType : String
  orderId : Json
  signalId : Json
  riskDecisionId : Json
  traceId : Json
  strategyId : Json
  instrumentId : String
  market : String
  symbol : String
  direction : Json
  quantityOrdered : ℤ
  quantityFilled : ℤ
  avgFillPrice : Option JsonFloat
  brokerOrderId : Json
  productType : Json
  expiresAt : Option DateTime
  stopLoss : Json
  takeProfit : Json
  fillTime : Option DateTime
  rejectReason : Json

namespace OrderFillEvent
variable (e : OrderFillEvent)

def isFill : Bool := e.eventType = "ORDER_FILLED" ∨ e.eventType = "ORDER_PARTIAL"

def isFullFill : Bool := e.eventType = "ORDER_FILLED"

def isRejected : Bool := e.eventType = "ORDER_REJECTED"

end OrderFillEvent

/-- The value of a message. -/
inductive Payload where
  | malformed
  | notDict
  | dict (body : Body)

/-- Why a message goes to the dead letters. -/
inductive DeadLetter where
  | unexpectedType (reason : String)
  | invalid (reason : String)
  | malformed (error : EventError)
  deriving DecidableEq

def DeadLetter.errorType : DeadLetter → String
  | .unexpectedType _ | .invalid _ => "schema_validation_failed"
  | .malformed _ => "malformed_order_event"

inductive Polled where
  | event (e : OrderFillEvent)
  | deadLetter (letter : DeadLetter)
  | raised (error : EventError)

def acceptedOrderEvents : List String := ["ORDER_FILLED", "ORDER_PARTIAL", "ORDER_REJECTED"]

/-- A time that may be null or empty. -/
def optionalTime (py : Python) (value : Json) : Parsed (Option DateTime) :=
  if value.truthy then some <$> parseIso py value else .ok none

/-- `float(raw_price) if raw_price is not None else None` -/
def optionalPrice (py : Python) : Json → Parsed (Option JsonFloat)
  | .null => .ok none
  | value => some <$> toFloat py value

/-- The body of an event of an accepted type that passed the validation. -/
def readOrderEvent (py : Python) (eventType : String) (body : Body) : Parsed OrderFillEvent := do
  let instrumentId ← methodText (← body.index "instrument_id")
  let (market, symbol) ← splitInstrument instrumentId
  let fillTime ← optionalTime py (body.get "fill_time" .null)
  let avgFillPrice ← optionalPrice py (body.get "avg_fill_price" .null)
  let expiresAt ← optionalTime py (body.get "expires_at" .null)
  return {
    eventType := eventType
    orderId := ← body.index "order_id"
    signalId := ← body.index "signal_id"
    riskDecisionId := ← body.index "risk_decision_id"
    traceId := body.get "trace_id" (.string "")
    strategyId := ← body.index "strategy_id"
    instrumentId := instrumentId
    market := market
    symbol := symbol
    direction := ← body.index "direction"
    quantityOrdered := ← toInteger (← body.index "quantity_ordered")
    quantityFilled := ← toInteger (body.get "quantity_filled" (.int 0))
    avgFillPrice := avgFillPrice
    brokerOrderId := body.get "broker_order_id" (.string "")
    productType := ← body.index "product_type"
    expiresAt := expiresAt
    stopLoss := body.get "stop_loss" .null
    takeProfit := body.get "take_profit" .null
    fillTime := fillTime
    rejectReason := body.get "reject_reason" .null }

/-- The `except` clause of `_parse_message`: a `TypeError` and an `OverflowError` escape it. -/
def EventError.caught : EventError → Bool
  | .typeError | .overflowError => false
  | _ => true

/-- `_parse_message` of `KafkaOrderEventsConsumer` -/
def pollOrderEvent (py : Python) : Payload → Polled
  | .malformed => .deadLetter (.malformed .valueError)
  | .notDict => .deadLetter (.malformed .attributeError)
  | .dict body =>
    let received := body.get "event_type" .null
    match received.asString.filter (· ∈ acceptedOrderEvents) with
    | none => .deadLetter (.unexpectedType ("Unexpected event_type " ++ py.repr received))
    | some eventType =>
      match validateNamed py body eventType with
      | [] =>
        match readOrderEvent py eventType body with
        | .ok e => .event e
        | .error error =>
          if error.caught then .deadLetter (.malformed error) else .raised error
      | errors => .deadLetter (.invalid (String.intercalate "; " errors))

/-- The place of a message in its topic. -/
structure Place where
  topic : String
  partition : ℕ
  offset : ℕ
  deriving DecidableEq, Repr

/-- The event as the accounting of fills reads it: identifiers that are text, and a price that is
a number or none. -/
def OrderFillEvent.accounted (e : OrderFillEvent) (place : Place) :
    Option QuantEmbrace.OrderFillEvent := do
  let price ← match e.avgFillPrice with
    | none => some none
    | some (.finite price) => some (some price)
    | some _ => none
  return {
    eventType := e.eventType
    orderId := ← e.orderId.asString
    strategyId := ← e.strategyId.asString
    symbol := e.symbol
    direction := ← e.direction.asString
    quantityFilled := e.quantityFilled
    avgFillPrice := price
    rawTopic := place.topic
    rawPartition := place.partition
    rawOffset := place.offset }

section Reading
variable {py : Python} {env : Envelope} {args : OrderArgs} {eventType : String} {filled : ℤ}
  {price fillTime reason : Json}

theorem parseIso_string (text : String) : parseIso py (.string text) =
    match py.fromisoformat text with
    | some time => .ok time.aware
    | none => .error .valueError := by
  have hchars : (Text.of text).chars.map String.ofList = some text := by simp [Text.of]
  rw [Json.string, parseIso, hchars]
  rfl

/-- The expiry of an order as the consumer reads it: none, a time, or text that is none. -/
def OrderArgs.readExpiry (py : Python) (args : OrderArgs) : Parsed (Option DateTime) :=
  optionalTime py args.expiry

/-- The expiry can be read: there is none, it is empty, or it is a time. -/
def OrderArgs.ExpiryReadable (py : Python) (args : OrderArgs) : Prop :=
  ∀ text, args.expiresAt = some text → text = "" ∨ (py.fromisoformat text).isSome

theorem readExpiry_cases (py : Python) (args : OrderArgs) :
    (args.ExpiryReadable py ∧ ∃ expiresAt, args.readExpiry py = .ok expiresAt) ∨
    (¬ args.ExpiryReadable py ∧ args.readExpiry py = .error .valueError) := by
  rw [OrderArgs.readExpiry, OrderArgs.ExpiryReadable, OrderArgs.expiry]
  cases args.expiresAt with
  | none => exact .inl ⟨nofun, none, rfl⟩
  | some text =>
    dsimp only
    rw [optionalTime, parseIso_string]
    by_cases hempty : text = ""
    · refine .inl ⟨fun t ht => .inl ?_, none, ?_⟩
      · cases ht
        exact hempty
      · rw [if_neg (by rw [Json.truthy_string]; exact not_not.mpr hempty)]
    · rw [if_pos (Json.truthy_string text |>.mpr hempty)]
      cases hread : py.fromisoformat text with
      | none =>
        refine .inr ⟨fun h => ?_, rfl⟩
        obtain h | h := h text rfl
        · exact hempty h
        · rw [hread] at h
          cases h
      | some time =>
        refine .inl ⟨fun t ht => .inr ?_, some time.aware, rfl⟩
        cases ht
        rw [hread]
        rfl

/-- What the consumer reads out of an event that the publisher wrote. -/
def OrderArgs.heard (args : OrderArgs) (env : Envelope) (eventType : String) (filled : ℤ)
    (price : Option JsonFloat) (fillTime expiresAt : Option DateTime) (reason : Json) :
    OrderFillEvent where
  eventType := eventType
  orderId := .string args.orderId
  signalId := .string args.signalId
  riskDecisionId := .string args.riskDecisionId
  traceId := .string (if args.traceId ≠ "" then args.traceId else env.freshTraceId)
  strategyId := .string args.strategyId
  instrumentId := args.instrumentId
  market := args.market
  symbol := args.symbol
  direction := .string args.direction
  quantityOrdered := args.quantityOrdered
  quantityFilled := filled
  avgFillPrice := price
  brokerOrderId := .string args.brokerOrderId
  productType := .string args.productType
  expiresAt := expiresAt
  stopLoss := args.stopLoss
  takeProfit := args.takeProfit
  fillTime := fillTime
  rejectReason := reason

theorem readOrderEvent_body (hmarket : ':' ∉ args.market.toList) :
    readOrderEvent py eventType (args.body env eventType filled price fillTime reason) = (do
      let fillTime ← optionalTime py fillTime
      let price ← optionalPrice py price
      let expiresAt ← args.readExpiry py
      return args.heard env eventType filled price fillTime expiresAt reason) := by
  rw [readOrderEvent]
  set body := args.body env eventType filled price fillTime reason with hbody
  have hinstrument : body.index "instrument_id" = .ok (.string args.instrumentId) := rfl
  have hfillTime : body.get "fill_time" .null = fillTime := rfl
  have hprice : body.get "avg_fill_price" .null = price := rfl
  have hexpiry : body.get "expires_at" .null = args.expiry := rfl
  have horder : body.index "order_id" = .ok (.string args.orderId) := rfl
  have hsignal : body.index "signal_id" = .ok (.string args.signalId) := rfl
  have hdecision : body.index "risk_decision_id" = .ok (.string args.riskDecisionId) := rfl
  have hstrategy : body.index "strategy_id" = .ok (.string args.strategyId) := rfl
  have hdirection : body.index "direction" = .ok (.string args.direction) := rfl
  have hordered : body.index "quantity_ordered" = .ok (.int args.quantityOrdered) := rfl
  have hfilled : body.get "quantity_filled" (.int 0) = .int filled := rfl
  have hproduct : body.index "product_type" = .ok (.string args.productType) := rfl
  simp only [ok_bind, hinstrument, hfillTime, hprice, hexpiry, horder, hsignal, hdecision,
    hstrategy, hdirection, hordered, hfilled, hproduct, methodText_string, OrderArgs.instrumentId,
    splitInstrument_eq hmarket, toInteger]
  rfl

theorem orderBody_names (env : Envelope) (args : OrderArgs) (eventType : String) (filled : ℤ)
    (price fillTime reason : Json) :
    (args.body env eventType filled price fillTime reason).map Prod.fst = ["event_id", "trace_id",
      "event_type", "schema_version", "source", "published_time", "order_id", "signal_id",
      "risk_decision_id", "strategy_id", "instrument_id", "market", "direction",
      "quantity_ordered", "quantity_filled", "avg_fill_price", "broker_order_id", "product_type",
      "expires_at", "stop_loss", "take_profit", "fill_time", "reject_reason"] :=
  rfl

theorem eventRequiredFields_order : ∀ eventType ∈ orderEventTypes,
    eventRequiredFields eventType = some orderRequiredFields ∧ eventType ≠ "SIGNAL_ENRICHED" := by
  decide +kernel

theorem orderChecked_body (h : eventType ∈ orderEventTypes) :
    orderChecked py eventType (args.body env eventType filled price fillTime reason) =
      .ok (args.body env eventType filled price fillTime reason) := by
  obtain ⟨hrequired, hplain⟩ := eventRequiredFields_order eventType h
  have hvalid : validateNamed py (args.body env eventType filled price fillTime reason)
      eventType = [] :=
    validateNamed_eq_nil hrequired hplain (Json.asString_string _) (Json.asString_string _)
      (by rw [orderBody_names]; decide +kernel)
  rw [orderChecked, hvalid]

theorem orderChecked_other {body : Body} (h : eventType ∉ orderEventTypes) :
    orderChecked py eventType (args.body env eventType filled price fillTime reason) ≠
      .ok body := by
  have herrors : validateNamed py (args.body env eventType filled price fillTime reason)
      eventType ≠ [] := by
    cases hrequired : eventRequiredFields eventType with
    | none => exact validateNamed_unknown hrequired
    | some required =>
      obtain hname | hname := eventRequiredFields_other hrequired h
      · exact validateNamed_missing hrequired hname (by rw [orderBody_names]; decide +kernel)
      · exact validateNamed_missing hrequired hname (by rw [orderBody_names]; decide +kernel)
  rw [orderChecked]
  split
  · next hnil => exact absurd hnil herrors
  · nofun

end Reading

/-- A fill is published exactly if its type is that of an order event. -/
theorem publish_ok_iff {py : Python} {env : Envelope} {now : DateTime} {args : FillArgs}
    {body : Body} : args.publish py env now = .ok body ↔
      args.resolvedType ∈ orderEventTypes ∧ body = args.body env args.resolvedType
        args.quantityFilled (.float args.avgFillPrice) (isoText (args.filledAt now)) .null := by
  rw [FillArgs.publish]
  by_cases htype : args.resolvedType ∈ orderEventTypes
  · rw [orderChecked_body htype, Except.ok.injEq, eq_comm]
    exact (and_iff_right htype).symm
  · exact iff_of_false (orderChecked_other htype) fun h => htype h.1

section Polling
variable {py : Python} {env : Envelope} {now : DateTime} {args : OrderArgs} {eventType : String}
  {filled : ℤ} {price fillTime reason : Json}

/-- What the consumer makes of a body that the publisher wrote. -/
theorem pollOrderEvent_body (hmarket : ':' ∉ args.market.toList)
    (htype : eventType ∈ acceptedOrderEvents) :
    pollOrderEvent py (.dict (args.body env eventType filled price fillTime reason)) =
      match (do
        let fillTime ← optionalTime py fillTime
        let price ← optionalPrice py price
        let expiresAt ← args.readExpiry py
        return args.heard env eventType filled price fillTime expiresAt reason) with
      | .ok e => .event e
      | .error error => if error.caught then .deadLetter (.malformed error) else .raised error := by
  have horder : eventType ∈ orderEventTypes :=
    (by decide : ∀ t ∈ acceptedOrderEvents, t ∈ orderEventTypes) eventType htype
  have hvalid : validateNamed py (args.body env eventType filled price fillTime reason)
      eventType = [] := by
    have hok : orderChecked py eventType (args.body env eventType filled price fillTime reason) =
        .ok _ := orderChecked_body horder
    rw [orderChecked] at hok
    split at hok
    · assumption
    · cases hok
  have hreceived : (Body.get (args.body env eventType filled price fillTime reason)
      "event_type" .null).asString = some eventType := Json.asString_string _
  rw [pollOrderEvent, hreceived, Option.filter_some, if_pos (by simpa using htype)]
  dsimp only
  rw [hvalid]
  dsimp only
  rw [readOrderEvent_body hmarket]

theorem pollOrderEvent_other (htype : eventType ∉ acceptedOrderEvents) :
    pollOrderEvent py (.dict (args.body env eventType filled price fillTime reason)) =
      .deadLetter (.unexpectedType ("Unexpected event_type " ++ py.repr (.string eventType))) := by
  have hreceived : Body.get (args.body env eventType filled price fillTime reason)
      "event_type" .null = .string eventType := rfl
  rw [pollOrderEvent, hreceived, Json.asString_string, Option.filter_some,
    if_neg (by simpa using htype)]

theorem optionalTime_isoText (t : DateTime) : optionalTime py (isoText t) = .ok (some t.aware) := by
  rw [optionalTime, if_pos (truthy_isoText t), parseIso_isoText]
  rfl

theorem pollOrderEvent_read {expiresAt : Option DateTime} {t : DateTime} {p : JsonFloat}
    (hmarket : ':' ∉ args.market.toList) (htype : eventType ∈ acceptedOrderEvents)
    (hexpiry : args.readExpiry py = .ok expiresAt) :
    pollOrderEvent py (.dict (args.body env eventType filled (.float p) (isoText t) reason)) =
      .event (args.heard env eventType filled (some p) (some t.aware) expiresAt reason) := by
  rw [pollOrderEvent_body hmarket htype, optionalTime_isoText, hexpiry]
  rfl

theorem pollOrderEvent_unread {t : DateTime} {p : JsonFloat} (hmarket : ':' ∉ args.market.toList)
    (htype : eventType ∈ acceptedOrderEvents) (hexpiry : args.readExpiry py = .error .valueError) :
    pollOrderEvent py (.dict (args.body env eventType filled (.float p) (isoText t) reason)) =
      .deadLetter (.malformed .valueError) := by
  rw [pollOrderEvent_body hmarket htype, optionalTime_isoText, hexpiry]
  rfl

/-- A type that is accepted and not that of a rejection is that of a fill. -/
theorem accepted_isFill (htype : eventType ∈ acceptedOrderEvents) :
    (eventType = "ORDER_FILLED" || eventType = "ORDER_PARTIAL") = true ↔
      eventType ≠ "ORDER_REJECTED" :=
  (by decide +kernel : ∀ t ∈ acceptedOrderEvents,
    (t = "ORDER_FILLED" || t = "ORDER_PARTIAL") = true ↔ t ≠ "ORDER_REJECTED") eventType htype

/-- What is left of an event in the accounting. -/
theorem heard_accounted (env : Envelope) (args : OrderArgs) (filled : ℤ) (p : Option ℚ)
    (fillTime expiresAt : Option DateTime) (place : Place) :
    (args.heard env eventType filled (p.map .finite) fillTime expiresAt reason).accounted place =
      some ⟨eventType, args.orderId, args.strategyId, args.symbol, args.direction, filled, p,
        place.topic, place.partition, place.offset⟩ := by
  cases p <;> simp [OrderFillEvent.accounted, OrderArgs.heard]

/-- The call of the ledger for an event of an accepted type. -/
theorem recordArgs_accepted {orderId strategyId symbol direction : String} {p : ℚ}
    (htype : eventType ∈ acceptedOrderEvents) (place : Place) :
    let fill : QuantEmbrace.OrderFillEvent := ⟨eventType, orderId, strategyId, symbol, direction,
      filled, some p, place.topic, place.partition, place.offset⟩
    (if fill.isFill then fill.recordArgs else none) =
      if eventType ≠ "ORDER_REJECTED" ∧ filled ≠ 0 then
        some ⟨orderId, symbol, direction, filled, p, fill.fillId⟩
      else none := by
  intro fill
  have hisFill : fill.isFill = true ↔ eventType ≠ "ORDER_REJECTED" := accepted_isFill htype
  by_cases hfill : eventType ≠ "ORDER_REJECTED"
  · rw [if_pos (hisFill.mpr hfill)]
    by_cases hzero : filled = 0
    · rw [if_neg fun h => h.2 hzero]
      exact if_pos hzero
    · rw [if_pos ⟨hfill, hzero⟩]
      exact if_neg hzero
  · rw [if_neg fun h => hfill (hisFill.mp h), if_neg fun h => hfill h.1]

end Polling

/-- A published fill reaches the consumer with what was put into it exactly if its type is one
that the consumer takes and its expiry can be read; else it goes to the dead letters. The ledger
is then called with the order, the symbol, the side, the quantity and the price of the fill, under
the place of its message, unless it is of nothing or marked as a rejection. -/
theorem published_fill_heard (py : Python) (env : Envelope) (now : DateTime) (args : FillArgs)
    (body : Body) (hmarket : ':' ∉ args.market.toList) (h : args.publish py env now = .ok body) :
    ((∃ e, pollOrderEvent py (.dict body) = .event e) ↔
      args.resolvedType ∈ acceptedOrderEvents ∧ args.ExpiryReadable py) ∧
    ((∃ letter, pollOrderEvent py (.dict body) = .deadLetter letter) ↔
      ¬ (args.resolvedType ∈ acceptedOrderEvents ∧ args.ExpiryReadable py)) ∧
    ∀ e, pollOrderEvent py (.dict body) = .event e →
      (∃ expiresAt, args.readExpiry py = .ok expiresAt ∧
        e = args.heard env args.resolvedType args.quantityFilled (some args.avgFillPrice)
          (some (args.filledAt now).aware) expiresAt .null) ∧
      ∀ price place, args.avgFillPrice = .finite price → ∃ fill, e.accounted place = some fill ∧
        (if fill.isFill then fill.recordArgs else none) =
          if args.resolvedType ≠ "ORDER_REJECTED" ∧ args.quantityFilled ≠ 0 then
            some ⟨args.orderId, args.symbol, args.direction, args.quantityFilled, price,
              fill.fillId⟩
          else none := by
  obtain ⟨-, rfl⟩ := publish_ok_iff.mp h
  by_cases htype : args.resolvedType ∈ acceptedOrderEvents
  · obtain ⟨hread, expiresAt, hexpiry⟩ | ⟨hread, hexpiry⟩ := readExpiry_cases py args.toOrderArgs
    · rw [pollOrderEvent_read hmarket htype hexpiry]
      refine ⟨iff_of_true ⟨_, rfl⟩ ⟨htype, hread⟩, iff_of_false ?_ (not_not.mpr ⟨htype, hread⟩), ?_⟩
      · intro ⟨letter, hletter⟩
        cases hletter
      · intro e he
        cases he
        refine ⟨⟨expiresAt, hexpiry, rfl⟩, fun price place hprice => ?_⟩
        rw [hprice]
        refine ⟨_, heard_accounted env args.toOrderArgs args.quantityFilled (some price) _
          expiresAt place, ?_⟩
        exact recordArgs_accepted htype place
    · rw [pollOrderEvent_unread hmarket htype hexpiry]
      refine ⟨iff_of_false ?_ fun h => hread h.2, iff_of_true ⟨_, rfl⟩ fun h => hread h.2, ?_⟩
      · intro ⟨e, he⟩
        cases he
      · intro e he
        cases he
  · rw [pollOrderEvent_other htype]
    refine ⟨iff_of_false ?_ fun h => htype h.1, iff_of_true ⟨_, rfl⟩ fun h => htype h.1, ?_⟩
    · intro ⟨e, he⟩
      cases he
    · intro e he
      cases he

/-- A rejection is always published; it reaches the consumer unless its expiry cannot be read,
and is never taken for a fill. -/
theorem published_rejection_heard (py : Python) (env : Envelope) (args : RejectionArgs)
    (hmarket : ':' ∉ args.market.toList) : ∃ body, args.publish py env = .ok body ∧
      ∀ e, pollOrderEvent py (.dict body) = .event e ↔ ∃ expiresAt,
        args.readExpiry py = .ok expiresAt ∧
        e = args.heard env "ORDER_REJECTED" 0 none none expiresAt (.string args.rejectReason) ∧
        e.isFill = false ∧ e.isRejected = true := by
  refine ⟨_, orderChecked_body (by decide), fun e => ?_⟩
  rw [pollOrderEvent_body hmarket (by decide)]
  cases hexpiry : args.readExpiry py with
  | ok expiresAt =>
    constructor
    · intro he
      cases he
      exact ⟨expiresAt, rfl, rfl, rfl, rfl⟩
    · intro ⟨expiresAt, hread, he, _⟩
      cases hread
      rw [he]
      rfl
  | error error =>
    refine iff_of_false (fun he => ?_) fun ⟨_, hread, _⟩ => by cases hread
    change (if error.caught then Polled.deadLetter (.malformed error) else .raised error) = _ at he
    split at he <;> cases he

def fillOfTen : FillArgs where
  orderId := "O1"
  signalId := "S1"
  riskDecisionId := "R1"
  traceId := ""
  symbol := "INFY"
  market := "NSE"
  direction := "BUY"
  quantityOrdered := 10
  brokerOrderId := "B1"
  quantityFilled := 10
  avgFillPrice := .finite 1500

theorem published_fill_heard_fillOfTen : ∃ e fill, pollOrderEvent python (.dict
    (fillOfTen.body ⟨"E1", "T1", emitted⟩ "ORDER_FILLED" 10 (.float (.finite 1500))
      (isoText emitted) .null)) = .event e ∧
    e.accounted ⟨"orders.events", 0, 7⟩ = some fill ∧
    (if fill.isFill then fill.recordArgs else none) =
      some ⟨"O1", "INFY", "BUY", 10, 1500, fill.fillId⟩ := by
  have hpublish : fillOfTen.publish python ⟨"E1", "T1", emitted⟩ emitted = .ok _ :=
    publish_ok_iff.mpr ⟨by decide +kernel, rfl⟩
  obtain ⟨hevent, -, hledger⟩ := published_fill_heard python ⟨"E1", "T1", emitted⟩ emitted fillOfTen
    _ (by decide +kernel) hpublish
  obtain ⟨e, he⟩ := hevent.mpr ⟨by decide +kernel, nofun⟩
  obtain ⟨fill, hfill, hargs⟩ := (hledger e he).2 1500 ⟨"orders.events", 0, 7⟩ rfl
  refine ⟨e, fill, he, hfill, hargs.trans ?_⟩
  rw [if_pos (by decide +kernel)]
  simp [fillOfTen]

end QuantEmbrace.SignalFlow
