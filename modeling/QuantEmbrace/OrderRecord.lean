import QuantEmbrace.Lib.DynamoItem
import QuantEmbrace.Lib.PythonValue
import QuantEmbrace.Order

/-! The record of an order: how a request is written as an item by `submit_order` and
`submit_child_order`, and how `_unmarshal_item` reads it back. -/
namespace QuantEmbrace.OrderRecord
open DynamoItem PythonValue

inductive OrderType where
  | market | limit | stop | stopLimit | stopLossMarket | trailingStop
  deriving DecidableEq, Repr

section Values

def statusValue : OrderStatus → String
  | .pending => "PENDING"
  | .ackUnknown => "ACK_UNKNOWN"
  | .placed => "PLACED"
  | .partiallyFilled => "PARTIALLY_FILLED"
  | .filled => "FILLED"
  | .cancelled => "CANCELLED"
  | .rejected => "REJECTED"
  | .flattening => "FLATTENING"

def sideValue : OrderSide → String
  | .buy => "BUY"
  | .sell => "SELL"

def typeValue : OrderType → String
  | .market => "MARKET"
  | .limit => "LIMIT"
  | .stop => "STOP"
  | .stopLimit => "STOP_LIMIT"
  | .stopLossMarket => "SL-M"
  | .trailingStop => "TRAILING_STOP"

def marketValue : Market → String
  | .nse => "NSE"
  | .us => "US"

def productValue : ProductType → String
  | .cnc => "CNC"
  | .mis => "MIS"
  | .nrml => "NRML"
  | .day => "DAY"

/-- The member of an enumeration with a value; without one it raises. -/
def parse {α : Type} (value : α → String) (members : List α) (text : String) : Option α :=
  members.find? fun a => value a = text

def parseStatus : String → Option OrderStatus := parse statusValue
  [.pending, .ackUnknown, .placed, .partiallyFilled, .filled, .cancelled, .rejected, .flattening]

def parseSide : String → Option OrderSide := parse sideValue [.buy, .sell]

def parseType : String → Option OrderType := parse typeValue
  [.market, .limit, .stop, .stopLimit, .stopLossMarket, .trailingStop]

def parseMarket : String → Option Market := parse marketValue [.nse, .us]

def parseProduct : String → Option ProductType := parse productValue [.cnc, .mis, .nrml, .day]

@[simp] theorem parseStatus_value (s : OrderStatus) : parseStatus (statusValue s) = some s := by
  cases s <;> decide

@[simp] theorem parseSide_value (s : OrderSide) : parseSide (sideValue s) = some s := by
  cases s <;> decide

@[simp] theorem parseType_value (t : OrderType) : parseType (typeValue t) = some t := by
  cases t <;> decide

@[simp] theorem parseMarket_value (m : Market) : parseMarket (marketValue m) = some m := by
  cases m <;> decide

@[simp] theorem parseProduct_value (p : ProductType) : parseProduct (productValue p) = some p := by
  cases p <;> decide

end Values

abbrev Metadata : Type := List (Text × Json)

/-- What the records rest on: the JSON text of a `dict`, where it has one, and a float as the table
keeps its text, where it does. -/
structure Codec where
  sha256 : String → String
  dumps : Metadata → Option String
  loads : String → Option Json
  loads_dumps : ∀ m text, dumps m = some text → loads text = some (.dict m)
  number : JsonFloat → Option String
  floatOfText : String → Option JsonFloat
  floatOfText_number : ∀ x text, number x = some text → floatOfText text = some x
  floatOfText_zero : floatOfText "0" = some (.finite 0)

structure OrderRequest where
  orderId : String
  signalId : String
  riskDecisionId : String
  symbol : String
  market : Market
  side : OrderSide
  orderType : OrderType := .market
  quantity : JsonFloat
  limitPrice : Option JsonFloat := none
  stopPrice : Option JsonFloat := none
  productType : ProductType := .day
  metadata : Metadata := []
  createdAt : String
  tradeDate : String

def keyName : String := "broker_idempotency_key"

/-- The key under which the broker finds the order again. -/
def OrderRequest.key (order : OrderRequest) : Json := Json.field order.metadata keyName

section Write
variable (c : Codec)

def brokerIdempotencyKey (orderId : String) : String :=
  "QE" ++ String.ofList ((c.sha256 orderId).toList.take 18)

def attachBrokerIdempotency (order : OrderRequest) : OrderRequest :=
  if order.key.truthy then order
  else
    { order with
      metadata := Json.set keyName (.string (brokerIdempotencyKey c order.orderId))
        order.metadata }

/-- An attribute that is there if the price is. -/
def priceItem (name : String) : Option JsonFloat → Option Item
  | none => some []
  | some x => (c.number x).map fun text => [(name, .n text)]

/-- What the record of a protective child has besides. -/
structure Child where
  parentOrderId : String
  protectiveType : String
  deriving DecidableEq, Repr

def Child.item (child : Child) : Item :=
  [("parent_order_id", .s child.parentOrderId), ("protective_type", .s child.protectiveType),
    ("is_protective", .bool true)]

/-- The item of a request that has its key; `none` where it cannot be written. -/
def orderItem (now : String) (child : Option Child) (order : OrderRequest) : Option Item := do
  let quantity ← c.number order.quantity
  let metadata ← c.dumps order.metadata
  let key ← order.key.asString
  let limitPrice ← priceItem c "limit_price" order.limitPrice
  let stopPrice ← priceItem c "stop_price" order.stopPrice
  return [
    ("PK", .s ("ORDER#" ++ order.orderId)),
    ("SK", .s "META"),
    ("order_id", .s order.orderId),
    ("signal_id", .s order.signalId),
    ("risk_decision_id", .s order.riskDecisionId),
    ("symbol", .s order.symbol),
    ("market", .s (marketValue order.market)),
    ("side", .s (sideValue order.side)),
    ("order_type", .s (typeValue order.orderType)),
    ("product_type", .s (productValue order.productType)),
    ("quantity", .n quantity),
    ("order_status", .s (statusValue .pending)),
    ("filled_quantity", .n "0"),
    ("avg_fill_price", .n "0"),
    ("slippage", .n "0"),
    ("created_at", .s order.createdAt),
    ("updated_at", .s now),
    ("trade_date", .s order.tradeDate),
    ("metadata", .s metadata),
    ("broker_idempotency_key", .s key),
    ("broker_order_state", .s "RESERVED"),
    ("outbox_status", .s "BROKER_RESERVED")]
    ++ (child.elim [] Child.item ++ (limitPrice ++ stopPrice))

end Write

structure StoredOrder where
  orderId : String
  brokerOrderId : String
  status : OrderStatus
  symbol : String
  market : Market
  filledQuantity : JsonFloat
  avgFillPrice : JsonFloat
  brokerMessage : String
  signalId : String
  riskDecisionId : String
  side : OrderSide
  orderType : OrderType
  productType : ProductType
  quantity : JsonFloat
  limitPrice : Option JsonFloat
  stopPrice : Option JsonFloat
  parentOrderId : String
  protectiveType : String
  isProtective : Bool
  protectiveStopOrderId : String
  brokerIdempotencyKey : String
  metadata : Metadata

section Read
variable (c : Codec) (item : Item)

/-- `_f`; a text that is no number raises. -/
def readFloat (name : String) : Option JsonFloat :=
  match item.number name with
  | none => some (.finite 0)
  | some text => c.floatOfText text

/-- `_f_opt` -/
def readPrice (name : String) : Option (Option JsonFloat) :=
  match item.number name with
  | none => some none
  | some text => (c.floatOfText text).map some

/-- `_metadata`; what is not the text of a `dict` is an empty one. -/
def readMetadata : Metadata :=
  match c.loads (item.textD "metadata" "\x7b\x7d") with
  | some (.dict m) => m
  | _ => []

/-- `_unmarshal_item`; `none` where it raises. -/
def unmarshalItem : Option StoredOrder := do
  let status ← parseStatus (item.textD "order_status" (statusValue .pending))
  let market ← parseMarket (item.textD "market" (marketValue .nse))
  let filledQuantity ← readFloat c item "filled_quantity"
  let avgFillPrice ← readFloat c item "avg_fill_price"
  let side ← parseSide (item.textD "side" (sideValue .buy))
  let orderType ← parseType (item.textD "order_type" (typeValue .market))
  let productType ← parseProduct (item.textD "product_type" (productValue .day))
  let quantity ← readFloat c item "quantity"
  let limitPrice ← readPrice c item "limit_price"
  let stopPrice ← readPrice c item "stop_price"
  return {
    orderId := item.text "order_id"
    brokerOrderId := item.text "broker_order_id"
    status, market, filledQuantity, avgFillPrice, side, orderType, productType, quantity,
    limitPrice, stopPrice
    symbol := item.text "symbol"
    brokerMessage := item.text "broker_message"
    signalId := item.text "signal_id"
    riskDecisionId := item.text "risk_decision_id"
    parentOrderId := item.text "parent_order_id"
    protectiveType := item.text "protective_type"
    isProtective := item.flag "is_protective"
    protectiveStopOrderId := item.text "protective_stop_order_id"
    brokerIdempotencyKey := item.text "broker_idempotency_key"
    metadata := readMetadata c item }

end Read

section RoundTrip

/-- The stored order has all of the request that a broker is told. -/
structure Decodes (c : Codec) (order : OrderRequest) (child : Option Child) (o : StoredOrder) :
    Prop where
  orderId : o.orderId = order.orderId
  signalId : o.signalId = order.signalId
  riskDecisionId : o.riskDecisionId = order.riskDecisionId
  symbol : o.symbol = order.symbol
  market : o.market = order.market
  side : o.side = order.side
  orderType : o.orderType = order.orderType
  quantity : o.quantity = order.quantity
  limitPrice : o.limitPrice = order.limitPrice
  stopPrice : o.stopPrice = order.stopPrice
  productType : o.productType = order.productType
  metadata : o.metadata = order.metadata
  key : order.key = .string o.brokerIdempotencyKey
  isProtective : o.isProtective = child.isSome
  parentOrderId : ∀ ch, child = some ch → o.parentOrderId = ch.parentOrderId

/-- The attributes of a record that no later write touches -/
def requestNames : List String := ["order_id", "signal_id", "risk_decision_id", "symbol", "market",
  "side", "order_type", "product_type", "quantity", "limit_price", "stop_price", "metadata",
  "broker_idempotency_key", "parent_order_id", "is_protective"]

/-- A later version of the item: the request is as it was, and what was written over it can be
read. -/
structure Version (c : Codec) (item row : Item) : Prop where
  request : ∀ name ∈ requestNames, row.lookup name = item.lookup name
  status : (parseStatus (row.textD "order_status" (statusValue .pending))).isSome
  filled : (readFloat c row "filled_quantity").isSome
  average : (readFloat c row "avg_fill_price").isSome

variable {c : Codec} {now : String} {child : Option Child} {order : OrderRequest} {item row : Item}

theorem string_of_asString {value : Json} {s : String} (h : value.asString = some s) :
    value = .string s := by
  cases value with
  | text t =>
    rw [Json.asString, Option.map_eq_some_iff] at h
    obtain ⟨cs, hcs, rfl⟩ := h
    have hscalar : ∀ (t : Text) (cs : List Char), t.chars = some cs → t = cs.map .scalar := by
      intro t
      induction t with
      | nil =>
        intro cs h
        cases h
        rfl
      | cons p t ih =>
        intro cs h
        cases p with
        | surrogate n => cases h
        | scalar x =>
          rw [Text.chars, Option.map_eq_some_iff] at h
          obtain ⟨cs', hcs', rfl⟩ := h
          rw [List.map_cons, ← ih cs' hcs']
    rw [Json.string, Text.of, String.toList_ofList, hscalar t cs hcs]
  | _ => cases h

/-- The attribute of a price reads as the price, present or not. -/
theorem readPrice_of_lookup {name : String} {price : Option JsonFloat} {written : Item}
    (hwritten : priceItem c name price = some written)
    (hlookup : row.lookup name = written.lookup name) : readPrice c row name = some price := by
  cases price with
  | none =>
    cases hwritten
    rw [readPrice, Item.number, hlookup]
    rfl
  | some x =>
    rw [priceItem, Option.map_eq_some_iff] at hwritten
    obtain ⟨text, htext, rfl⟩ := hwritten
    rw [readPrice, Item.number, hlookup, List.lookup_cons_self]
    simp only [c.floatOfText_number x text htext, Option.map_some]

theorem priceItem_lookup_ne {name other : String} {price : Option JsonFloat} {written : Item}
    (hwritten : priceItem c name price = some written) (h : other ≠ name) :
    written.lookup other = none := by
  cases price with
  | none =>
    cases hwritten
    rfl
  | some x =>
    rw [priceItem, Option.map_eq_some_iff] at hwritten
    obtain ⟨text, -, rfl⟩ := hwritten
    rw [List.lookup_cons, beq_false_of_ne h]
    rfl

theorem version_self (h : orderItem c now child order = some item) : Version c item item := by
  simp only [orderItem, Option.bind_eq_bind, Option.bind_eq_some_iff, Option.pure_def,
    Option.some.injEq] at h
  obtain ⟨quantity, -, metadata, -, key, -, limit, -, stop, -, rfl⟩ := h
  have hzero : (c.floatOfText "0").isSome := by rw [c.floatOfText_zero]; rfl
  exact ⟨fun _ _ => rfl, rfl, hzero, hzero⟩

/-- Every later version of a record decodes to the request that was encoded. -/
theorem unmarshal_version (h : orderItem c now child order = some item)
    (hv : Version c item row) : ∃ o, unmarshalItem c row = some o ∧ Decodes c order child o := by
  have htext {name text : String} (hname : name ∈ requestNames) (default : String)
      (hitem : item.lookup name = some (.s text)) : row.textD name default = text := by
    rw [Item.textD, hv.request name hname, hitem]
  simp only [orderItem, Option.bind_eq_bind, Option.bind_eq_some_iff, Option.pure_def,
    Option.some.injEq] at h
  obtain ⟨quantity, hquantity, metadata, hmetadata, key, hkey, limit, hlimit, stop, hstop, rfl⟩ := h
  obtain ⟨status, hstatus⟩ := Option.isSome_iff_exists.mp hv.status
  obtain ⟨filled, hfilled⟩ := Option.isSome_iff_exists.mp hv.filled
  obtain ⟨average, haverage⟩ := Option.isSome_iff_exists.mp hv.average
  have hmarket : parseMarket (row.textD "market" (marketValue .nse)) = some order.market := by
    rw [htext (by decide) _ rfl, parseMarket_value]
  have hside : parseSide (row.textD "side" (sideValue .buy)) = some order.side := by
    rw [htext (by decide) _ rfl, parseSide_value]
  have htype : parseType (row.textD "order_type" (typeValue .market)) = some order.orderType := by
    rw [htext (by decide) _ rfl, parseType_value]
  have hproduct : parseProduct (row.textD "product_type" (productValue .day)) =
      some order.productType := by
    rw [htext (by decide) _ rfl, parseProduct_value]
  have hread : readFloat c row "quantity" = some order.quantity := by
    rw [readFloat, Item.number, hv.request "quantity" (by decide)]
    exact c.floatOfText_number _ _ hquantity
  have hlimitPrice : readPrice c row "limit_price" = some order.limitPrice := by
    refine readPrice_of_lookup hlimit ((hv.request "limit_price" (by decide)).trans ?_)
    have hrest : (limit ++ stop).lookup "limit_price" = limit.lookup "limit_price" := by
      rw [List.lookup_append, priceItem_lookup_ne hstop (by decide), Option.or_none]
    cases child <;> exact hrest
  have hstopPrice : readPrice c row "stop_price" = some order.stopPrice := by
    refine readPrice_of_lookup hstop ((hv.request "stop_price" (by decide)).trans ?_)
    have hrest : (limit ++ stop).lookup "stop_price" = stop.lookup "stop_price" := by
      rw [List.lookup_append, priceItem_lookup_ne hlimit (by decide), Option.none_or]
    cases child <;> exact hrest
  have hprotective : row.flag "is_protective" = child.isSome := by
    rw [Item.flag, hv.request "is_protective" (by decide)]
    cases child with
    | some ch => rfl
    | none =>
      have hrest : (limit ++ stop).lookup "is_protective" = none := by
        rw [List.lookup_append, priceItem_lookup_ne hlimit (by decide),
          priceItem_lookup_ne hstop (by decide), Option.or_none]
      refine decide_eq_false fun h => ?_
      have hfalse := hrest.symm.trans h
      cases hfalse
  have hdict : row.textD "metadata" "\x7b\x7d" = metadata := htext (by decide) _ rfl
  simp only [unmarshalItem, hstatus, hmarket, hfilled, haverage, hside, htype, hproduct, hread,
    hlimitPrice, hstopPrice, Option.bind_eq_bind, Option.bind_some]
  refine ⟨_, rfl, ?_⟩
  constructor
  · exact htext (by decide) _ rfl
  · exact htext (by decide) _ rfl
  · exact htext (by decide) _ rfl
  · exact htext (by decide) _ rfl
  · rfl
  · rfl
  · rfl
  · rfl
  · rfl
  · rfl
  · rfl
  · change readMetadata c row = _
    rw [readMetadata, hdict, c.loads_dumps _ _ hmetadata]
  · rw [string_of_asString hkey]
    congr 1
    exact (htext (by decide) _ rfl).symm
  · exact hprotective
  · rintro ch rfl
    exact htext (by decide) _ rfl

end RoundTrip

end QuantEmbrace.OrderRecord
