import QuantEmbrace.OrderReplay

/-! The requests that the recovery hands to the broker for an order whose placement was not
recorded, by the startup reconciliation or by the approval when it is delivered again. -/
namespace QuantEmbrace.OrderRecord
open DynamoItem PythonValue

/-- What `execute_approved_signal` is called with. -/
structure Arguments where
  signalId : String
  riskDecisionId : String
  symbol : String
  side : OrderSide
  quantity : JsonFloat
  orderType : OrderType
  market : Market
  limitPrice : Option JsonFloat := none
  stopPrice : Option JsonFloat := none
  productType : Option ProductType := none
  takeProfit : Json := .null
  expiresAt : Json := .null

/-- The time at which a request is built, and its day. -/
structure Stamp where
  iso : String
  day : String
  deriving DecidableEq, Repr

section Requests
variable (c : Codec) (stamp : Stamp)

def defaultProduct : Market → ProductType
  | .nse => .mis
  | .us => .day

/-- The request of a first submission -/
def entryRequest (orderId : String) (a : Arguments) : OrderRequest where
  orderId
  signalId := a.signalId
  riskDecisionId := a.riskDecisionId
  symbol := a.symbol
  market := a.market
  side := a.side
  orderType := a.orderType
  quantity := a.quantity
  limitPrice := a.limitPrice
  stopPrice := a.stopPrice
  productType := a.productType.getD (defaultProduct a.market)
  metadata := [(Text.of "take_profit", a.takeProfit), (Text.of "expires_at", a.expiresAt)]
  createdAt := stamp.iso
  tradeDate := stamp.day

def keyOrNew (existing : StoredOrder) : String :=
  if existing.brokerIdempotencyKey ≠ "" then existing.brokerIdempotencyKey
  else brokerIdempotencyKey c existing.orderId

def renewedMetadata (existing : StoredOrder) (takeProfit expiresAt : Json) : Metadata :=
  Json.set keyName (.string (keyOrNew c existing))
    (Json.set "expires_at" expiresAt (Json.set "take_profit" takeProfit existing.metadata))

/-- The request for a PENDING order: its identifier and product, the rest from the call. -/
def retryRequest (a : Arguments) (existing : StoredOrder) : OrderRequest where
  orderId := existing.orderId
  signalId := a.signalId
  riskDecisionId := a.riskDecisionId
  symbol := a.symbol
  market := a.market
  side := a.side
  orderType := a.orderType
  quantity := a.quantity
  limitPrice := a.limitPrice
  stopPrice := a.stopPrice
  productType := a.productType.getD existing.productType
  metadata := renewedMetadata c existing a.takeProfit a.expiresAt
  createdAt := stamp.iso
  tradeDate := stamp.day

/-- `_rebuild_order_request_from_existing`, for an ACK_UNKNOWN order: the record, but for the prices
of the call where it has some. -/
def rebuildOrderRequestFromExisting (existing : StoredOrder) (riskDecisionId : String)
    (limitPrice stopPrice : Option JsonFloat) (takeProfit expiresAt : Json) : OrderRequest where
  orderId := existing.orderId
  signalId := existing.signalId
  riskDecisionId := if riskDecisionId ≠ "" then riskDecisionId else existing.riskDecisionId
  symbol := existing.symbol
  market := existing.market
  side := existing.side
  orderType := existing.orderType
  quantity := existing.quantity
  limitPrice := limitPrice.or existing.limitPrice
  stopPrice := stopPrice.or existing.stopPrice
  productType := existing.productType
  metadata := renewedMetadata c existing takeProfit expiresAt
  createdAt := stamp.iso
  tradeDate := stamp.day

/-- `_place_pending_protective_order`: a child without a stop or a parent is only logged. -/
def placePendingProtectiveOrder (o : StoredOrder) : Option OrderRequest :=
  if (o.stopPrice.elim true fun x => x.le 0) || o.quantity.le 0 then none
  else if o.parentOrderId = "" && !(Json.field o.metadata "parent_order_id").truthy then none
  else
    some (attachBrokerIdempotency c {
      orderId := o.orderId
      signalId := o.signalId
      riskDecisionId := o.riskDecisionId
      symbol := o.symbol
      market := o.market
      side := o.side
      orderType := o.orderType
      quantity := o.quantity
      limitPrice := o.limitPrice
      stopPrice := o.stopPrice
      productType := o.productType
      metadata := o.metadata
      createdAt := stamp.iso
      tradeDate := stamp.day })

/-- `execute_approved_signal` past its refusals: the request handed to the broker, if any.
`existing` is what the index shows of the signal, which may be nothing yet. -/
def executeApprovedSignal (t : Table) (existing : Option StoredOrder) (newId : String)
    (a : Arguments) : Option OrderRequest :=
  match existing with
  | some o =>
    match o.status with
    | .pending => some (attachBrokerIdempotency c (retryRequest c stamp a o))
    | .ackUnknown => some (attachBrokerIdempotency c (rebuildOrderRequestFromExisting c stamp o
        a.riskDecisionId a.limitPrice a.stopPrice a.takeProfit a.expiresAt))
    | _ => none
  | none =>
    match submitOrder c stamp.iso t (entryRequest stamp newId a) with
    | some (_, true) => some (attachBrokerIdempotency c (entryRequest stamp newId a))
    | _ => none

def StoredOrder.isProtectiveOrder (o : StoredOrder) : Bool :=
  o.isProtective || (Json.field o.metadata "protective_type").truthy ||
    "SL-".toList.isPrefixOf o.orderId.toList

/-- The call of the reconciliation for a PENDING entry -/
def StoredOrder.arguments (o : StoredOrder) (expiresAt : Json) : Arguments where
  signalId := o.signalId
  riskDecisionId := o.riskDecisionId
  symbol := o.symbol
  side := o.side
  quantity := o.quantity
  orderType := o.orderType
  market := o.market
  limitPrice := o.limitPrice
  stopPrice := o.stopPrice
  productType := some o.productType
  takeProfit := Json.field o.metadata "take_profit"
  expiresAt

/-- The turn of an order in `_reconcile_state`, as it was listed -/
def reconcileOrder (t : Table) (existing : Option StoredOrder) (newId : String) (expiresAt : Json)
    (o : StoredOrder) : Option OrderRequest :=
  match o.status with
  | .ackUnknown => some (attachBrokerIdempotency c (rebuildOrderRequestFromExisting c stamp o
      o.riskDecisionId o.limitPrice o.stopPrice (Json.field o.metadata "take_profit") .null))
  | .pending =>
    if o.isProtectiveOrder then placePendingProtectiveOrder c stamp o
    else if o.signalId = "" ∨ o.riskDecisionId = "" then none
    else executeApprovedSignal c stamp t existing newId (o.arguments expiresAt)
  | _ => none

end Requests

section Recovery

/-- A request for the order that was built first, as far as a broker can tell. -/
structure SameOrder (q order : OrderRequest) : Prop where
  orderId : q.orderId = order.orderId
  key : q.key = order.key
  symbol : q.symbol = order.symbol
  market : q.market = order.market
  side : q.side = order.side
  quantity : q.quantity = order.quantity
  orderType : q.orderType = order.orderType
  limitPrice : q.limitPrice = order.limitPrice
  stopPrice : q.stopPrice = order.stopPrice
  productType : q.productType = order.productType

/-- The call from which an entry was built -/
structure BuiltFrom (a : Arguments) (order : OrderRequest) : Prop where
  signalId : order.signalId = a.signalId
  symbol : order.symbol = a.symbol
  market : order.market = a.market
  side : order.side = a.side
  quantity : order.quantity = a.quantity
  orderType : order.orderType = a.orderType
  limitPrice : order.limitPrice = a.limitPrice
  stopPrice : order.stopPrice = a.stopPrice
  productType : order.productType = a.productType.getD (defaultProduct a.market)

variable {c : Codec} {stamp : Stamp} {order q : OrderRequest} {child : Option Child}
  {o : StoredOrder} {t : Table} {a : Arguments}

theorem builtFrom_entryRequest (orderId : String) :
    BuiltFrom a (entryRequest stamp orderId a) := ⟨rfl, rfl, rfl, rfl, rfl, rfl, rfl, rfl, rfl⟩

/-- A request that has a key keeps it. -/
theorem attach_of_truthy (h : order.key.truthy = true) :
    attachBrokerIdempotency c order = order := by
  rw [attachBrokerIdempotency, if_pos h]

theorem attach_key_truthy : (attachBrokerIdempotency c order).key.truthy = true := by
  rw [attachBrokerIdempotency]
  split
  · next h => exact h
  · rw [OrderRequest.key, Json.field_set_self, Json.truthy_string, brokerIdempotencyKey]
    simp

theorem BuiltFrom.attach (h : BuiltFrom a order) :
    BuiltFrom a (attachBrokerIdempotency c order) := by
  rw [attachBrokerIdempotency]
  split
  · exact h
  · exact ⟨h.signalId, h.symbol, h.market, h.side, h.quantity, h.orderType, h.limitPrice,
      h.stopPrice, h.productType⟩

section Decoded
variable (h : Decodes c order child o) (hkey : order.key.truthy = true)
include h hkey

/-- The record has a key, which the rebuilt metadata takes over. -/
theorem key_renewed (takeProfit expiresAt : Json) :
    Json.field (renewedMetadata c o takeProfit expiresAt) keyName = order.key := by
  have hne : o.brokerIdempotencyKey ≠ "" := by
    rw [h.key, Json.truthy_string] at hkey
    exact hkey
  rw [renewedMetadata, Json.field_set_self, keyOrNew, if_pos hne, h.key]

theorem same_retryRequest (ha : BuiltFrom a order) :
    SameOrder (attachBrokerIdempotency c (retryRequest c stamp a o)) order := by
  have hq : (retryRequest c stamp a o).key = order.key := key_renewed h hkey _ _
  rw [attach_of_truthy (by rw [hq]; exact hkey)]
  refine ⟨h.orderId, hq, ha.symbol.symm, ha.market.symm, ha.side.symm, ha.quantity.symm,
    ha.orderType.symm, ha.limitPrice.symm, ha.stopPrice.symm, ?_⟩
  rw [ha.productType]
  change a.productType.getD o.productType = _
  rw [h.productType, ha.productType]
  cases a.productType <;> rfl

theorem same_rebuilt {riskDecisionId : String} {limitPrice stopPrice : Option JsonFloat}
    {takeProfit expiresAt : Json} (hlimit : limitPrice = order.limitPrice)
    (hstop : stopPrice = order.stopPrice) :
    SameOrder (attachBrokerIdempotency c (rebuildOrderRequestFromExisting c stamp o riskDecisionId
      limitPrice stopPrice takeProfit expiresAt)) order := by
  have hq : (rebuildOrderRequestFromExisting c stamp o riskDecisionId limitPrice stopPrice
      takeProfit expiresAt).key = order.key := key_renewed h hkey _ _
  rw [attach_of_truthy (by rw [hq]; exact hkey)]
  refine ⟨h.orderId, hq, h.symbol, h.market, h.side, h.quantity, h.orderType, ?_, ?_,
    h.productType⟩
  · change limitPrice.or o.limitPrice = _
    rw [hlimit, h.limitPrice, Option.or_self]
  · change stopPrice.or o.stopPrice = _
    rw [hstop, h.stopPrice, Option.or_self]

theorem same_placePending (hq : q ∈ placePendingProtectiveOrder c stamp o) : SameOrder q order := by
  rw [placePendingProtectiveOrder] at hq
  split at hq
  · cases hq
  split at hq
  · cases hq
  cases hq
  have hfield : Json.field o.metadata keyName = order.key := by
    rw [h.metadata]
    rfl
  rw [attach_of_truthy (by rw [OrderRequest.key, hfield]; exact hkey)]
  exact ⟨h.orderId, hfield, h.symbol, h.market, h.side, h.quantity, h.orderType, h.limitPrice,
    h.stopPrice, h.productType⟩

end Decoded

/-- A call for the entry, with its record as the index shows it, or without. -/
theorem same_execute {existing : Option StoredOrder} {newId : String}
    (hexisting : ∀ o ∈ existing, Decodes c order child o) (hkey : order.key.truthy = true)
    (ha : BuiltFrom a order) (hlock : t.get (lockPk order.signalId) ≠ none)
    (hq : q ∈ executeApprovedSignal c stamp t existing newId a) : SameOrder q order := by
  cases existing with
  | some o =>
    have h := hexisting o rfl
    simp only [executeApprovedSignal] at hq
    split at hq
    · cases hq
      exact same_retryRequest h hkey ha
    · cases hq
      exact same_rebuilt h hkey ha.limitPrice.symm ha.stopPrice.symm
    · cases hq
  | none =>
    -- the reservation of the signal refuses a second order
    have hsignal : (attachBrokerIdempotency c (entryRequest stamp newId a)).signalId =
        order.signalId := by
      rw [attach_signalId, ha.signalId]
      rfl
    have htaken : (t.get (lockPk order.signalId)).isNone = false := by
      rw [Option.isNone_eq_false_iff, Option.isSome_iff_ne_none]
      exact hlock
    simp only [executeApprovedSignal, submitOrder, hsignal, htaken, Bool.and_false,
      Bool.false_eq_true, if_false] at hq
    cases hitem : orderItem c stamp.iso none
        (attachBrokerIdempotency c (entryRequest stamp newId a)) <;> simp [hitem] at hq

theorem Decodes.builtFrom (h : Decodes c order child o) (expiresAt : Json) :
    BuiltFrom (o.arguments expiresAt) order :=
  ⟨h.signalId.symm, h.symbol.symm, h.market.symm, h.side.symm, h.quantity.symm, h.orderType.symm,
    h.limitPrice.symm, h.stopPrice.symm, h.productType.symm⟩

/-- The turn of the order in the reconciliation -/
theorem same_reconcile {existing : Option StoredOrder} {newId : String} {expiresAt : Json}
    (h : Decodes c order child o) (hexisting : ∀ o ∈ existing, Decodes c order child o)
    (hkey : order.key.truthy = true)
    (hlock : child = none → t.get (lockPk order.signalId) ≠ none)
    (hq : q ∈ reconcileOrder c stamp t existing newId expiresAt o) : SameOrder q order := by
  rw [reconcileOrder] at hq
  split at hq
  · cases hq
    exact same_rebuilt h hkey h.limitPrice h.stopPrice
  · split at hq
    · exact same_placePending h hkey hq
    · next hentry =>
      split at hq
      · cases hq
      · have hchild : child = none := by
          cases child with
          | none => rfl
          | some ch =>
            have hprotective : o.isProtective = true := h.isProtective
            simp [StoredOrder.isProtectiveOrder, hprotective] at hentry
        exact same_execute hexisting hkey (h.builtFrom expiresAt) (hlock hchild) hq
  · cases hq

/-- `get_stored_order` -/
def readOrder (c : Codec) (t : Table) (orderId : String) : Option StoredOrder :=
  (t.get (orderPk orderId)).bind fun row => unmarshalItem c row.item

/-- What the recovery makes of an order: it lists the record after some writes and looks it up after
more of them, if the index shows it. -/
structure Replays (c : Codec) (order : OrderRequest) (child : Option Child) (listed found : Table) :
    Prop where
  decoded : ∃ o, readOrder c listed order.orderId = some o ∧ Decodes c order child o
  reconciled : ∀ stamp newId expiresAt o existing q, readOrder c listed order.orderId = some o →
    (existing = none ∨ existing = readOrder c found order.orderId) →
    q ∈ reconcileOrder c stamp found existing newId expiresAt o → SameOrder q order
  redelivered : child = none → ∀ stamp newId a existing q, BuiltFrom a order →
    (existing = none ∨ existing = readOrder c found order.orderId) →
    q ∈ executeApprovedSignal c stamp found existing newId a → SameOrder q order

theorem Kept.read {item : Item} {lock : Option String} (h : Kept c order.orderId item lock t)
    (hitem : orderItem c stamp.iso child order = some item) :
    ∃ o, readOrder c t order.orderId = some o ∧ Decodes c order child o := by
  obtain ⟨row, hrow, hversion⟩ := h.row
  obtain ⟨o, ho, hdecodes⟩ := unmarshal_version hitem hversion
  exact ⟨o, by rw [readOrder, hrow]; exact ho, hdecodes⟩

/-- A record that is kept replays, whatever is written to the table. -/
theorem Kept.replays {item : Item} (h : Kept c order.orderId item (lockOf order child) t)
    (hitem : orderItem c stamp.iso child order = some item) (hkey : order.key.truthy = true)
    (before after : List Write) :
    Replays c order child (before.foldl (write c) t) ((before ++ after).foldl (write c) t) := by
  have hlisted := (h.run before).read hitem
  have hfound := (h.run (before ++ after)).read hitem
  generalize before.foldl (write c) t = listed at hlisted ⊢
  have hlater := h.run (before ++ after)
  generalize (before ++ after).foldl (write c) t = found at hfound hlater ⊢
  have hlock (hchild : child = none) : found.get (lockPk order.signalId) ≠ none :=
    hlater.lock _ (by rw [hchild]; rfl)
  have hexisting (existing : Option StoredOrder)
      (hshown : existing = none ∨ existing = readOrder c found order.orderId) :
      ∀ o ∈ existing, Decodes c order child o := by
    obtain ⟨o', ho', hdecodes⟩ := hfound
    obtain rfl | rfl := hshown
    · exact fun o ho => nomatch ho
    · rw [ho']
      rintro o ho
      cases ho
      exact hdecodes
  refine ⟨hlisted, ?_, ?_⟩
  · intro stamp newId expiresAt o existing q ho hshown hq
    have hdecodes : Decodes c order child o := by
      obtain ⟨o', ho', hdecodes⟩ := hlisted
      cases ho'.symm.trans ho
      exact hdecodes
    have hindex := hexisting existing hshown
    exact same_reconcile hdecodes hindex hkey hlock hq
  · intro hchild stamp newId a existing q ha hshown hq
    exact same_execute (hexisting existing hshown) hkey ha (hlock hchild) hq

def marketKey : String := "QE2352da7280f1decc3a"

def marketMetadata : Metadata := [(Text.of "take_profit", .null), (Text.of "expires_at", .null),
  (Text.of keyName, .string marketKey)]

def marketText : String :=
  "\x7b\"take_profit\": null, \"expires_at\": null, " ++
    "\"broker_idempotency_key\": \"QE2352da7280f1decc3a\"\x7d"

/-- The texts that the record of one market order has -/
def marketCodec : Codec where
  sha256 _ := "2352da7280f1decc3acf1ba84eb945c9fc2b7b541094e1d0992dbffd1b6664cc"
  dumps
    | [(takeProfit, .null), (expiresAt, .null), (name, .text key)] =>
      if takeProfit = Text.of "take_profit" ∧ expiresAt = Text.of "expires_at" ∧
        name = Text.of keyName ∧ key = Text.of marketKey then some marketText else none
    | _ => none
  loads text := if text = marketText then some (.dict marketMetadata) else none
  loads_dumps m text h := by
    split at h
    · split at h
      · next hkeys =>
        obtain ⟨rfl, rfl, rfl, rfl⟩ := hkeys
        cases h
        rfl
      · cases h
    · cases h
  number
    | .finite q => if q = 5 then some "5" else if q = 0 then some "0" else none
    | _ => none
  floatOfText text :=
    if text = "5" then some (.finite 5) else if text = "0" then some (.finite 0) else none
  floatOfText_number x text h := by
    split at h
    · split at h
      · next hfive =>
        cases h
        rw [hfive]
        rfl
      · split at h
        · next hzero =>
          cases h
          rw [hzero]
          rfl
        · cases h
    · cases h
  floatOfText_zero := rfl

def marketOrder : OrderRequest :=
  entryRequest ⟨"2026-01-05T04:00:00+00:00", "2026-01-05"⟩ "o1"
    { signalId := "s1", riskDecisionId := "r1", symbol := "INFY", side := .buy
      quantity := .finite 5, orderType := .market, market := .nse }

def unanswered : Write := .status "o1" "2026-01-05T04:00:02+00:00"
  { newStatus := .ackUnknown, brokerOrderState := some "ACK_UNKNOWN" }

end Recovery

end QuantEmbrace.OrderRecord
