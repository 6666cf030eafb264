import QuantEmbrace.Lib.KeyedTable
import QuantEmbrace.OrderRecord

/-! The table of the orders: the reservation of an order, and what the later writes leave of its
record. -/
namespace QuantEmbrace.OrderRecord
open DynamoItem PythonValue

structure Row where
  pk : String
  item : Item
  deriving DecidableEq, Repr

abbrev Table : Type := KeyedTable Row.pk

def orderPk (orderId : String) : String := "ORDER#" ++ orderId

def lockPk (signalId : String) : String := "SIGNAL#" ++ signalId

section Writes
variable (c : Codec) (now : String)

/-- `submit_order`: true if the order and the reservation of its signal were written, false if one
of the two was there; `none` where the request cannot be written. -/
def submitOrder (t : Table) (order : OrderRequest) : Option (Table × Bool) := do
  let order := attachBrokerIdempotency c order
  let item ← orderItem c now none order
  if (t.get (orderPk order.orderId)).isNone && (t.get (lockPk order.signalId)).isNone then
    return ((t.putNew ⟨orderPk order.orderId, item⟩).putNew
      ⟨lockPk order.signalId, [("order_id", .s order.orderId), ("created_at", .s now)]⟩, true)
  return (t, false)

/-- `submit_child_order`, which reserves no signal -/
def submitChildOrder (t : Table) (child : Child) (order : OrderRequest) :
    Option (Table × Bool) := do
  let order := attachBrokerIdempotency c order
  let item ← orderItem c now (some child) order
  if (t.get (orderPk order.orderId)).isNone then
    return (t.putNew ⟨orderPk order.orderId, item⟩, true)
  return (t, false)

/-- The values of `_transition_order_status` -/
structure StatusUpdate where
  newStatus : OrderStatus
  filledQuantity : JsonFloat := .finite 0
  averagePrice : JsonFloat := .finite 0
  slippage : JsonFloat := .finite 0
  brokerMessage : String := ""
  brokerOrderId : Option String := none
  brokerOrderState : Option String := none
  outboxStatus : Option String := none
  brokerSubmitted : Bool := false

def optionalText (name : String) (text : Option String) : Item :=
  text.elim [] fun t => [(name, .s t)]

def StatusUpdate.item (u : StatusUpdate) : Option Item := do
  let filledQuantity ← c.number u.filledQuantity
  let averagePrice ← c.number u.averagePrice
  let slippage ← c.number u.slippage
  return [
    ("order_status", .s (statusValue u.newStatus)),
    ("filled_quantity", .n filledQuantity),
    ("avg_fill_price", .n averagePrice),
    ("slippage", .n slippage),
    ("broker_message", .s u.brokerMessage),
    ("updated_at", .s now)]
    ++ (optionalText "broker_order_id" u.brokerOrderId
    ++ (optionalText "broker_order_state" u.brokerOrderState
    ++ (optionalText "outbox_status" u.outboxStatus
    ++ optionalText "broker_submitted_at" (if u.brokerSubmitted then some now else none))))

/-- `link_protective_child`, on the row of the parent -/
def linkItem (childOrderId childBrokerOrderId protectiveType protectedQuantity : String) : Item := [
  ("protective_stop_order_id", .s childOrderId),
  ("protective_stop_broker_order_id", .s childBrokerOrderId),
  ("protective_type", .s protectiveType),
  ("protected_quantity", .n protectedQuantity),
  ("updated_at", .s now)]

/-- `mark_protection_failed`; the two identifiers are left out where they are empty. -/
def protectionFailedItem (reason flattenOrderId flattenBrokerOrderId : String) : Item := [
  ("protection_status", .s "PROTECTION_FAILED"),
  ("protection_failed_at", .s now),
  ("protection_failure_reason", .s (String.ofList (reason.toList.take 1000))),
  ("updated_at", .s now)]
  ++ (optionalText "emergency_flatten_order_id"
    (if flattenOrderId = "" then none else some flattenOrderId)
  ++ optionalText "emergency_flatten_broker_order_id"
    (if flattenBrokerOrderId = "" then none else some flattenBrokerOrderId))

/-- The writes to the table of the orders. A put is made on the condition that its row is not
there. -/
inductive Write where
  | put (row : Row)
  | status (orderId now : String) (u : StatusUpdate)
  | link (parentOrderId now childOrderId childBrokerOrderId protectiveType quantity : String)
  | protectionFailed (parentOrderId now reason flattenOrderId flattenBrokerOrderId : String)

def updateItem (pk : String) (assignments : Item) (t : Table) : Table :=
  t.put ⟨pk, Item.set ((t.get pk).elim [] Row.item) assignments⟩

def write (t : Table) : Write → Table
  | .put row => t.putNew row
  -- without its row the transition is refused
  | .status orderId now u =>
    match t.get (orderPk orderId), u.item c now with
    | some _, some assignments => updateItem (orderPk orderId) assignments t
    | _, _ => t
  | .link parent now child brokerChild protectiveType quantity =>
    updateItem (orderPk parent) (linkItem now child brokerChild protectiveType quantity) t
  | .protectionFailed parent now reason flatten flattenBroker =>
    updateItem (orderPk parent) (protectionFailedItem now reason flatten flattenBroker) t

end Writes

section Versions
variable {c : Codec} {now : String} {item row assignments : Item}

/-- The attributes of the status that are read back -/
def statusNames : List String := ["order_status", "filled_quantity", "avg_fill_price"]

/-- None of the attributes is assigned. -/
def Avoids (names : List String) (assignments : Item) : Prop := ∀ a ∈ assignments, a.1 ∉ names

variable {names : List String}

theorem avoids_optionalText {name : String} (h : name ∉ names) (text : Option String) :
    Avoids names (optionalText name text) := by
  cases text with
  | none => exact nofun
  | some t => simpa [Avoids, optionalText] using h

theorem Avoids.append {xs ys : Item} (hx : Avoids names xs) (hy : Avoids names ys) :
    Avoids names (xs ++ ys) := fun a ha => (List.mem_append.mp ha).elim (hx a) (hy a)

theorem Avoids.lookup (h : Avoids names assignments) {name : String} (hname : name ∈ names) :
    assignments.lookup name = none := by
  apply Item.lookup_eq_none_of_not_mem
  intro hmem
  obtain ⟨a, ha, rfl⟩ := List.mem_map.mp hmem
  exact h a ha hname

theorem avoids_linkItem (child brokerChild protectiveType quantity : String) :
    Avoids (requestNames ++ statusNames)
      (linkItem now child brokerChild protectiveType quantity) := by
  simp only [Avoids, linkItem, List.forall_mem_cons, List.not_mem_nil, false_imp_iff,
    implies_true, and_true]
  decide

theorem avoids_protectionFailedItem (reason flatten flattenBroker : String) :
    Avoids (requestNames ++ statusNames)
      (protectionFailedItem now reason flatten flattenBroker) := by
  refine Avoids.append ?_
    ((avoids_optionalText (by decide) _).append (avoids_optionalText (by decide) _))
  simp only [Avoids, List.forall_mem_cons, List.not_mem_nil, false_imp_iff, implies_true, and_true]
  decide

theorem Version.set (hv : Version c item row) (hrequest : Avoids requestNames assignments)
    (hstatus : ∀ v, assignments.lookup "order_status" = some v → ∃ s, v = .s (statusValue s))
    (hnumber : ∀ name ∈ ["filled_quantity", "avg_fill_price"], ∀ v,
      assignments.lookup name = some v → ∃ x text, v = .n text ∧ c.number x = some text) :
    Version c item (row.set assignments) := by
  have hfloat (name : String) (hname : name ∈ ["filled_quantity", "avg_fill_price"])
      (hold : (readFloat c row name).isSome) : (readFloat c (row.set assignments) name).isSome := by
    rw [readFloat, Item.number, Item.lookup_set]
    cases hlookup : assignments.lookup name with
    | none => exact hold
    | some v =>
      obtain ⟨x, text, rfl, htext⟩ := hnumber name hname v hlookup
      simp only [Option.some_or, c.floatOfText_number x text htext, Option.isSome_some]
  refine ⟨fun name hname => ?_, ?_, hfloat _ (by decide) hv.filled,
    hfloat _ (by decide) hv.average⟩
  · rw [Item.lookup_set, hrequest.lookup hname, Option.none_or]
    exact hv.request name hname
  · rw [Item.textD, Item.lookup_set]
    cases hlookup : assignments.lookup "order_status" with
    | none => exact hv.status
    | some v =>
      obtain ⟨s, rfl⟩ := hstatus v hlookup
      simp

theorem Version.transition (hv : Version c item row) {u : StatusUpdate}
    (hu : u.item c now = some assignments) : Version c item (row.set assignments) := by
  simp only [StatusUpdate.item, Option.bind_eq_bind, Option.bind_eq_some_iff, Option.pure_def,
    Option.some.injEq] at hu
  obtain ⟨filled, hfilled, average, haverage, slippage, -, rfl⟩ := hu
  refine hv.set ?_ ?_ ?_
  · refine Avoids.append ?_ ((avoids_optionalText (by decide) _).append
      ((avoids_optionalText (by decide) _).append
        ((avoids_optionalText (by decide) _).append (avoids_optionalText (by decide) _))))
    simp only [Avoids, List.forall_mem_cons, List.not_mem_nil, false_imp_iff, implies_true,
      and_true]
    decide
  · rintro v hv
    cases hv
    exact ⟨u.newStatus, rfl⟩
  · simp only [List.forall_mem_cons, List.not_mem_nil, false_imp_iff, implies_true, and_true]
    constructor
    · rintro v hv
      cases hv
      exact ⟨_, _, rfl, hfilled⟩
    · rintro v hv
      cases hv
      exact ⟨_, _, rfl, haverage⟩

/-- Marks on the row touch neither the request nor the status. -/
theorem Version.marked (hv : Version c item row)
    (h : Avoids (requestNames ++ statusNames) assignments) :
    Version c item (row.set assignments) := by
  have hnone {name : String} (hname : name ∈ statusNames) : assignments.lookup name = none :=
    h.lookup (List.mem_append_right _ hname)
  refine hv.set (fun a ha hname => h a ha (List.mem_append_left _ hname)) ?_ ?_
  · rintro v hv
    rw [hnone (by decide)] at hv
    cases hv
  · intro name hname v hv
    rw [hnone (List.mem_cons_of_mem _ hname)] at hv
    cases hv

end Versions

section Run
variable {c : Codec} {t : Table} {item : Item} {orderId signalId : String}

/-- The row of the order is a later version of the item, and its signal stays reserved. -/
structure Kept (c : Codec) (orderId : String) (item : Item) (lock : Option String) (t : Table) :
    Prop where
  row : ∃ row, t.get (orderPk orderId) = some row ∧ Version c item row.item
  lock : ∀ pk, lock = some pk → t.get pk ≠ none

theorem get_updateItem_self (pk : String) (assignments : Item) (t : Table) :
    (updateItem pk assignments t).get pk =
      some ⟨pk, Item.set ((t.get pk).elim [] Row.item) assignments⟩ :=
  t.get_put_self ⟨pk, _⟩

theorem get_updateItem_of_ne {pk pk' : String} (h : pk' ≠ pk) (assignments : Item) (t : Table) :
    (updateItem pk assignments t).get pk' = t.get pk' :=
  KeyedTable.get_put_of_ne h t

theorem get_updateItem_ne_none {pk pk' : String} {assignments : Item} (h : t.get pk' ≠ none) :
    (updateItem pk assignments t).get pk' ≠ none := by
  by_cases he : pk' = pk
  · subst he
    rw [get_updateItem_self]
    exact Option.some_ne_none _
  · rwa [get_updateItem_of_ne he]

variable {lock : Option String}

/-- An update of any row, with assignments that make a later version of this one. -/
theorem Kept.update (h : Kept c orderId item lock t) {pk : String} {assignments : Item}
    (hset : ∀ row, Version c item row → Version c item (row.set assignments)) :
    Kept c orderId item lock (updateItem pk assignments t) := by
  obtain ⟨row, hrow, hversion⟩ := h.row
  refine ⟨?_, fun pk' hpk' => get_updateItem_ne_none (h.lock pk' hpk')⟩
  by_cases he : orderPk orderId = pk
  · subst he
    exact ⟨_, get_updateItem_self _ _ _, by rw [hrow]; exact hset _ hversion⟩
  · exact ⟨row, (get_updateItem_of_ne he _ _).trans hrow, hversion⟩

theorem Kept.step (h : Kept c orderId item lock t) (w : Write) :
    Kept c orderId item lock (write c t w) := by
  cases w with
  | put r =>
    obtain ⟨row, hrow, hversion⟩ := h.row
    have hstays {pk : String} {x : Row} (hx : t.get pk = some x) :
        (t.putNew r).get pk = some x := by
      by_cases he : pk = r.pk
      · subst he
        rw [KeyedTable.get_putNew_self, hx, Option.some_or]
      · rwa [KeyedTable.get_putNew_of_ne he]
    refine ⟨⟨row, hstays hrow, hversion⟩, fun pk hpk => ?_⟩
    obtain ⟨x, hx⟩ := Option.ne_none_iff_exists'.mp (h.lock pk hpk)
    rw [write, hstays hx]
    exact Option.some_ne_none x
  | status id now u =>
    rw [write]
    split
    · next assignments _ hu => exact h.update fun _ hv => hv.transition hu
    · exact h
  | link parent now child brokerChild protectiveType quantity =>
    exact h.update fun _ hv => hv.marked (avoids_linkItem _ _ _ _)
  | protectionFailed parent now reason flatten flattenBroker =>
    exact h.update fun _ hv => hv.marked (avoids_protectionFailedItem _ _ _)

/-- Whatever is written after it, the record stays one of the request. -/
theorem Kept.run (h : Kept c orderId item lock t) (ws : List Write) :
    Kept c orderId item lock (ws.foldl (write c) t) := by
  induction ws generalizing t with
  | nil => exact h
  | cons w ws ih => exact ih (h.step w)

end Run

section Reservation
variable {c : Codec} {now : String} {t t' : Table} {order : OrderRequest}

/-- The order was reserved, as an entry or as the child of one. -/
inductive Reserved (c : Codec) (now : String) (t : Table) (order : OrderRequest) :
    Option Child → Table → Prop
  | entry {t' : Table} : submitOrder c now t order = some (t', true) →
      Reserved c now t order none t'
  | child {t' : Table} {child : Child} : submitChildOrder c now t child order = some (t', true) →
      Reserved c now t order (some child) t'

theorem attach_orderId : (attachBrokerIdempotency c order).orderId = order.orderId := by
  rw [attachBrokerIdempotency]
  split <;> rfl

theorem attach_signalId : (attachBrokerIdempotency c order).signalId = order.signalId := by
  rw [attachBrokerIdempotency]
  split <;> rfl

theorem orderPk_ne_lockPk (orderId signalId : String) : orderPk orderId ≠ lockPk signalId := by
  intro h
  have hchars : "ORDER#" ++ orderId = "SIGNAL#" ++ signalId := h
  simpa using congrArg String.toList hchars

/-- The reservation that goes with a record -/
def lockOf (order : OrderRequest) (child : Option Child) : Option String :=
  if child.isSome then none else some (lockPk order.signalId)

theorem Reserved.kept {child : Option Child} (h : Reserved c now t order child t') :
    ∃ item, orderItem c now child (attachBrokerIdempotency c order) = some item ∧
      Kept c order.orderId item (lockOf order child) t' := by
  cases h with
  | entry h =>
    simp only [submitOrder, Option.bind_eq_bind, Option.bind_eq_some_iff] at h
    obtain ⟨item, hitem, h⟩ := h
    rw [attach_orderId, attach_signalId] at h
    refine ⟨item, hitem, ?_⟩
    split at h
    · next hfree =>
      cases h
      rw [Bool.and_eq_true, Option.isNone_iff_eq_none, Option.isNone_iff_eq_none] at hfree
      have hrow : (t.putNew ⟨orderPk order.orderId, item⟩).get (orderPk order.orderId) =
          some ⟨orderPk order.orderId, item⟩ := by
        have hput := t.get_putNew_self ⟨orderPk order.orderId, item⟩
        rwa [hfree.1, Option.none_or] at hput
      let lock : Row :=
        ⟨lockPk order.signalId, [("order_id", .s order.orderId), ("created_at", .s now)]⟩
      have hne : orderPk order.orderId ≠ lock.pk := orderPk_ne_lockPk _ _
      refine ⟨⟨⟨orderPk order.orderId, item⟩, (KeyedTable.get_putNew_of_ne hne _).trans hrow,
        version_self hitem⟩, fun pk hpk => ?_⟩
      cases hpk
      have hput := (t.putNew ⟨orderPk order.orderId, item⟩).get_putNew_self lock
      rw [show lock.pk = lockPk order.signalId from rfl] at hput
      rw [hput]
      intro hnone
      cases hlock : (t.putNew ⟨orderPk order.orderId, item⟩).get (lockPk order.signalId) <;>
        rw [hlock] at hnone <;> cases hnone
    · cases h
  | @child _ ch h =>
    simp only [submitChildOrder, Option.bind_eq_bind, Option.bind_eq_some_iff] at h
    obtain ⟨item, hitem, h⟩ := h
    rw [attach_orderId] at h
    refine ⟨item, hitem, ?_⟩
    split at h
    · next hfree =>
      cases h
      rw [Option.isNone_iff_eq_none] at hfree
      have hput := t.get_putNew_self ⟨orderPk order.orderId, item⟩
      rw [hfree, Option.none_or] at hput
      refine ⟨⟨⟨orderPk order.orderId, item⟩, hput, version_self hitem⟩, fun pk hpk => ?_⟩
      cases hpk
    · cases h

end Reservation

end QuantEmbrace.OrderRecord
