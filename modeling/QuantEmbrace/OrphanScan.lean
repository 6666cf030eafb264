import QuantEmbrace.PaperOrder
import QuantEmbrace.ProtectiveStop
import QuantEmbrace.Lib.KeyedTable
import Mathlib.Algebra.Order.BigOperators.Group.List

/-! The orphan detector over the orders table: the scan of `OrphanDetector._check_cycle`,
and the requests that lead to the tables it may see. -/
namespace QuantEmbrace
open OrderStatus (isValidStatusTransition)

/-- An item of the orders table with what `link_protective_child` writes on a parent. -/
structure OrderItem extends StoredOrder where
  protectiveStopOrderId : String := ""
  protectiveStopBrokerOrderId : String := ""
  protectedQuantity : ℚ := 0
  deriving DecidableEq, Repr

/-- The table has one item for each order id. -/
abbrev OrdersTable := KeyedTable fun o : OrderItem => o.orderId

namespace OrderItem

/-- The item `submit_order` puts. -/
def entry (o : StoredOrder) : OrderItem :=
  { o with parentOrderId := "", protectiveType := "", isProtective := false, row := .reserved }

/-- The item `submit_child_order` puts. -/
def child (o : StoredOrder) : OrderItem := { o with }

/-- An entry order in the eyes of the detector, paper orders left out. -/
def IsEntry (o : OrderItem) : Prop := o.isProtective = false ∧ ¬ StoredOrder.PaperId o.orderId

instance (o : OrderItem) : Decidable o.IsEntry := inferInstanceAs (Decidable (_ ∧ _))

/-- The parent a stored child names. -/
def parent (o : OrderItem) : String :=
  if o.parentOrderId ≠ "" then o.parentOrderId else o.metadata.parentOrderId

/-- A protective child of the order that may still act. -/
def Live (o : OrderItem) (orderId : String) : Prop :=
  o.isProtective = true ∧ o.parentOrderId = orderId ∧ ¬ o.row.status.Terminal

instance (o : OrderItem) (orderId : String) : Decidable (o.Live orderId) :=
  inferInstanceAs (Decidable (_ ∧ _ ∧ _))

end OrderItem

namespace OrdersTable

/-- `_transition_order_status`, when the write takes effect. -/
def writeStatus (t : OrdersTable) (orderId : String) (s : StatusWrite) : OrdersTable :=
  t.update orderId (fun o => { o with row := s.undisturbed o.row }) fun _ => rfl

def linkProtectiveChild (t : OrdersTable) (parentOrderId childOrderId childBrokerOrderId : String)
    (protectiveType : String) (protectedQuantity : ℚ) : OrdersTable :=
  t.update parentOrderId
    (fun o => { o with
      protectiveStopOrderId := childOrderId
      protectiveStopBrokerOrderId := childBrokerOrderId
      protectiveType := protectiveType
      protectedQuantity := o.protectedQuantity + protectedQuantity }) fun _ => rfl

def getOrdersByStatus (t : OrdersTable) (status : OrderStatus) : List OrderItem :=
  t.rows.filter (·.row.status = status)

/-- `_get_filled_entry_orders` -/
def getFilledEntryOrders (t : OrdersTable) : List OrderItem :=
  (t.getOrdersByStatus .filled).filter (·.IsEntry)

def classifyOrphan (t : OrdersTable) (order : OrderItem) : Option String :=
  let childId := order.protectiveStopOrderId
  if childId = "" then some "no_protective_stop_linked"
  else
    match t.get childId with
    | none => some s!"protective_stop_missing_from_dynamo child_id={childId}"
    | some child =>
      if child.row.status.Terminal then
        some s!"protective_stop_terminal status={child.row.status.value} child_id={childId}"
      else none

/-- The orphans one `_check_cycle` reports, each with its reason. -/
def checkCycle (t : OrdersTable) : List (OrderItem × String) :=
  t.getFilledEntryOrders.filterMap fun o => (t.classifyOrphan o).map (o, ·)

/-- What the live protective children of an order would close. -/
def liveQuantity (t : OrdersTable) (orderId : String) : ℚ :=
  ((t.rows.filter (·.Live orderId)).map fun c => c.quantity).sum

/-- What all protective children of an order were stored for. -/
def storedQuantity (t : OrdersTable) (orderId : String) : ℚ :=
  ((t.rows.filter fun c => c.isProtective ∧ c.parentOrderId = orderId).map fun c => c.quantity).sum

end OrdersTable

/-- Where a `_maybe_place_protective_stop` call that stored its child stands, or a
`_place_pending_protective_order` call for a child that is there. -/
inductive StopPhase where
  | placing
  | resumed
  | linking (brokerOrderId : String)
  | failed
  deriving DecidableEq, Repr

structure StopCall where
  parentOrderId : String
  fillId : String
  filledQuantity : ℚ
  phase : StopPhase
  deriving DecidableEq, Repr

/-- The table, the calls by the id of their child, and what the position was credited
with for each order. -/
structure OrphanWorld where
  orders : OrdersTable
  calls : String → Option StopCall
  credited : String → ℚ

inductive TableEvent where
  | submitOrder (o : StoredOrder)
  | writeStatus (orderId : String) (s : StatusWrite)
  | applyFill (orderId : String) (filledQuantity : ℚ)
  | createStop (orderId fillId : String) (stopPrice : Option ℚ) (filledQuantity : ℚ)
  | stopAnswered (childId : String) (r : OrderResponse) (written : Bool)
  | linkStop (childId : String)
  | resumeStop (childId : String)
  | stopFailed (childId : String) (written : Bool)
  | createFlatten (childId : String)
  | endCall (childId : String)

namespace OrphanWorld
variable (w : OrphanWorld)

def start : OrphanWorld := ⟨.empty, fun _ => none, fun _ => 0⟩

def setCall (childId : String) (c : Option StopCall) : OrphanWorld :=
  { w with calls := Function.update w.calls childId c }

/-- `_maybe_place_protective_stop` up to `submit_child_order`; the stop price is the one of
the request, and a child that is there ends the call. -/
def createStop (orderId fillId : String) (stopPrice : Option ℚ) (q : ℚ) : OrphanWorld :=
  match w.orders.get orderId with
  | none => w
  | some parent =>
    let parent : StoredOrder := { parent.toStoredOrder with stopPrice }
    let stop := protectiveStop parent fillId q
    if ¬ parent.WantsStop ∨ q ≤ 0 ∨ w.orders.get stop.orderId ≠ none then w
    else { w with orders := w.orders.putNew (.child stop) }.setCall stop.orderId
      (some ⟨orderId, fillId, q, .placing⟩)

/-- A response and its `record_order`, which raises for a change that is not in the table
of transitions. -/
def stopAnswered (childId : String) (r : OrderResponse) (written : Bool) : OrphanWorld :=
  match w.calls childId, w.orders.get childId with
  | some call, some child =>
    if call.phase ≠ .placing ∧ call.phase ≠ .resumed then w
    else if ¬ isValidStatusTransition child.row.status r.status then w.setCall childId none
    else
      -- the transition also answers true when another writer has set the status already
      let orders := if ¬ written ∧ child.row.status = r.status then w.orders
        else w.orders.writeStatus childId (recordOrder r)
      { w with orders }.setCall childId (some { call with phase := .linking r.brokerOrderId })
  | _, _ => w

def linkStop (childId : String) : OrphanWorld :=
  match w.calls childId with
  | some ⟨parentOrderId, _, q, .linking brokerOrderId⟩ =>
    let orders := w.orders.linkProtectiveChild parentOrderId childId brokerOrderId "STOP_LOSS" q
    { w with orders }.setCall childId none
  | _ => w

/-- `_place_pending_protective_order` up to its placement, whose failure has no other
effect. -/
def resumeStop (childId : String) : OrphanWorld :=
  match w.orders.get childId with
  | none => w
  | some order =>
    if order.row.status = .pending ∧ order.IsProtectiveOrder ∧ 0 < order.stopPrice.getD 0 ∧
        0 < order.quantity ∧ order.parent ≠ "" ∧ w.calls childId = none then
      w.setCall childId (some ⟨order.parent, "", order.quantity, .resumed⟩)
    else w

/-- `_handle_protective_stop_failure`, whose status write may not get through. -/
def stopFailed (childId : String) (written : Bool) : OrphanWorld :=
  match w.calls childId with
  | some call =>
    if call.phase ≠ .placing then w
    else
      let orders := if written then w.orders.writeStatus childId stopFailureWrite else w.orders
      { w with orders }.setCall childId (some { call with phase := .failed })
  | none => w

/-- `_place_emergency_flatten_order` up to `submit_child_order`. -/
def createFlatten (childId : String) : OrphanWorld :=
  match w.calls childId with
  | some ⟨parentOrderId, fillId, q, .failed⟩ =>
    match w.orders.get parentOrderId with
    | none => w
    | some parent =>
      let flatten := emergencyFlatten parent.toStoredOrder fillId q
      { w with orders := w.orders.putNew (.child flatten) }.setCall childId none
  | _ => w

def next (w : OrphanWorld) : TableEvent → OrphanWorld
  -- an entry that looks protective is not placed by `execute_approved_signal`
  | .submitOrder o =>
    if o.IsProtectiveOrder then w else { w with orders := w.orders.putNew (.entry o) }
  | .writeStatus orderId s => { w with orders := w.orders.writeStatus orderId s }
  | .applyFill orderId q =>
    if w.orders.get orderId = none ∨ q ≤ 0 then w
    else { w with credited := Function.update w.credited orderId (w.credited orderId + q) }
  | .createStop orderId fillId stopPrice q => w.createStop orderId fillId stopPrice q
  | .stopAnswered childId r written => w.stopAnswered childId r written
  | .linkStop childId => w.linkStop childId
  | .resumeStop childId => w.resumeStop childId
  | .stopFailed childId written => w.stopFailed childId written
  | .createFlatten childId => w.createFlatten childId
  | .endCall childId => w.setCall childId none

end OrphanWorld

/-- A child that `_maybe_place_protective_stop` stored for a fill of the order. -/
def OrderItem.IsStopOf (c : OrderItem) (orderId : String) : Prop :=
  c.isProtective = true ∧ c.parentOrderId = orderId ∧ 0 < c.quantity ∧
    ∃ fillId, c.orderId = "SL-" ++ orderId ++ "-" ++ fillId

/-- A protective item closes something, and one with a stop price is such a stop. -/
def OrderItem.Stored (o : OrderItem) : Prop :=
  (o.isProtective = true → 0 < o.quantity) ∧
    (o.IsProtectiveOrder → 0 < o.stopPrice.getD 0 →
      o.IsStopOf o.parentOrderId ∧ o.metadata.parentOrderId = o.parentOrderId)

/-- What no update of an item touches. -/
def OrderItem.ident (o : OrderItem) : String × Bool × String × ℚ :=
  (o.orderId, o.isProtective, o.parentOrderId, o.quantity)

theorem OrderItem.IsStopOf.of_ident {c c' : OrderItem} {orderId : String}
    (h : c.IsStopOf orderId) (hi : c'.ident = c.ident) : c'.IsStopOf orderId := by
  simp only [OrderItem.ident, Prod.mk.injEq] at hi
  obtain ⟨hid, hprot, hparent, hq⟩ := hi
  rw [IsStopOf, hid, hprot, hparent, hq]
  exact h

namespace OrdersTable
variable {t t' : OrdersTable} {orderId childId : String}

def HasStop (t : OrdersTable) (orderId childId : String) : Prop :=
  ∃ c ∈ t.rows, c.orderId = childId ∧ c.IsStopOf orderId

/-- The items of a table are in the other, whatever updates they went through. -/
def Keeps (t t' : OrdersTable) : Prop := ∀ o ∈ t.rows, ∃ o' ∈ t'.rows, o'.ident = o.ident

theorem HasStop.mono (h : t.HasStop orderId childId) (hk : t.Keeps t') :
    t'.HasStop orderId childId := by
  obtain ⟨c, hc, hid, hstop⟩ := h
  obtain ⟨c', hc', hi⟩ := hk c hc
  refine ⟨c', hc', ?_, hstop.of_ident hi⟩
  rw [← hid]
  exact congrArg Prod.fst hi

theorem keeps_putNew (o : OrderItem) : t.Keeps (t.putNew o) := fun o' ho' =>
  ⟨o', KeyedTable.mem_putNew_of_mem ho' o, rfl⟩

theorem keeps_update {f : OrderItem → OrderItem} {hf : ∀ o, (f o).orderId = o.orderId}
    (hi : ∀ o, (f o).ident = o.ident) : t.Keeps (t.update orderId f hf) := by
  intro o ho
  have hmem : o.ident ∈ (t.update orderId f hf).rows.map OrderItem.ident := by
    rw [show (t.update orderId f hf).rows.map OrderItem.ident = _ from
      KeyedTable.map_updateRows hi orderId t.rows]
    exact List.mem_map_of_mem ho
  exact List.mem_map.mp hmem

end OrdersTable

namespace OrphanWorld
variable {w : OrphanWorld}

/-- Whatever is linked, or about to be, is a stop stored for a fill of that order. -/
structure Sound (w : OrphanWorld) : Prop where
  items : ∀ o ∈ w.orders.rows, o.Stored
  links : ∀ o ∈ w.orders.rows, o.protectiveStopOrderId ≠ "" →
    w.orders.HasStop o.orderId o.protectiveStopOrderId
  calls : ∀ childId call, w.calls childId = some call →
    0 < call.filledQuantity ∧ w.orders.HasStop call.parentOrderId childId

theorem start_sound : start.Sound where
  items _ ho := absurd ho List.not_mem_nil
  links _ ho := absurd ho List.not_mem_nil
  calls _ _ hc := absurd hc (Option.some_ne_none _).symm

theorem Sound.setCall (h : w.Sound) {childId : String} {c : Option StopCall}
    (hc : ∀ call, c = some call →
      0 < call.filledQuantity ∧ w.orders.HasStop call.parentOrderId childId) :
    (w.setCall childId c).Sound where
  items := h.items
  links := h.links
  calls := (Function.forall_update_iff w.calls fun childId c => ∀ call, c = some call →
    0 < call.filledQuantity ∧ w.orders.HasStop call.parentOrderId childId).mpr
      ⟨hc, fun childId _ => h.calls childId⟩

theorem Sound.dropCall (h : w.Sound) (childId : String) : (w.setCall childId none).Sound :=
  h.setCall nofun

/-- A table that keeps the items, and whose rows and links are sound. -/
theorem Sound.setOrders (h : w.Sound) {t : OrdersTable} (hk : w.orders.Keeps t)
    (hrows : ∀ o ∈ t.rows, o.Stored ∧
      (o.protectiveStopOrderId ≠ "" → w.orders.HasStop o.orderId o.protectiveStopOrderId)) :
    Sound { w with orders := t } where
  items o ho := (hrows o ho).1
  links o ho hl := ((hrows o ho).2 hl).mono hk
  calls childId call hc :=
    have ⟨hq, hstop⟩ := h.calls childId call hc
    ⟨hq, hstop.mono hk⟩

theorem Sound.putNew (h : w.Sound) {o : OrderItem} (hstored : o.Stored)
    (hl : o.protectiveStopOrderId = "") : Sound { w with orders := w.orders.putNew o } := by
  refine h.setOrders (OrdersTable.keeps_putNew o) fun o' ho' => ?_
  obtain ho' | rfl := KeyedTable.mem_putNew ho'
  · exact ⟨h.items o' ho', h.links o' ho'⟩
  · exact ⟨hstored, fun hne => absurd hl hne⟩

theorem Sound.writeStatus (h : w.Sound) (orderId : String) (s : StatusWrite) :
    Sound { w with orders := w.orders.writeStatus orderId s } := by
  refine h.setOrders (OrdersTable.keeps_update fun _ => rfl) fun o ho => ?_
  obtain ⟨o', ho', rfl⟩ := KeyedTable.mem_update ho
  split
  · exact ⟨h.items o' ho', h.links o' ho'⟩
  · exact ⟨h.items o' ho', h.links o' ho'⟩

theorem Sound.link (h : w.Sound) {parentOrderId childId brokerOrderId ty : String} {q : ℚ}
    (hstop : w.orders.HasStop parentOrderId childId) :
    Sound { w with
      orders := w.orders.linkProtectiveChild parentOrderId childId brokerOrderId ty q } := by
  refine h.setOrders (OrdersTable.keeps_update fun _ => rfl) fun o ho => ?_
  obtain ⟨o', ho', rfl⟩ := KeyedTable.mem_update ho
  split
  · next hid => exact ⟨h.items o' ho', fun _ => hid ▸ hstop⟩
  · exact ⟨h.items o' ho', h.links o' ho'⟩

theorem Sound.createStop (h : w.Sound) (orderId fillId : String) (stopPrice : Option ℚ) (q : ℚ) :
    (w.createStop orderId fillId stopPrice q).Sound := by
  unfold OrphanWorld.createStop
  split
  · exact h
  · next parent hparent =>
    dsimp only
    split
    · exact h
    · next hno =>
      simp only [not_or, not_le, not_not] at hno
      obtain ⟨_, hq, hnew⟩ := hno
      obtain ⟨_, rfl⟩ := KeyedTable.get_eq_some_iff.mp hparent
      have hstored : (OrderItem.child (protectiveStop { parent with stopPrice } fillId q)).Stored :=
        ⟨fun _ => hq, fun _ _ => ⟨⟨rfl, rfl, hq, fillId, rfl⟩, rfl⟩⟩
      refine (h.putNew hstored rfl).setCall fun call hcall => ?_
      cases hcall
      exact ⟨hq, _, KeyedTable.mem_putNew_self hnew, rfl, rfl, rfl, hq, fillId, rfl⟩

theorem Sound.stopAnswered (h : w.Sound) (childId : String) (r : OrderResponse) (written : Bool) :
    (w.stopAnswered childId r written).Sound := by
  unfold OrphanWorld.stopAnswered
  split
  · next call child hcall hchild =>
    split
    · exact h
    · split
      · exact h.dropCall childId
      · dsimp only
        split
        · exact h.setCall fun _ hc => by cases hc; exact h.calls childId call hcall
        · have hw := h.writeStatus childId (recordOrder r)
          exact hw.setCall fun _ hc => by cases hc; exact hw.calls childId call hcall
  · exact h

theorem Sound.linkStop (h : w.Sound) (childId : String) : (w.linkStop childId).Sound := by
  unfold OrphanWorld.linkStop
  split
  · next hcall => exact (h.link (h.calls childId _ hcall).2).dropCall childId
  · exact h

theorem Sound.resumeStop (h : w.Sound) (childId : String) : (w.resumeStop childId).Sound := by
  unfold OrphanWorld.resumeStop
  split
  · exact h
  · next order horder =>
    obtain ⟨hmem, hid⟩ := KeyedTable.get_eq_some_iff.mp horder
    split
    · next hresumed =>
      obtain ⟨_, hprotective, hprice, hq, _, _⟩ := hresumed
      obtain ⟨hstop, hparent⟩ := (h.items order hmem).2 hprotective hprice
      refine h.setCall fun call hcall => ?_
      cases hcall
      rw [OrderItem.parent, hparent, ite_self]
      exact ⟨hq, order, hmem, hid, hstop⟩
    · exact h

theorem Sound.stopFailed (h : w.Sound) (childId : String) (written : Bool) :
    (w.stopFailed childId written).Sound := by
  unfold OrphanWorld.stopFailed
  split
  · next call hcall =>
    split
    · exact h
    · dsimp only
      split
      · have hw := h.writeStatus childId stopFailureWrite
        exact hw.setCall fun _ hc => by cases hc; exact hw.calls childId call hcall
      · exact h.setCall fun _ hc => by cases hc; exact h.calls childId call hcall
  · exact h

theorem Sound.createFlatten (h : w.Sound) (childId : String) :
    (w.createFlatten childId).Sound := by
  unfold OrphanWorld.createFlatten
  split
  · next hcall =>
    split
    · exact h
    · refine (h.putNew ⟨fun _ => (h.calls childId _ hcall).1, fun _ hprice => ?_⟩ rfl).dropCall
        childId
      exact absurd hprice (lt_irrefl (0 : ℚ))
  · exact h

theorem Sound.next (h : w.Sound) (ev : TableEvent) : (w.next ev).Sound := by
  cases ev with
  | submitOrder o =>
    rw [OrphanWorld.next]
    split
    · exact h
    · next hplain =>
      refine h.putNew ⟨nofun, fun hprotective _ => absurd ?_ hplain⟩ rfl
      exact Or.inr (hprotective.resolve_left nofun)
  | writeStatus orderId s => exact h.writeStatus orderId s
  | applyFill orderId q =>
    rw [OrphanWorld.next]
    split
    · exact h
    · exact ⟨h.items, h.links, h.calls⟩
  | createStop orderId fillId stopPrice q => exact h.createStop orderId fillId stopPrice q
  | stopAnswered childId r written => exact h.stopAnswered childId r written
  | linkStop childId => exact h.linkStop childId
  | resumeStop childId => exact h.resumeStop childId
  | stopFailed childId written => exact h.stopFailed childId written
  | createFlatten childId => exact h.createFlatten childId
  | endCall childId => exact h.dropCall childId

theorem Sound.run (h : w.Sound) (es : List TableEvent) : (es.foldl OrphanWorld.next w).Sound := by
  induction es generalizing w with
  | nil => exact h
  | cons ev es ih => exact ih (h.next ev)

end OrphanWorld

namespace OrdersTable
variable {t : OrdersTable} {e c : OrderItem} {orderId : String}

/-- The stop that is linked is in the table, belongs to the order, and is live. -/
def LinkedStopLive (t : OrdersTable) (e : OrderItem) : Prop :=
  ∃ c ∈ t.rows, c.orderId = e.protectiveStopOrderId ∧ c.IsStopOf e.orderId ∧
    ¬ c.row.status.Terminal ∧ c.quantity ≤ t.liveQuantity e.orderId

/-- No child but the linked one has ended. -/
def OthersLive (t : OrdersTable) (e : OrderItem) : Prop :=
  ∀ c ∈ t.rows, c.isProtective = true → c.parentOrderId = e.orderId →
    c.orderId ≠ e.protectiveStopOrderId → ¬ c.row.status.Terminal

theorem quantity_le_liveQuantity (hpos : ∀ o ∈ t.rows, o.isProtective = true → 0 < o.quantity)
    (hc : c ∈ t.rows) (hlive : c.Live orderId) : c.quantity ≤ t.liveQuantity orderId := by
  refine List.single_le_sum ?_ _ (List.mem_map_of_mem (List.mem_filter.mpr ⟨hc, by simpa⟩))
  intro q hq
  obtain ⟨o, ho, rfl⟩ := List.mem_map.mp hq
  obtain ⟨hmem, hl⟩ := List.mem_filter.mp ho
  exact (hpos o hmem (of_decide_eq_true hl).1).le

theorem liveQuantity_eq_stored (h : ∀ c ∈ t.rows, c.isProtective = true →
    c.parentOrderId = orderId → ¬ c.row.status.Terminal) :
    t.liveQuantity orderId = t.storedQuantity orderId := by
  have hfilter : t.rows.filter (·.Live orderId) =
      t.rows.filter fun c => c.isProtective ∧ c.parentOrderId = orderId := by
    refine List.filter_congr fun c hc => decide_eq_decide.mpr ?_
    exact ⟨fun hl => ⟨hl.1, hl.2.1⟩, fun ⟨hp, hpar⟩ => ⟨hp, hpar, h c hc hp hpar⟩⟩
  rw [liveQuantity, storedQuantity, hfilter]

/-- The detector has nothing to say of an order when its linked child is there and live. -/
theorem classifyOrphan_eq_none_iff : t.classifyOrphan e = none ↔ e.protectiveStopOrderId ≠ "" ∧
    ∃ c ∈ t.rows, c.orderId = e.protectiveStopOrderId ∧ ¬ c.row.status.Terminal := by
  unfold classifyOrphan
  by_cases hlink : e.protectiveStopOrderId = ""
  · simp [hlink]
  rw [if_neg hlink, and_iff_right hlink]
  cases hget : t.get e.protectiveStopOrderId with
  | none =>
    simp only [reduceCtorEq, false_iff, not_exists, not_and]
    intro c hc hid
    rw [KeyedTable.get_eq_some_iff.mpr ⟨hc, hid⟩] at hget
    cases hget
  | some child =>
    obtain ⟨hmem, hid⟩ := KeyedTable.get_eq_some_iff.mp hget
    dsimp only
    split
    · next hterm =>
      simp only [reduceCtorEq, false_iff, not_exists, not_and, not_not]
      intro c hc hcid
      rwa [KeyedTable.eq_of_key_eq hc hmem (hcid.trans hid.symm)]
    · next hlive => exact iff_of_true rfl ⟨child, hmem, hid, hlive⟩

theorem checkCycle_eq_nil_iff : t.checkCycle = [] ↔
    ∀ e ∈ t.rows, e.IsEntry → e.row.status = .filled → t.classifyOrphan e = none := by
  simp only [checkCycle, getFilledEntryOrders, getOrdersByStatus, List.filterMap_eq_nil_iff,
    Option.map_eq_none_iff, List.mem_filter, decide_eq_true_eq, and_imp]
  exact ⟨fun h e he hen hst => h e he hst hen, fun h e he hst hen => h e he hen hst⟩

end OrdersTable

namespace OrphanWorld
variable {w : OrphanWorld} {e : OrderItem}

theorem Sound.classifyOrphan_iff (h : w.Sound) (he : e ∈ w.orders.rows) :
    w.orders.classifyOrphan e = none ↔ w.orders.LinkedStopLive e := by
  rw [OrdersTable.classifyOrphan_eq_none_iff]
  constructor
  · rintro ⟨hlink, c, hc, hid, hlive⟩
    obtain ⟨c', hc', hid', hstop⟩ := h.links e he hlink
    obtain rfl := KeyedTable.eq_of_key_eq hc hc' (hid.trans hid'.symm)
    exact ⟨c, hc, hid, hstop, hlive,
      OrdersTable.quantity_le_liveQuantity (fun o ho => (h.items o ho).1) hc
        ⟨hstop.1, hstop.2.1, hlive⟩⟩
  · rintro ⟨c, hc, hid, hstop, hlive, _⟩
    obtain ⟨_, _, _, fillId, hsl⟩ := hstop
    refine ⟨fun hempty => ?_, c, hc, hid, hlive⟩
    rw [← hid, hsl] at hempty
    simp at hempty

/-- Silence of the detector protects the orders with this status. -/
def SilenceProtects (w : OrphanWorld) (status : OrderStatus) : Prop :=
  w.orders.checkCycle = [] → ∀ e ∈ w.orders.rows, e.IsEntry → e.row.status = status →
    0 < w.credited e.orderId → w.credited e.orderId ≤ w.orders.liveQuantity e.orderId

instance (w : OrphanWorld) (status : OrderStatus) : Decidable (w.SilenceProtects status) :=
  inferInstanceAs (Decidable (_ → ∀ e ∈ _, _))

/-- In every table that is reached, the detector is silent exactly when each entry that is
`FILLED` has its linked stop live; entries of another status, and children that are not
linked any more, are not looked at. -/
theorem silent_iff_linked_stops_live (es : List TableEvent) :
    let w := es.foldl next start
    (w.orders.checkCycle = [] ↔
      ∀ e ∈ w.orders.rows, e.IsEntry → e.row.status = .filled → w.orders.LinkedStopLive e) ∧
    (w.orders.checkCycle = [] →
      ∀ e ∈ w.orders.rows, e.IsEntry → e.row.status = .filled → w.orders.OthersLive e →
        w.credited e.orderId ≤ w.orders.storedQuantity e.orderId →
        w.credited e.orderId ≤ w.orders.liveQuantity e.orderId) := by
  intro w
  have h : w.Sound := start_sound.run es
  have hiff : w.orders.checkCycle = [] ↔
      ∀ e ∈ w.orders.rows, e.IsEntry → e.row.status = .filled → w.orders.LinkedStopLive e := by
    rw [OrdersTable.checkCycle_eq_nil_iff]
    exact forall₂_congr fun e he => by rw [h.classifyOrphan_iff he]
  refine ⟨hiff, fun hsilent e he hentry hfilled hothers hstored => ?_⟩
  obtain ⟨c, hc, hid, _, hlive, _⟩ := hiff.mp hsilent e he hentry hfilled
  rwa [OrdersTable.liveQuantity_eq_stored fun c' hc' hprot hparent => ?_]
  by_cases hlinked : c'.orderId = e.protectiveStopOrderId
  · rwa [KeyedTable.eq_of_key_eq hc' hc (hlinked.trans hid.symm)]
  · exact hothers c' hc' hprot hparent hlinked

/-- The stop of a first increment of 4 is placed, and cancelled by the broker. -/
def firstStopCancelled : List TableEvent :=
  [.submitOrder ProtectWorld.filledEntry,
    .writeStatus "O1" (recordOrder ⟨"K1", .partiallyFilled, 4, 100, ""⟩),
    .createStop "O1" "f1" (some 95) 4,
    .stopAnswered "SL-O1-f1" ⟨"K2", .placed, 0, 0, ""⟩ true,
    .linkStop "SL-O1-f1",
    .applyFill "O1" 4,
    .writeStatus "SL-O1-f1" (pollTerminalWrite .reserved ⟨.cancelled, 0, 0, ""⟩)]

/-- The rest fills, and its stop takes over the link. -/
def secondStopLinked : List TableEvent :=
  firstStopCancelled ++
    [.writeStatus "O1" (pollFillWrite ⟨.filled, 10, 100, ""⟩),
      .applyFill "O1" 6,
      .createStop "O1" "f2" (some 95) 6,
      .stopAnswered "SL-O1-f2" ⟨"K3", .placed, 0, 0, ""⟩ true,
      .linkStop "SL-O1-f2"]

/-- The rest of the entry is cancelled. -/
def restCancelled : List TableEvent :=
  firstStopCancelled ++
    [.writeStatus "O1" (pollTerminalWrite .reserved ⟨.cancelled, 4, 100, ""⟩)]

theorem silence_without_protection :
    (¬ ∀ es, (List.foldl next start es).SilenceProtects .partiallyFilled) ∧
    (¬ ∀ es, (List.foldl next start es).SilenceProtects .cancelled) ∧
    ¬ ∀ es, (List.foldl next start es).SilenceProtects .filled := by
  refine ⟨fun h => ?_, fun h => ?_, fun h => ?_⟩
  · exact absurd (h firstStopCancelled) (by decide +kernel)
  · exact absurd (h restCancelled) (by decide +kernel)
  · exact absurd (h secondStopLinked) (by decide +kernel)

end OrphanWorld
end QuantEmbrace
