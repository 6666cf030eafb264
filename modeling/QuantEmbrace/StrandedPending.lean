import QuantEmbrace.Reconciliation

/-! The PENDING rows a crash leaves behind, and which of them a startup reconciliation
with a broker that answers resolves. -/
namespace QuantEmbrace
open OrderStatus (isValidStatusTransition)

/-- Recorded with a broker order id, or in a terminal status. -/
def OrderRow.Resolved (row : OrderRow) : Prop :=
  row.status.Terminal ∨ row.brokerOrderId.getD "" ≠ ""

namespace StoredOrder

/-- Put by `submit_order` for an approved signal. -/
structure IsEntry (o : StoredOrder) : Prop where
  plain : ¬ o.IsProtectiveOrder
  signalId : o.signalId ≠ ""
  riskDecisionId : o.riskDecisionId ≠ ""

/-- Put by `_maybe_place_protective_stop`. -/
structure IsStopChild (o : StoredOrder) : Prop where
  isProtective : o.isProtective = true
  stopPrice : 0 < o.stopPrice.getD 0
  quantity : 0 < o.quantity
  parentOrderId : o.parentOrderId ≠ ""

/-- Put by `_place_emergency_flatten_order`: a market order. -/
structure IsFlattenChild (o : StoredOrder) : Prop where
  isProtective : o.isProtective = true
  stopPrice : o.stopPrice = none

def EngineWritten (o : StoredOrder) : Prop := o.IsEntry ∨ o.IsStopChild ∨ o.IsFlattenChild

def Expired (o : StoredOrder) (now : ℤ) : Prop := ∃ x, o.metadata.expiresAt = some x ∧ x < now

end StoredOrder

/-- An order the broker acknowledges has an id and one of the broker's statuses. -/
def Acknowledged (r : OrderResponse) : Prop := r.brokerOrderId ≠ "" ∧ r.status ≠ .flattening

/-- The broker answers about the order without an error; it may refuse it. -/
structure BrokerAnswers.WithoutError (b : BrokerAnswers) : Prop where
  found : ∃ o, b.found = .ok o ∧ ∀ r, o = some r → r.status ≠ .flattening
  placed : b.placed = .refused ∨ ∃ r, b.placed = .accepted r ∧ Acknowledged r

def PassEvent.IsActivation : PassEvent → Prop
  | .activate _ _ => True
  | .turn _ _ => False

section Row
variable {row : OrderRow} {w : StatusWrite}

theorem OrderRow.Resolved.undisturbed (row : OrderRow) (w : StatusWrite) (h : row.Resolved)
    (hw : ∀ id, w.brokerOrderId = some id → id ≠ "") : (w.undisturbed row).Resolved := by
  by_cases hv : isValidStatusTransition row.status w.newStatus = true
  · rw [StatusWrite.undisturbed_valid hv]
    obtain ht | hid := h
    · left
      rw [StatusWrite.set_status, ht.stays hv]
      exact ht
    · right
      cases hb : w.brokerOrderId with
      | none => simpa [StatusWrite.set, hb] using hid
      | some b => simpa [StatusWrite.set, hb] using hw b hb
  · rw [StatusWrite.undisturbed, if_neg hv]
    exact h

theorem undisturbed_resolved_of_pending (h : row.status = .pending) (hs : w.newStatus ≠ .flattening)
    (hw : w.newStatus.Terminal ∨ (w.brokerOrderId.getD "" ≠ "")) :
    (w.undisturbed row).Resolved := by
  have hv : isValidStatusTransition row.status w.newStatus = true := by
    rw [h]
    cases hn : w.newStatus <;> first | rfl | exact absurd hn hs
  rw [StatusWrite.undisturbed_valid hv]
  obtain ht | hid := hw
  · exact Or.inl ht
  · right
    cases hb : w.brokerOrderId with
    | none => simp [hb] at hid
    | some b => simpa [StatusWrite.set, hb] using hid

end Row

theorem BrokerAnswers.WithoutError.gives_id {b : BrokerAnswers} (hb : b.WithoutError)
    (r : OrderResponse) (h : b.Gives r) : r.brokerOrderId ≠ "" := by
  obtain h | h | h := h
  · exact (visible_eq_some h).2
  · obtain hp | ⟨r', hp, hack⟩ := hb.placed
    · cases hp.symm.trans h
    · cases hp.symm.trans h
      exact hack.1
  · exact (visible_eq_some h).2

section Turn
variable {o : StoredOrder} {row : OrderRow} {t : Turn} {killSwitch : Bool}

/-- A reserved row the broker is asked for is resolved by its answer. -/
theorem place_record_resolved {b : BrokerAnswers} {reason : String} (hb : b.WithoutError)
    (h : row.status = .pending) :
    (placeOrderWithBrokerIdempotency b reason o row).record.row.Resolved := by
  obtain ⟨f, hf, hstatus⟩ := hb.found
  have hrecord {calls : List BrokerCall} {r : OrderResponse} (hr : Acknowledged r) :
      (Attempt.record ⟨row, calls, some r⟩).row.Resolved :=
    undisturbed_resolved_of_pending h hr.2 (Or.inr hr.1)
  unfold placeOrderWithBrokerIdempotency
  rw [hf]
  cases hvis : visible (.ok f) with
  | some r =>
    obtain ⟨hok, hid⟩ := visible_eq_some hvis
    exact hrecord ⟨hid, hstatus r (Except.ok.inj hok)⟩
  | none =>
    obtain hp | ⟨r, hp, hack⟩ := hb.placed
    · rw [hp]
      exact undisturbed_resolved_of_pending h (by decide) (Or.inl (Or.inr (Or.inr rfl)))
    · rw [hp]
      exact hrecord hack

/-- A turn never loses a resolved order again. -/
theorem reconcile_resolved (hb : t.broker.WithoutError) (h : row.Resolved) :
    (reconcileOrder o row t killSwitch).row.Resolved :=
  reconcileOrder_keeps OrderRow.Resolved.undisturbed hb.gives_id h

theorem StoredOrder.IsStopChild.isProtectiveOrder (h : o.IsStopChild) : o.IsProtectiveOrder :=
  Or.inl h.isProtective

theorem StoredOrder.IsFlattenChild.isProtectiveOrder (h : o.IsFlattenChild) :
    o.IsProtectiveOrder :=
  Or.inl h.isProtective

theorem reconcile_stopChild (hs : o.row.status = .pending) (hk : o.IsStopChild)
    (hb : t.broker.WithoutError) (hrow : row.status = .pending) :
    (reconcileOrder o row t killSwitch).row.Resolved := by
  have hprice : ¬ (o.stopPrice.getD 0 ≤ 0 ∨ o.quantity ≤ 0) := by
    rintro (h | h)
    · exact absurd hk.stopPrice (not_lt.mpr h)
    · exact absurd hk.quantity (not_lt.mpr h)
  unfold reconcileOrder
  rw [hs]
  simp only [if_pos hk.isProtectiveOrder, placePendingProtectiveOrder, if_neg hprice]
  rw [if_neg fun h => hk.parentOrderId h.1]
  exact place_record_resolved hb hrow

/-- The stop price decides, and a flatten order has none. -/
theorem reconcile_flattenChild (hs : o.row.status = .pending) (hk : o.IsFlattenChild) :
    (reconcileOrder o row t killSwitch).row = row := by
  unfold reconcileOrder
  rw [hs]
  simp only [if_pos hk.isProtectiveOrder, placePendingProtectiveOrder]
  rw [if_pos (Or.inl (by simp [hk.stopPrice]))]

theorem reconcile_entry (hs : o.row.status = .pending) (hk : o.IsEntry) :
    reconcileOrder o row t killSwitch = executeApprovedSignal o row t killSwitch := by
  have hids : ¬ (o.signalId = "" ∨ o.riskDecisionId = "") := by
    rintro (h | h)
    · exact hk.signalId h
    · exact hk.riskDecisionId h
  unfold reconcileOrder
  rw [hs]
  simp only [if_neg hk.plain, if_neg hids]

/-- What lets the retry of an entry through to the broker. -/
def StoredOrder.Retryable (o : StoredOrder) (t : Turn) (killSwitch : Bool) : Prop :=
  ¬ o.Expired t.now ∧ killSwitch = false ∧ t.approved = true

theorem execute_retryable (hr : o.Retryable t killSwitch) (hb : t.broker.WithoutError)
    (hrow : row.status = .pending) :
    (executeApprovedSignal o row t killSwitch).row.Resolved := by
  obtain ⟨hx, hk, ha⟩ := hr
  have hx' : ¬ ∃ x, o.metadata.expiresAt = some x ∧ x < t.now := hx
  rw [executeApprovedSignal, if_neg hx', if_neg (by simp [hk]), if_neg (by simp [ha]), hrow]
  simp only [Attempt.recordAndProtect_row]
  exact place_record_resolved hb hrow

theorem execute_not_retryable (hr : ¬ o.Retryable t killSwitch) :
    (executeApprovedSignal o row t killSwitch).row = row := by
  unfold executeApprovedSignal
  split_ifs with hx hk ha
  · rfl
  · rfl
  · rfl
  · exact absurd ⟨hx, by simpa using hk, by simpa using ha⟩ hr

end Turn

section Cancel
variable {o : StoredOrder} {row : OrderRow} {reason : String} {message : Option String}

theorem cancel_resolved (h : row.Resolved) : (cancelledRow o reason message row).Resolved :=
  cancelledRow_keeps OrderRow.Resolved.undisturbed h

/-- The pass cancels a reserved entry. -/
theorem cancel_entry (hk : ¬ o.IsProtectiveOrder) (hs : o.row.status = .pending) :
    (cancelledRow o reason message o.row).Resolved := by
  by_cases hid : o.brokerOrderId = ""
  · simp only [cancelledRow, cancelOneOpenOrder, if_neg hk, if_pos (And.intro hs hid)]
    exact undisturbed_resolved_of_pending hs nofun (Or.inl (Or.inr (Or.inl rfl)))
  · exact cancel_resolved (Or.inr hid)

theorem cancel_protective (hk : o.IsProtectiveOrder) :
    cancelledRow o reason message row = row := by
  simp only [cancelledRow, cancelOneOpenOrder, if_pos hk]
  rfl

end Cancel

section Pass
variable {e : Engine} {evs : List PassEvent} {o : StoredOrder}

/-- Every broker asked in the pass answers. -/
def BrokersAnswer (evs : List PassEvent) : Prop :=
  ∀ o t, .turn o t ∈ evs → t.broker.WithoutError

/-- The row of a PENDING order is resolved, or nothing has happened to it yet. -/
def Stands (e : Engine) (o : StoredOrder) : Prop :=
  ∃ row, e.Holds o row ∧ (row.Resolved ∨ row = o.row)

/-- The event belongs to a pass in which `o` has its own turns only. -/
def Fits (o : StoredOrder) (ev : PassEvent) : Prop :=
  ∀ o' t, ev = .turn o' t → t.broker.WithoutError ∧ (o.orderId = o'.orderId → o' = o)

theorem IsPass.fits (h : IsPass e evs) (hb : BrokersAnswer evs) (ho : o ∈ e.orders) :
    ∀ ev ∈ evs, Fits o ev := by
  rintro ev hev o' t rfl
  exact ⟨hb o' t hev, fun hid => (h.eq_of_orderId ho hev hid).symm⟩

theorem step_resolved (hs : o.row.status = .pending) {ev : PassEvent} (hev : Fits o ev)
    {row : OrderRow} (h : e.Holds o row) (hr : row.Resolved) :
    ∃ row', (e.step ev).Holds o row' ∧ row'.Resolved := by
  cases ev with
  | turn o' t =>
    obtain ⟨hb, hid⟩ := hev o' t rfl
    by_cases hne : o.orderId = o'.orderId
    · obtain rfl := hid hne
      exact ⟨_, h.turn t, reconcile_resolved hb hr⟩
    · exact ⟨row, h.turn_other hne t, hr⟩
  | activate reason messages =>
    refine ⟨_, h.activate reason messages, ?_⟩
    split
    · exact cancel_resolved hr
    · exact hr

theorem foldl_resolved (hs : o.row.status = .pending) (hevs : ∀ ev ∈ evs, Fits o ev)
    {row : OrderRow} (h : e.Holds o row) (hr : row.Resolved) :
    ∃ row', (evs.foldl Engine.step e).Holds o row' ∧ row'.Resolved := by
  induction evs generalizing e row with
  | nil => exact ⟨row, h, hr⟩
  | cons ev evs ih =>
    obtain ⟨row', h', hr'⟩ := step_resolved hs (hevs ev List.mem_cons_self) h hr
    exact ih (fun a ha => hevs a (List.mem_cons_of_mem ev ha)) h' hr'

/-- The row of a PENDING order is resolved, or nothing has happened to it yet. -/
theorem step_stands (hs : o.row.status = .pending) (hw : o.EngineWritten) {ev : PassEvent}
    (hev : Fits o ev) (h : Stands e o) : Stands (e.step ev) o := by
  obtain ⟨row, h, hr | rfl⟩ := h
  · obtain ⟨row', h', hr'⟩ := step_resolved hs hev h hr
    exact ⟨row', h', Or.inl hr'⟩
  · cases ev with
    | turn o' t =>
      obtain ⟨hb, hid⟩ := hev o' t rfl
      by_cases hne : o.orderId = o'.orderId
      · obtain rfl := hid hne
        refine ⟨_, h.turn t, ?_⟩
        obtain hk | hk | hk := hw
        · rw [reconcile_entry hs hk]
          by_cases hr : o'.Retryable t e.killSwitch
          · exact Or.inl (execute_retryable hr hb hs)
          · exact Or.inr (execute_not_retryable hr)
        · exact Or.inl (reconcile_stopChild hs hk hb hs)
        · exact Or.inr (reconcile_flattenChild hs hk)
      · exact ⟨_, h.turn_other hne t, Or.inr rfl⟩
    | activate reason messages =>
      refine ⟨_, h.activate reason messages, ?_⟩
      by_cases hk : o.IsProtectiveOrder
      · right
        rw [cancel_protective hk, ite_self]
      · left
        rw [if_pos (show o.Open from by rw [StoredOrder.Open, hs]; decide)]
        exact cancel_entry hk hs

theorem foldl_stands (hs : o.row.status = .pending) (hw : o.EngineWritten)
    (hevs : ∀ ev ∈ evs, Fits o ev) (h : Stands e o) : Stands (evs.foldl Engine.step e) o := by
  induction evs generalizing e with
  | nil => exact h
  | cons ev evs ih =>
    exact ih (fun a ha => hevs a (List.mem_cons_of_mem ev ha))
      (step_stands hs hw (hevs ev List.mem_cons_self) h)

theorem foldl_killSwitch (hevs : ∀ ev ∈ evs, ¬ ev.IsActivation) :
    (evs.foldl Engine.step e).killSwitch = e.killSwitch := by
  induction evs generalizing e with
  | nil => rfl
  | cons ev evs ih =>
    rw [List.foldl_cons, ih fun a ha => hevs a (List.mem_cons_of_mem ev ha)]
    cases ev with
    | turn => rfl
    | activate => exact absurd trivial (hevs _ List.mem_cons_self)

/-- What becomes of a PENDING row in the pass: it has a broker order id already, it is a
protective stop, or an entry whose retry goes through or that an activation cancels. -/
def Recovers (e : Engine) (evs : List PassEvent) (o : StoredOrder) : Prop :=
  o.brokerOrderId ≠ "" ∨ o.IsStopChild ∨
    (o.IsEntry ∧ ((∃ ev ∈ evs, ev.IsActivation) ∨
      ∃ t, .turn o t ∈ evs ∧ o.Retryable t e.killSwitch))

/-- An event after which the order is resolved resolves it for the rest of the pass. -/
theorem resolved_of_split {pre post : List PassEvent} {ev : PassEvent}
    (hs : o.row.status = .pending) (hw : o.EngineWritten)
    (hevs : ∀ a ∈ pre ++ ev :: post, Fits o a) (h : e.Holds o o.row)
    (hstep : ∀ row, (pre.foldl Engine.step e).Holds o row → row.Resolved ∨ row = o.row →
      ∃ row', ((pre.foldl Engine.step e).step ev).Holds o row' ∧ row'.Resolved) :
    (((pre ++ ev :: post).foldl Engine.step e).rowOf o).Resolved := by
  have hpre : ∀ a ∈ pre, Fits o a := fun a ha => hevs a (List.mem_append_left _ ha)
  have hpost : ∀ a ∈ post, Fits o a :=
    fun a ha => hevs a (List.mem_append_right _ (List.mem_cons_of_mem ev ha))
  obtain ⟨row, hrow, hst⟩ := foldl_stands hs hw hpre ⟨_, h, Or.inr rfl⟩
  obtain ⟨row', hrow', hr'⟩ := hstep row hrow hst
  obtain ⟨row'', hrow'', hr''⟩ := foldl_resolved hs hpost hrow' hr'
  rw [List.foldl_append, List.foldl_cons, hrow''.rowOf]
  exact hr''

/-- An activation anywhere in the pass cancels an entry that is still reserved. -/
theorem resolved_of_activation (hpass : IsPass e evs) (hb : BrokersAnswer evs) (ho : o ∈ e.orders)
    (hs : o.row.status = .pending) (hk : o.IsEntry) (hact : ∃ ev ∈ evs, ev.IsActivation) :
    ((evs.foldl Engine.step e).rowOf o).Resolved := by
  obtain ⟨ev, hev, hact⟩ := hact
  have hfits := hpass.fits hb ho
  obtain ⟨pre, post, rfl⟩ := List.append_of_mem hev
  refine resolved_of_split hs (Or.inl hk) hfits (Engine.holds_of_mem hpass.ids ho)
    fun row hrow hst => ?_
  obtain hr | rfl := hst
  · exact step_resolved hs (hfits ev hev) hrow hr
  · cases ev with
    | turn => cases hact
    | activate reason messages =>
      refine ⟨_, hrow.activate reason messages, ?_⟩
      rw [if_pos (show o.Open from by rw [StoredOrder.Open, hs]; decide)]
      exact cancel_entry hk.plain hs

theorem Recovers.resolved (hpass : IsPass e evs) (hb : BrokersAnswer evs) (ho : o ∈ e.orders)
    (hs : o.row.status = .pending) (hw : o.EngineWritten) (h : Recovers e evs o) :
    ((evs.foldl Engine.step e).rowOf o).Resolved := by
  have hstart := Engine.holds_of_mem hpass.ids ho
  have hfits := hpass.fits hb ho
  have hopen : o.Open := by
    rw [StoredOrder.Open, hs]
    decide
  obtain hid | hk | ⟨hk, hact | ⟨t, ht, hr⟩⟩ := h
  · obtain ⟨row, hrow, hr⟩ := foldl_resolved hs hfits hstart (Or.inr hid)
    rw [hrow.rowOf]
    exact hr
  · obtain ⟨t, ht⟩ := hpass.exists_turn ho hopen
    obtain ⟨pre, post, rfl⟩ := List.append_of_mem ht
    refine resolved_of_split hs hw hfits hstart fun row hrow hst => ⟨_, hrow.turn t, ?_⟩
    obtain hr | rfl := hst
    · exact reconcile_resolved (hb o t ht) hr
    · exact reconcile_stopChild hs hk (hb o t ht) hs
  · exact resolved_of_activation hpass hb ho hs hk hact
  · by_cases hact : ∃ ev ∈ evs, ev.IsActivation
    · exact resolved_of_activation hpass hb ho hs hk hact
    · obtain ⟨pre, post, rfl⟩ := List.append_of_mem ht
      have hkill : (pre.foldl Engine.step e).killSwitch = e.killSwitch :=
        foldl_killSwitch fun ev hev ha => hact ⟨ev, List.mem_append_left _ hev, ha⟩
      refine resolved_of_split hs hw hfits hstart fun row hrow hst => ⟨_, hrow.turn t, ?_⟩
      obtain hres | rfl := hst
      · exact reconcile_resolved (hb o t ht) hres
      · rw [reconcile_entry hs hk, hkill]
        exact execute_retryable hr (hb o t ht) hs

/-- A row nothing recovers is at the end of the pass as it was. -/
theorem unmoved_of_not_recovers (hevs : ∀ ev ∈ evs, Fits o ev) (hs : o.row.status = .pending)
    (hw : o.EngineWritten) (h : e.Holds o o.row) (hr : ¬ Recovers e evs o) :
    (evs.foldl Engine.step e).Holds o o.row := by
  obtain ⟨hid, hk, hentry⟩ := not_or.mp hr |>.imp_right not_or.mp
  clear hr
  induction evs generalizing e with
  | nil => exact h
  | cons ev evs ih =>
    have hrest : ∀ a ∈ evs, Fits o a := fun a ha => hevs a (List.mem_cons_of_mem ev ha)
    have hstep : (e.step ev).Holds o o.row := by
      cases ev with
      | turn o' t =>
        by_cases hne : o.orderId = o'.orderId
        · obtain rfl := (hevs _ List.mem_cons_self o' t rfl).2 hne
          have hturn := h.turn t
          obtain hk' | hk' | hk' := hw
          · rw [reconcile_entry hs hk', execute_not_retryable] at hturn
            · exact hturn
            · exact fun hr => hentry ⟨hk', Or.inr ⟨t, List.mem_cons_self, hr⟩⟩
          · exact absurd hk' hk
          · rwa [reconcile_flattenChild hs hk'] at hturn
        · exact h.turn_other hne t
      | activate reason messages =>
        have hact := h.activate reason messages
        obtain hk' | hk' | hk' := hw
        · exact absurd ⟨hk', Or.inl ⟨_, List.mem_cons_self, trivial⟩⟩ hentry
        · exact absurd hk' hk
        · rwa [cancel_protective hk'.isProtectiveOrder, ite_self] at hact
    refine ih hrest hstep ?_
    rintro ⟨hk', hact | ⟨t, ht, hr⟩⟩
    · obtain ⟨a, ha, hact⟩ := hact
      exact hentry ⟨hk', Or.inl ⟨a, List.mem_cons_of_mem ev ha, hact⟩⟩
    · cases ev with
      | turn => exact hentry ⟨hk', Or.inr ⟨t, List.mem_cons_of_mem _ ht, hr⟩⟩
      | activate => exact hentry ⟨hk', Or.inl ⟨_, List.mem_cons_self, trivial⟩⟩

end Pass

/-- A startup reconciliation with brokers that answer resolves all PENDING rows the engine
has written exactly when each has a broker order id already, or is a protective stop, or
is an entry that is neither expired, halted nor outside the universe at its turn, or that
an activation of the kill switch cancels. A flatten order without id stays as it is. -/
theorem pending_rows_resolved_iff {e : Engine} {evs : List PassEvent} (hpass : IsPass e evs)
    (hb : BrokersAnswer evs)
    (hw : ∀ o ∈ e.orders, o.row.status = .pending → o.EngineWritten) :
    (∀ o ∈ e.orders, o.row.status = .pending →
      ((evs.foldl Engine.step e).rowOf o).Resolved) ↔
    ∀ o ∈ e.orders, o.row.status = .pending → Recovers e evs o := by
  constructor
  · intro h o ho hs
    by_contra hr
    have hrow := unmoved_of_not_recovers (hpass.fits hb ho) hs (hw o ho hs)
      (Engine.holds_of_mem hpass.ids ho) hr
    have hres := h o ho hs
    rw [hrow.rowOf] at hres
    obtain ht | hid := hres
    · rw [hs] at ht
      revert ht
      decide
    · exact hr (Or.inl hid)
  · intro h o ho hs
    exact (h o ho hs).resolved hpass hb ho hs (hw o ho hs)

/-- An entry a crash left between `submit_order` and the broker call. -/
def strandedEntry : StoredOrder where
  orderId := "QE-1"
  signalId := "S1"
  riskDecisionId := "R1"
  symbol := "INFY"
  market := .nse
  side := .buy
  quantity := 10
  stopPrice := some 95
  row := .reserved

/-- The same for the market order that flattens its fill. -/
def strandedFlatten : StoredOrder where
  orderId := "FLATTEN-QE-1-f1"
  signalId := "S1#FLATTEN#f1"
  riskDecisionId := "R1"
  symbol := "INFY"
  market := .nse
  side := .sell
  quantity := 10
  parentOrderId := "QE-1"
  protectiveType := "EMERGENCY_FLATTEN"
  isProtective := true
  metadata := { protectiveType := "EMERGENCY_FLATTEN", parentOrderId := "QE-1" }
  row := .reserved

/-- A broker that takes whatever it is sent. -/
def willingBroker : BrokerAnswers where
  found := .ok none
  placed := .accepted { brokerOrderId := "B1", status := .placed }
  rescanned := .ok none
  current := .ok ⟨.placed, 0, 0, ""⟩

theorem willingBroker_withoutError : willingBroker.WithoutError where
  found := ⟨none, rfl, nofun⟩
  placed := Or.inr ⟨_, rfl, by decide, by decide⟩

def willingTurn : Turn := ⟨0, true, "t1", willingBroker⟩

def tableOf (orders : List StoredOrder) : Engine := ⟨orders, false, fun _ => {}, []⟩

theorem isPass_singleton {o : StoredOrder} (h : o.row.status = .pending) :
    IsPass (tableOf [o]) [.turn o willingTurn] where
  ids := List.nodup_singleton _
  listed := by
    have hopen : o.Open := by
      rw [StoredOrder.Open, h]
      decide
    simp [tableOf, turns, PassEvent.turn?, hopen]

theorem brokersAnswer_singleton (o : StoredOrder) : BrokersAnswer [.turn o willingTurn] := by
  intro o' t ht
  cases List.mem_singleton.mp ht
  exact willingBroker_withoutError

theorem strandedEntry_isEntry : strandedEntry.IsEntry :=
  ⟨by decide, by decide, by decide⟩

theorem strandedEntry_retryable : strandedEntry.Retryable willingTurn false := by
  refine ⟨?_, rfl, rfl⟩
  rintro ⟨x, hx, _⟩
  cases hx

theorem pending_rows_resolved_iff_entry :
    ((([PassEvent.turn strandedEntry willingTurn].foldl Engine.step
      (tableOf [strandedEntry])).rowOf strandedEntry).Resolved) :=
  (pending_rows_resolved_iff (isPass_singleton rfl) (brokersAnswer_singleton strandedEntry)
    (fun o ho _ => by
      rw [List.mem_singleton.mp ho]
      exact Or.inl strandedEntry_isEntry)).mpr
    (fun o ho _ => by
      rw [List.mem_singleton.mp ho]
      exact Or.inr (Or.inr ⟨strandedEntry_isEntry, Or.inr ⟨willingTurn, List.mem_singleton_self _,
        strandedEntry_retryable⟩⟩)) strandedEntry (List.mem_singleton_self _) rfl

/-- A crash between the reservation of a flatten order and its placement: the restart
looks at its stop price, finds none and leaves the row PENDING. -/
theorem stranded_flatten_not_resolved :
    ¬ ∀ (e : Engine) (evs : List PassEvent), IsPass e evs → BrokersAnswer evs →
      (∀ o ∈ e.orders, o.row.status = .pending → o.EngineWritten) →
      ∀ o ∈ e.orders, o.row.status = .pending →
        ((evs.foldl Engine.step e).rowOf o).Resolved := by
  intro hall
  have hkind : strandedFlatten.IsFlattenChild := ⟨rfl, rfl⟩
  have h := hall (tableOf [strandedFlatten]) [.turn strandedFlatten willingTurn]
    (isPass_singleton rfl) (brokersAnswer_singleton strandedFlatten)
    (fun o ho _ => by
      rw [List.mem_singleton.mp ho]
      exact Or.inr (Or.inr hkind))
    strandedFlatten (List.mem_singleton_self _) rfl
  obtain ht | hid := h
  · revert ht
    decide +kernel
  · revert hid
    decide +kernel

end QuantEmbrace
