import QuantEmbrace.KillSwitchCancel
import QuantEmbrace.Reconciliation
import QuantEmbrace.Lib.Role
import Mathlib.Algebra.BigOperators.Group.Finset.Basic
import Mathlib.Algebra.Order.Ring.Rat

/-! Protecting one fill increment: any number of `_maybe_place_protective_stop` calls for
it, the failure path with its emergency flatten, and the two closing orders at the broker,
which may come to be accepted long after the call that sent them has given up. -/
namespace QuantEmbrace
open GuardedRun

/-- The side that closes a position opened on this one. -/
def OrderSide.opposite : OrderSide → OrderSide
  | buy => sell
  | sell => buy

section Children
variable (parent : StoredOrder) (fillId : String) (filledQuantity : ℚ)

/-- The child of `_maybe_place_protective_stop`. -/
def protectiveStop : StoredOrder where
  orderId := "SL-" ++ parent.orderId ++ "-" ++ fillId
  signalId := parent.signalId ++ "#SL#" ++ fillId
  riskDecisionId := parent.riskDecisionId
  symbol := parent.symbol
  market := parent.market
  side := parent.side.opposite
  quantity := filledQuantity
  stopPrice := parent.stopPrice
  parentOrderId := parent.orderId
  protectiveType := "STOP_LOSS"
  isProtective := true
  metadata := { protectiveType := "STOP_LOSS", parentOrderId := parent.orderId }
  row := .reserved

/-- The child of `_place_emergency_flatten_order`. -/
def emergencyFlatten : StoredOrder where
  orderId := "FLATTEN-" ++ parent.orderId ++ "-" ++ fillId
  signalId := parent.signalId ++ "#FLATTEN#" ++ fillId
  riskDecisionId := parent.riskDecisionId
  symbol := parent.symbol
  market := parent.market
  side := parent.side.opposite
  quantity := filledQuantity
  parentOrderId := parent.orderId
  protectiveType := "EMERGENCY_FLATTEN"
  isProtective := true
  metadata := { protectiveType := "EMERGENCY_FLATTEN", parentOrderId := parent.orderId }
  row := .reserved

end Children

/-- A closing order at the broker, and how much of it has been executed. -/
structure ClosingOrder where
  state : BrokerOrder
  executed : ℚ
  deriving DecidableEq, Repr

namespace ClosingOrder

def fresh : ClosingOrder := ⟨.uncalled, 0⟩
def sent : ClosingOrder := ⟨.called, 0⟩

/-- A request that was sent may be accepted at any time, its answer lost or not. -/
inductive Moves (quantity : ℚ) : ClosingOrder → ClosingOrder → Prop
  | accept {x : ℚ} : Moves quantity ⟨.called, x⟩ ⟨.live, x⟩
  | refuse {x : ℚ} : Moves quantity ⟨.called, x⟩ ⟨.refused, x⟩
  | execute {x y : ℚ} : x ≤ y → y ≤ quantity → Moves quantity ⟨.live, x⟩ ⟨.live, y⟩
  | finish {x : ℚ} : Moves quantity ⟨.live, x⟩ ⟨.ended, x⟩

/-- What the order has closed or still may close. -/
def exposure (quantity : ℚ) (o : ClosingOrder) : ℚ :=
  match o.state with
  | .live => quantity
  | .ended => o.executed
  | _ => 0

/-- The broker's order list may show it. -/
def Shown (o : ClosingOrder) : Prop := o.state = .live ∨ o.state = .ended

/-- It has closed nothing and never will: it was not sent, refused, or ended first. -/
def Spent (o : ClosingOrder) : Prop :=
  o.state = .uncalled ∨ o.state = .refused ∨ (o.state = .ended ∧ o.executed = 0)

end ClosingOrder

/-- `_place_order_with_broker_idempotency` for a child, which is not stopped by the kill
switch; the status writes on its way answer false at worst. -/
inductive ClosingPhase where
  | finding
  | limiting
  | placing
  | scanning
  | responded
  | raised
  deriving DecidableEq, Repr

inductive ClosingEvent where
  | lookup
  | place
  | answer
  | fail
  deriving DecidableEq, Repr

inductive ClosingStep (shown : Prop) (b : BrokerOrder) :
    ClosingPhase → ClosingEvent → ClosingPhase → Prop
  | hit : shown → ClosingStep shown b .finding .lookup .responded
  | miss : ClosingStep shown b .finding .lookup .limiting
  | place : ClosingStep shown b .limiting .place .placing
  | accepted : b = .live ∨ b = .ended → ClosingStep shown b .placing .answer .responded
  | refused : b = .refused → ClosingStep shown b .placing .answer .raised
  | unknown : ClosingStep shown b .placing .answer .scanning
  | recovered : shown → ClosingStep shown b .scanning .lookup .responded
  | unresolved : ClosingStep shown b .scanning .lookup .raised
  | findFails : ClosingStep shown b .finding .fail .raised
  | limiterFails : ClosingStep shown b .limiting .fail .raised
  | scanFails : ClosingStep shown b .scanning .fail .raised

/-- The placement of an order with its row, as seen from the broker. -/
def Placement.closing : Placement → ClosingPhase
  | .finding => .finding
  | .found none | .limiting => .limiting
  | .placing => .placing
  | .answered (.unknown _) | .marking _ _ | .scanning => .scanning
  | .answered .refused | .rejecting _ | .scanned none | .raised => .raised
  | .found (some _) | .answered (.accepted _) | .scanned (some _) | .recording _ _
  | .recorded _ => .responded

/-- Up to its response, a placement makes the same moves whether the row is followed or
not. -/
theorem PlacementStep.closing {b : BrokerOrder} {brokerOrderId : String}
    {Sees : OrderStatus → Prop} {row row' : OrderRow} {p p' : Placement} {e : PlacementEvent}
    (h : PlacementStep (b.Finds brokerOrderId) (b.Answers brokerOrderId) Sees row p e row' p') :
    p.closing = .responded ∨ p'.closing = p.closing ∨
      ∃ e', ClosingStep (b = .live ∨ b = .ended) b p.closing e' p'.closing := by
  cases h with
  | @find o ho =>
    right; right
    cases o with
    | none => exact ⟨_, .miss⟩
    | some r => exact ⟨_, .hit (ho r rfl).1⟩
  | @scan o ho =>
    right; right
    cases o with
    | none => exact ⟨_, .unresolved⟩
    | some r => exact ⟨_, .recovered (ho r rfl).1⟩
  | @answer a ha =>
    right; right
    cases a with
    | accepted r => exact ⟨_, .accepted ha.1⟩
    | refused => exact ⟨_, .refused ha⟩
    | unknown exc => exact ⟨_, .unknown⟩
  | place => exact Or.inr (Or.inr ⟨_, .place⟩)
  | findFails => exact Or.inr (Or.inr ⟨_, .findFails⟩)
  | limiterFails => exact Or.inr (Or.inr ⟨_, .limiterFails⟩)
  | scanFails => exact Or.inr (Or.inr ⟨_, .scanFails⟩)
  | hit | accepted | recovered | record | recorded | illegal => exact Or.inl rfl
  | miss | refused | unknown | reject | rejected | mark | marked | unresolved =>
    exact Or.inr (Or.inl rfl)

inductive ProtectPhase where
  | idle
  | stop (p : ClosingPhase)
  | failed
  | flatten (p : ClosingPhase)
  | done
  deriving DecidableEq, Repr

namespace ProtectPhase

/-- A stop that raised is followed by the failure path; the record of its response raises
to the caller. -/
def afterStop : ClosingPhase → ProtectPhase
  | .responded => done
  | .raised => failed
  | p => stop p

def afterFlatten : ClosingPhase → ProtectPhase
  | .responded | .raised => done
  | p => flatten p

end ProtectPhase

inductive ProtectEvent where
  | create
  | present
  | stop (e : ClosingEvent)
  | createFlatten
  | presentFlatten
  | flatten (e : ClosingEvent)
  | stopMoves
  | flattenMoves
  | crash
  deriving DecidableEq, Repr

structure ProtectCall where
  phase : ProtectPhase
  stop : ClosingOrder
  flatten : ClosingOrder

/-- Which child rows exist, and the calls with the orders they sent. -/
structure ProtectWorld (ι : Type*) where
  stopChild : Bool
  flattenChild : Bool
  calls : ι → ProtectCall

namespace ProtectWorld
variable {ι : Type*}

def start : ProtectWorld ι := ⟨false, false, fun _ => ⟨.idle, .fresh, .fresh⟩⟩

variable [DecidableEq ι]

def setCall (w : ProtectWorld ι) (i : ι) (c : ProtectCall) : ProtectWorld ι :=
  { w with calls := Function.update w.calls i c }

/- The tag of an order comes from its id, so a lookup finds the child of any call. A
   conditional put may answer that the row is there, or raise, after writing it itself. -/
inductive Step (parent : StoredOrder) (fillId : String) (filledQuantity : ℚ) :
    ProtectWorld ι → ι × ProtectEvent → ProtectWorld ι → Prop
  | create {w : ProtectWorld ι} {i : ι} : (w.calls i).phase = .idle → parent.WantsStop →
      0 < filledQuantity → w.stopChild = false →
      Step parent fillId filledQuantity w (i, .create)
        ({ w with stopChild := true }.setCall i { w.calls i with phase := .stop .finding })
  | present {w : ProtectWorld ι} {i : ι} {landed : Bool} : (w.calls i).phase = .idle →
      Step parent fillId filledQuantity w (i, .present)
        ({ w with stopChild := w.stopChild || landed }.setCall i
          { w.calls i with phase := .done })
  | stop {w : ProtectWorld ι} {i : ι} {p p' : ClosingPhase} {e : ClosingEvent} :
      (w.calls i).phase = .stop p →
      ClosingStep (∃ j, (w.calls j).stop.Shown) (w.calls i).stop.state p e p' →
      Step parent fillId filledQuantity w (i, .stop e)
        (w.setCall i { w.calls i with
          phase := .afterStop p'
          stop := if e = .place then .sent else (w.calls i).stop })
  | createFlatten {w : ProtectWorld ι} {i : ι} : (w.calls i).phase = .failed →
      w.flattenChild = false →
      Step parent fillId filledQuantity w (i, .createFlatten)
        ({ w with flattenChild := true }.setCall i { w.calls i with phase := .flatten .finding })
  -- the stored child is placed all the same, unless it has a broker order id
  | presentFlatten {w : ProtectWorld ι} {i : ι} {landed : Bool} {p : ProtectPhase} :
      (w.calls i).phase = .failed → p = .flatten .finding ∨ p = .done →
      Step parent fillId filledQuantity w (i, .presentFlatten)
        ({ w with flattenChild := w.flattenChild || landed }.setCall i
          { w.calls i with phase := p })
  | flatten {w : ProtectWorld ι} {i : ι} {p p' : ClosingPhase} {e : ClosingEvent} :
      (w.calls i).phase = .flatten p →
      ClosingStep (∃ j, (w.calls j).flatten.Shown) (w.calls i).flatten.state p e p' →
      Step parent fillId filledQuantity w (i, .flatten e)
        (w.setCall i { w.calls i with
          phase := .afterFlatten p'
          flatten := if e = .place then .sent else (w.calls i).flatten })
  | stopMoves {w : ProtectWorld ι} {i : ι} {o : ClosingOrder} :
      (w.calls i).stop.Moves (protectiveStop parent fillId filledQuantity).quantity o →
      Step parent fillId filledQuantity w (i, .stopMoves)
        (w.setCall i { w.calls i with stop := o })
  | flattenMoves {w : ProtectWorld ι} {i : ι} {o : ClosingOrder} :
      (w.calls i).flatten.Moves (emergencyFlatten parent fillId filledQuantity).quantity o →
      Step parent fillId filledQuantity w (i, .flattenMoves)
        (w.setCall i { w.calls i with flatten := o })
  | crash {w : ProtectWorld ι} {i : ι} :
      Step parent fillId filledQuantity w (i, .crash)
        (w.setCall i { w.calls i with phase := .done })

omit [DecidableEq ι] in
/-- The flatten is sent only when the stop can no longer execute. -/
def FlattenAlone (w : ProtectWorld ι) (ev : ι × ProtectEvent) : Prop :=
  ev.2 = .flatten .place → (w.calls ev.1).stop.Spent

end ProtectWorld

namespace ProtectPhase

/-- The stop has not been sent to the broker. -/
def BeforeStop : ProtectPhase → Prop
  | idle | stop .finding | stop .limiting => True
  | _ => False

/-- The flatten has not been sent, and it still may be. -/
def BeforeFlatten : ProtectPhase → Prop
  | idle | stop _ | failed | flatten .finding | flatten .limiting => True
  | _ => False

/-- The call has a child of its own. -/
def Owning : ProtectPhase → Prop
  | stop _ | failed | flatten _ => True
  | _ => False

end ProtectPhase

namespace ClosingOrder
variable {quantity : ℚ} {o o' : ClosingOrder}

def Within (quantity : ℚ) (o : ClosingOrder) : Prop := 0 ≤ o.executed ∧ o.executed ≤ quantity

theorem Within.moves (h : o.Within quantity) (hm : o.Moves quantity o') : o'.Within quantity := by
  cases hm with
  | accept | refuse | finish => exact h
  | execute hxy hy => exact ⟨h.1.trans hxy, hy⟩

theorem Within.exposure_le (h : o.Within quantity) : o.exposure quantity ≤ quantity := by
  have hq : 0 ≤ quantity := h.1.trans h.2
  unfold exposure
  split
  · exact le_refl _
  · exact h.2
  · exact hq

theorem Spent.exposure (h : o.Spent) (quantity : ℚ) : o.exposure quantity = 0 := by
  unfold ClosingOrder.exposure
  obtain h | h | ⟨h, he⟩ := h
  · rw [h]
  · rw [h]
  · rw [h, he]

theorem Spent.not_moves (h : o.Spent) : ¬ o.Moves quantity o' := by
  intro hm
  cases hm with
  | accept | refuse | execute | finish => obtain h | h | ⟨h, _⟩ := h <;> cases h

/-- The broker only takes up what was sent. -/
theorem Moves.sent (hm : o.Moves quantity o') : o.state ≠ .uncalled ∧ o'.state ≠ .uncalled := by
  cases hm with
  | accept | refuse | execute | finish => exact ⟨nofun, nofun⟩

end ClosingOrder

theorem ClosingStep.place_of {shown : Prop} {b : BrokerOrder} {p p' : ClosingPhase}
    (h : ClosingStep shown b p .place p') : p = .limiting ∧ p' = .placing := by
  cases h
  exact ⟨rfl, rfl⟩

namespace ProtectCall
variable {quantity : ℚ} {c : ProtectCall} {shown : Prop} {b : BrokerOrder} {p p' : ClosingPhase}
  {e : ClosingEvent}

def exposure (quantity : ℚ) (c : ProtectCall) : ℚ :=
  c.stop.exposure quantity + c.flatten.exposure quantity

def Active (c : ProtectCall) : Prop :=
  c.phase.Owning ∨ c.stop.state ≠ .uncalled ∨ c.flatten.state ≠ .uncalled

structure Sound (quantity : ℚ) (c : ProtectCall) : Prop where
  stop : c.stop.Within quantity
  flatten : c.flatten.Within quantity
  beforeStop : c.phase.BeforeStop → c.stop.state = .uncalled
  beforeFlatten : c.phase.BeforeFlatten → c.flatten.state = .uncalled
  apart : c.flatten.state ≠ .uncalled → c.stop.Spent

theorem Sound.exposure_le (h : c.Sound quantity) : c.exposure quantity ≤ quantity := by
  by_cases hf : c.flatten.state = .uncalled
  · rw [exposure, ClosingOrder.Spent.exposure (Or.inl hf) quantity, add_zero]
    exact h.stop.exposure_le
  · rw [exposure, (h.apart hf).exposure quantity, zero_add]
    exact h.flatten.exposure_le

theorem exposure_of_not_active (h : ¬ c.Active) : c.exposure quantity = 0 := by
  obtain ⟨_, hs, hf⟩ : ¬ c.phase.Owning ∧ c.stop.state = .uncalled ∧
      c.flatten.state = .uncalled := by
    simpa [Active, not_or] using h
  rw [exposure, ClosingOrder.Spent.exposure (Or.inl hs) quantity,
    ClosingOrder.Spent.exposure (Or.inl hf) quantity, add_zero]

/-- A phase that sends nothing and asks less of the orders. -/
theorem Sound.setPhase (h : c.Sound quantity) {p : ProtectPhase}
    (hs : p.BeforeStop → c.phase.BeforeStop) (hf : p.BeforeFlatten → c.phase.BeforeFlatten) :
    Sound quantity { c with phase := p } :=
  ⟨h.stop, h.flatten, fun hp => h.beforeStop (hs hp), fun hp => h.beforeFlatten (hf hp), h.apart⟩

theorem Sound.stopStep (h : c.Sound quantity) (hp : c.phase = .stop p)
    (hstep : ClosingStep shown b p e p') :
    Sound quantity { c with
      phase := .afterStop p', stop := if e = .place then .sent else c.stop } := by
  have hflat : c.flatten.state = .uncalled := h.beforeFlatten (by rw [hp]; trivial)
  have hq : 0 ≤ quantity := h.stop.1.trans h.stop.2
  refine ⟨?_, h.flatten, ?_, fun _ => hflat, fun hf => absurd hflat hf⟩
  · dsimp only
    split_ifs
    · exact ⟨le_refl _, hq⟩
    · exact h.stop
  · cases hstep with
    | miss => exact fun _ => h.beforeStop (by rw [hp]; trivial)
    | _ => exact fun hb => absurd hb id

theorem Sound.flattenStep (h : c.Sound quantity) (hp : c.phase = .flatten p)
    (hstep : ClosingStep shown b p e p') (hok : e = .place → c.stop.Spent) :
    Sound quantity { c with
      phase := .afterFlatten p', flatten := if e = .place then .sent else c.flatten } := by
  have hq : 0 ≤ quantity := h.stop.1.trans h.stop.2
  refine ⟨h.stop, ?_, ?_, ?_, ?_⟩
  · dsimp only
    split_ifs
    · exact ⟨le_refl _, hq⟩
    · exact h.flatten
  · cases hstep with
    | _ => exact fun hb => absurd hb id
  · cases hstep with
    | miss => exact fun _ => h.beforeFlatten (by rw [hp]; trivial)
    | _ => exact fun hb => absurd hb id
  · dsimp only
    split_ifs with he
    · exact fun _ => hok he
    · exact h.apart

theorem Sound.stopMoves (h : c.Sound quantity) {o : ClosingOrder}
    (hm : c.stop.Moves quantity o) : Sound quantity { c with stop := o } where
  stop := h.stop.moves hm
  flatten := h.flatten
  beforeStop hp := absurd (h.beforeStop hp) hm.sent.1
  beforeFlatten := h.beforeFlatten
  apart hf := absurd hm (h.apart hf).not_moves

theorem Sound.flattenMoves (h : c.Sound quantity) {o : ClosingOrder}
    (hm : c.flatten.Moves quantity o) : Sound quantity { c with flatten := o } where
  stop := h.stop
  flatten := h.flatten.moves hm
  beforeStop := h.beforeStop
  beforeFlatten hp := absurd (h.beforeFlatten hp) hm.sent.1
  apart _ := h.apart hm.sent.1

end ProtectCall

namespace ProtectWorld
variable {ι : Type*} {parent : StoredOrder} {fillId : String} {filledQuantity : ℚ}
  {w w' : ProtectWorld ι} {ev : ι × ProtectEvent}

/-- One call has the children of the increment, and its two orders are kept apart. -/
structure Single (filledQuantity : ℚ) (w : ProtectWorld ι) : Prop where
  sound : ∀ i, (w.calls i).Sound filledQuantity
  alone : Role.AtMostOne (fun _ => True) ProtectCall.Active w.calls
  child : ∀ i, (w.calls i).Active → w.stopChild = true

theorem start_single (hq : 0 ≤ filledQuantity) :
    Single filledQuantity (start : ProtectWorld ι) := by
  have hidle : ¬ (⟨.idle, .fresh, .fresh⟩ : ProtectCall).Active := by
    rintro (h | h | h)
    · exact h
    · exact h rfl
    · exact h rfl
  exact ⟨fun _ => ⟨⟨le_refl _, hq⟩, ⟨le_refl _, hq⟩, fun _ => rfl, fun _ => rfl,
    fun h => absurd rfl h⟩, fun _ _ _ _ h => absurd h hidle, fun _ h => absurd h hidle⟩

variable [DecidableEq ι]

/-- A call that moves on keeps its part, or takes it when nobody has it. -/
theorem Single.setCall (h : Single filledQuantity w) {i : ι} {c : ProtectCall} {b f : Bool}
    (hc : c.Sound filledQuantity) (hb : w.stopChild = true → b = true)
    (ha : c.Active → (w.calls i).Active ∨ (w.stopChild = false ∧ b = true)) :
    Single filledQuantity ({ w with stopChild := b, flattenChild := f }.setCall i c) where
  sound := (Function.forall_update_iff w.calls fun _ c => c.Sound filledQuantity).mpr
    ⟨hc, fun j _ => h.sound j⟩
  alone := h.alone.update fun hact => (ha hact).imp_right fun hnone j _ _ hj => by
    rw [h.child j hj] at hnone
    cases hnone.1
  child := (Function.forall_update_iff w.calls fun _ c => c.Active → b = true).mpr
    ⟨fun hact => (ha hact).elim (fun hi => hb (h.child i hi)) And.right,
      fun j _ hj => hb (h.child j hj)⟩

theorem Single.step (h : Single filledQuantity w) (hok : FlattenAlone w ev)
    (hs : Step parent fillId filledQuantity w ev w') : Single filledQuantity w' := by
  cases hs with
  | @create i hp _ _ hchild =>
    refine h.setCall ((h.sound i).setPhase ?_ ?_) (fun _ => rfl) fun _ => Or.inr ⟨hchild, rfl⟩
    · exact fun _ => by rw [hp]; trivial
    · exact fun _ => by rw [hp]; trivial
  | @present i landed hp =>
    refine h.setCall ((h.sound i).setPhase (fun hb => absurd hb id) fun hb => absurd hb id)
      (fun hc => by rw [hc]; rfl) fun hact => Or.inl ?_
    exact Or.inr (hact.resolve_left id)
  | @stop i p p' e hp hstep =>
    refine h.setCall ((h.sound i).stopStep hp hstep) id fun _ => Or.inl (Or.inl ?_)
    rw [hp]
    trivial
  | @createFlatten i hp _ =>
    refine h.setCall ((h.sound i).setPhase (fun hb => absurd hb id) ?_) id
      fun _ => Or.inl (Or.inl ?_)
    · exact fun _ => by rw [hp]; trivial
    · rw [hp]
      trivial
  | @presentFlatten i landed p hp hor =>
    refine h.setCall ((h.sound i).setPhase ?_ ?_) id fun _ => Or.inl (Or.inl ?_)
    · obtain rfl | rfl := hor <;> exact fun hb => absurd hb id
    · exact fun _ => by rw [hp]; trivial
    · rw [hp]
      trivial
  | @flatten i p p' e hp hstep =>
    refine h.setCall ((h.sound i).flattenStep hp hstep fun he => hok (by rw [he])) id
      fun _ => Or.inl (Or.inl ?_)
    rw [hp]
    trivial
  | @stopMoves i o hm =>
    exact h.setCall ((h.sound i).stopMoves hm) id fun _ => Or.inl (Or.inr (Or.inl hm.sent.1))
  | @flattenMoves i o hm =>
    exact h.setCall ((h.sound i).flattenMoves hm) id fun _ => Or.inl (Or.inr (Or.inr hm.sent.1))
  | @crash i =>
    exact h.setCall ((h.sound i).setPhase (p := .done) (fun hb => absurd hb id)
      fun hb => absurd hb id) id fun hact => Or.inl (Or.inr (hact.resolve_left id))

omit [DecidableEq ι] in
/-- Only one call is exposed, and only with one order. -/
theorem Single.exposure_le (hq : 0 ≤ filledQuantity) (h : Single filledQuantity w)
    (s : Finset ι) : ∑ i ∈ s, (w.calls i).exposure filledQuantity ≤ filledQuantity := by
  by_cases hact : ∃ i ∈ s, (w.calls i).Active
  · obtain ⟨i, hi, hact⟩ := hact
    rw [Finset.sum_eq_single_of_mem i hi fun j _ hji =>
      ProtectCall.exposure_of_not_active (h.alone.alone trivial trivial hji.symm hact)]
    exact (h.sound i).exposure_le
  · rw [Finset.sum_eq_zero fun i hi =>
      ProtectCall.exposure_of_not_active fun hi' => hact ⟨i, hi, hi'⟩]
    exact hq

/-- While no flatten is sent beside a stop that may still execute, the closing orders of an
increment never close more than the increment. -/
theorem closing_exposure_le (hq : 0 < filledQuantity)
    (hr : Reaches (Step parent fillId filledQuantity) FlattenAlone start w) (s : Finset ι) :
    ∑ i ∈ s, (w.calls i).exposure filledQuantity ≤ filledQuantity :=
  Single.exposure_le hq.le
    (hr.invariant (fun _ _ _ hs ho hst => hs.step ho hst) (start_single hq.le)) s

def filledEntry : StoredOrder where
  orderId := "O1"
  signalId := "S1"
  riskDecisionId := "R1"
  symbol := "INFY"
  market := .nse
  side := .buy
  quantity := 10
  stopPrice := some 95
  row := { OrderRow.reserved with status := .filled, filledQuantity := 10, avgFillPrice := 100 }

/-- The stop has been sent, whatever is admitted besides. -/
theorem stop_sent (ok : ProtectWorld Unit → Unit × ProtectEvent → Prop)
    (hok : ∀ w ev, ev.2 ≠ .flatten .place → ok w ev) :
    Reaches (Step filledEntry "f1" 10) ok start
      ⟨true, false, fun _ => ⟨.stop .placing, .sent, .fresh⟩⟩ := by
  have h1 : Reaches (Step filledEntry "f1" 10) ok start _ :=
    Reaches.next .refl (hok _ _ (by nofun))
      (.create (i := ()) rfl (by decide +kernel) (by norm_num) rfl)
  have h2 := h1.next (hok _ _ (by nofun)) (.stop (i := ()) rfl .miss)
  have h3 := h2.next (hok _ _ (by nofun)) (.stop (i := ()) rfl .place)
  exact h3

/-- The broker refuses the stop and takes the flatten. -/
theorem closing_exposure_le_flattened :
    ∃ w : ProtectWorld Unit, (w.calls ()).stop.state = .refused ∧
      (w.calls ()).flatten.state = .live ∧ ∑ i ∈ {()}, (w.calls i).exposure 10 ≤ 10 := by
  have hok (w : ProtectWorld Unit) (ev : Unit × ProtectEvent) (h : ev.2 ≠ .flatten .place) :
      FlattenAlone w ev := fun he => absurd he h
  have h := stop_sent FlattenAlone hok
  have h1 := h.next (hok _ _ (by nofun)) (.stopMoves (i := ()) .refuse)
  have h2 := h1.next (hok _ _ (by nofun)) (.stop (i := ()) rfl (.refused rfl))
  have h3 := h2.next (hok _ _ (by nofun)) (.createFlatten (i := ()) rfl rfl)
  have h4 := h3.next (hok _ _ (by nofun)) (.flatten (i := ()) rfl .miss)
  have h5 := h4.next (fun _ => Or.inr (Or.inl rfl)) (.flatten (i := ()) rfl .place)
  have h6 := h5.next (hok _ _ (by nofun)) (.flattenMoves (i := ()) .accept)
  exact ⟨_, rfl, rfl, closing_exposure_le (by norm_num) h6 _⟩

/-- The answer to the stop is lost and the order list does not show it yet: the broker
takes both orders. -/
theorem unanswered_stop_and_flatten_live :
    ¬ ∀ w : ProtectWorld Unit, Reaches (Step filledEntry "f1" 10) (fun _ _ => True) start w →
      ∀ s : Finset Unit, ∑ i ∈ s, (w.calls i).exposure 10 ≤ 10 := by
  intro hall
  have h := stop_sent (fun _ _ => True) fun _ _ _ => trivial
  have h1 := h.next trivial (.stop (i := ()) rfl .unknown)
  have h2 := h1.next trivial (.stop (i := ()) rfl .unresolved)
  have h3 := h2.next trivial (.createFlatten (i := ()) rfl rfl)
  have h4 := h3.next trivial (.flatten (i := ()) rfl .miss)
  have h5 := h4.next trivial (.flatten (i := ()) rfl .place)
  have h6 := h5.next trivial (.stopMoves (i := ()) .accept)
  have h7 := h6.next trivial (.flattenMoves (i := ()) .accept)
  have hle := hall _ h7 {()}
  rw [Finset.sum_singleton] at hle
  have hboth : (10 : ℚ) + 10 ≤ 10 := hle
  norm_num at hboth

end ProtectWorld
end QuantEmbrace
