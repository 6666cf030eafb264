import QuantEmbrace.Placement

/-! One entry placement against the kill-switch cancel pass:
`_cancel_one_open_order_for_kill_switch` takes a PENDING row without broker order id
for a local matter, whatever the placing task is doing. -/
namespace QuantEmbrace
open GuardedRun
open OrderStatus (isValidStatusTransition)
variable {κ : Type*}

/-- The order on the broker's side. -/
inductive BrokerOrder where
  | uncalled
  | called
  | refused
  | live
  | ended
  deriving DecidableEq, Repr

namespace BrokerOrder

/-- The order `brokerOrderId` as the broker reports it. A terminal status is reported of
an order that has ended, and `FLATTENING` never. -/
def Reports (b : BrokerOrder) (brokerOrderId : String) (r : OrderResponse) : Prop :=
  (b = live ∨ b = ended) ∧ r.brokerOrderId = brokerOrderId ∧ r.status ≠ .flattening ∧
    (r.status.Terminal → b = ended)

/-- The tag lookup may miss the order, but shows no other. -/
def Finds (b : BrokerOrder) (brokerOrderId : String) (o : Option OrderResponse) : Prop :=
  ∀ r, o = some r → b.Reports brokerOrderId r

def Answers (b : BrokerOrder) (brokerOrderId : String) : Answer → Prop
  | .accepted r => b.Reports brokerOrderId r
  | .refused => b = refused
  | .unknown _ => True

theorem Reports.finish {b : BrokerOrder} {brokerOrderId : String} {r : OrderResponse}
    (h : b.Reports brokerOrderId r) : ended.Reports brokerOrderId r :=
  ⟨Or.inr rfl, h.2.1, h.2.2.1, fun _ => rfl⟩

end BrokerOrder

/-- `bool(order.broker_order_id)` -/
def OrderRow.HasBrokerOrderId (row : OrderRow) : Prop := row.brokerOrderId.getD "" ≠ ""

/-- The pass over one order, from the row it was shown to the end of its status call. -/
inductive CancelPhase where
  | idle
  | looked (stored : OrderRow)
  | cancellingLocally (stored : OrderRow) (reason : String) (c : CallPhase)
  | cancelledAtBroker (stored : OrderRow) (reason message : String) (c : CallPhase)
  | done

/-- The row and all rows it held before, the flag of the placing process, the placing
task (none until it has tested the flag), the broker's side, and any number of cancel
passes, of this process or another. -/
structure EntryWorld (κ : Type*) where
  row : OrderRow
  past : List OrderRow
  killSwitch : Bool
  entry : Option Placement
  broker : BrokerOrder
  cancels : κ → CancelPhase

inductive EntryEvent (κ : Type*) where
  | test
  | entry (e : PlacementEvent)
  | activate
  | clear
  | accept
  | refuse
  | finish
  | look (k : κ)
  | begin (k : κ)
  | cancel (k : κ)
  | call (k : κ) (e : CallEvent)

namespace EntryWorld

/-- `submit_order` has reserved the order. -/
def start : EntryWorld κ := ⟨.reserved, [.reserved], false, none, .uncalled, fun _ => .idle⟩

/-- A read of the row returns it as it is or as it was; the open orders come from an
index. -/
def Sees (w : EntryWorld κ) (st : OrderStatus) : Prop := ∃ r ∈ w.past, r.status = st

def setRow (w : EntryWorld κ) (row : OrderRow) : EntryWorld κ :=
  { w with row := row, past := row :: w.past }

variable [DecidableEq κ]

def setCancel (w : EntryWorld κ) (k : κ) (c : CancelPhase) : EntryWorld κ :=
  { w with cancels := Function.update w.cancels k c }

inductive Step (brokerOrderId : String) : EntryWorld κ → EntryEvent κ → EntryWorld κ → Prop
  | test {w : EntryWorld κ} : w.entry = none → w.killSwitch = false →
      Step brokerOrderId w .test { w with entry := some .finding }
  | testHalted {w : EntryWorld κ} : w.entry = none → w.killSwitch = true →
      Step brokerOrderId w .test { w with entry := some .raised }
  | entry {w : EntryWorld κ} {p p' : Placement} {e : PlacementEvent} {row : OrderRow} :
      w.entry = some p →
      PlacementStep (w.broker.Finds brokerOrderId) (w.broker.Answers brokerOrderId) w.Sees w.row
        p e row p' →
      Step brokerOrderId w (.entry e)
        { w.setRow row with
          entry := some p'
          broker := if e = .place then .called else w.broker }
  | activate {w : EntryWorld κ} : Step brokerOrderId w .activate { w with killSwitch := true }
  | clear {w : EntryWorld κ} : Step brokerOrderId w .clear { w with killSwitch := false }
  | accept {w : EntryWorld κ} : w.broker = .called →
      Step brokerOrderId w .accept { w with broker := .live }
  | refuse {w : EntryWorld κ} : w.broker = .called →
      Step brokerOrderId w .refuse { w with broker := .refused }
  | finish {w : EntryWorld κ} : w.broker = .live →
      Step brokerOrderId w .finish { w with broker := .ended }
  | look {w : EntryWorld κ} {k : κ} {stored : OrderRow} : w.cancels k = .idle →
      stored ∈ w.past → ¬ stored.status.Terminal →
      Step brokerOrderId w (.look k) (w.setCancel k (.looked stored))
  | beginLocal {w : EntryWorld κ} {k : κ} {stored : OrderRow} {reason : String} :
      w.cancels k = .looked stored → stored.status = .pending → ¬ stored.HasBrokerOrderId →
      Step brokerOrderId w (.begin k)
        (w.setCancel k (.cancellingLocally stored reason (cancelLocalWrite stored reason).start))
  -- ACK_UNKNOWN, or nothing to cancel by
  | leave {w : EntryWorld κ} {k : κ} {stored : OrderRow} :
      w.cancels k = .looked stored → stored.status ≠ .pending → ¬ stored.HasBrokerOrderId →
      Step brokerOrderId w (.begin k) (w.setCancel k .done)
  -- `cancel_order` returns when the order has ended
  | cancel {w : EntryWorld κ} {k : κ} {stored : OrderRow} {reason message : String} :
      w.cancels k = .looked stored → stored.HasBrokerOrderId →
      w.broker = .live ∨ w.broker = .ended →
      Step brokerOrderId w (.cancel k)
        { w.setCancel k (.cancelledAtBroker stored reason message
            (cancelAtBrokerWrite stored reason message).start) with broker := .ended }
  | cancelFails {w : EntryWorld κ} {k : κ} {stored : OrderRow} :
      w.cancels k = .looked stored → stored.HasBrokerOrderId →
      Step brokerOrderId w (.cancel k) (w.setCancel k .done)
  | callLocal {w : EntryWorld κ} {k : κ} {stored : OrderRow} {reason : String} {e : CallEvent}
      {c c' : CallPhase} {row : OrderRow} : w.cancels k = .cancellingLocally stored reason c →
      CallStep w.Sees (cancelLocalWrite stored reason) w.row c e row c' →
      Step brokerOrderId w (.call k e)
        ((w.setRow row).setCancel k (.cancellingLocally stored reason c'))
  | callAtBroker {w : EntryWorld κ} {k : κ} {stored : OrderRow} {reason message : String}
      {e : CallEvent} {c c' : CallPhase} {row : OrderRow} :
      w.cancels k = .cancelledAtBroker stored reason message c →
      CallStep w.Sees (cancelAtBrokerWrite stored reason message) w.row c e row c' →
      Step brokerOrderId w (.call k e)
        ((w.setRow row).setCancel k (.cancelledAtBroker stored reason message c'))

end EntryWorld

namespace Placement

/-- The broker's order the task holds. -/
def response : Placement → Option OrderResponse
  | .found o | .scanned o => o
  | .answered (.accepted r) => some r
  | .recording r _ | .recorded r => some r
  | _ => none

def Refused : Placement → Prop
  | .answered .refused | .rejecting _ => True
  | _ => False

/-- The call has been made and its outcome is not on the row yet. -/
def InFlight : Placement → Prop
  | .placing | .answered _ => True
  | .marking _ c | .recording _ c => c = .reading ∨ c = .writing .pending
  | _ => False

end Placement

/-- The order can be found again: by its broker order id or by the tag scan. -/
def OrderRow.Traced (brokerOrderId : String) (row : OrderRow) : Prop :=
  row.brokerOrderId = some brokerOrderId ∨ row.status = .ackUnknown

section Steps
variable {b : BrokerOrder} {brokerOrderId : String} {Sees : OrderStatus → Prop}
  {row row' : OrderRow} {p p' : Placement} {e : PlacementEvent}

theorem PlacementStep.reports
    (h : PlacementStep (b.Finds brokerOrderId) (b.Answers brokerOrderId) Sees row p e row' p')
    (hp : ∀ r, p.response = some r → b.Reports brokerOrderId r) :
    ∀ r, p'.response = some r → b.Reports brokerOrderId r := by
  intro r hr
  cases h with
  | find ho | scan ho => exact ho r hr
  | @answer a ha =>
    cases a with
    | accepted r' =>
      cases hr
      exact ha
    | _ => cases hr
  | hit | accepted | recovered | record | recorded => exact hp r hr
  | _ => cases hr

theorem PlacementStep.refused_of
    (h : PlacementStep (b.Finds brokerOrderId) (b.Answers brokerOrderId) Sees row p e row' p')
    (hp : p.Refused → b = .refused) (hp' : p'.Refused) : b = .refused := by
  cases h with
  | @answer a ha =>
    cases a with
    | refused => exact ha
    | _ => cases hp'
  | refused | reject => exact hp trivial
  | _ => cases hp'

theorem CallStep.row_eq {w : StatusWrite} {c c' : CallPhase} {e : CallEvent}
    (h : CallStep Sees w row c e row' c') (hl : ¬ (e.lands ∧ c = .writing row.status)) :
    row' = row := by
  cases h with
  | write hp | failWritten hp => exact absurd ⟨rfl, by rw [hp]⟩ hl
  | _ => rfl

/-- A call that starts on a PENDING row, undisturbed by other writes. -/
theorem CallStep.of_pending {w : StatusWrite} {c c' : CallPhase} {e : CallEvent}
    (h : CallStep Sees w row c e row' c') (hrow : row.status = .pending)
    (hsees : ∀ st, Sees st → st = .pending) (hc : c = .reading ∨ c = .writing .pending)
    (hvalid : isValidStatusTransition .pending w.newStatus = true) (hfail : ∀ a, e ≠ .fail a) :
    (row' = row ∧ c' = .writing .pending) ∨ row' = w.set row := by
  cases h with
  | read st hs =>
    left
    rw [hsees st hs, StatusWrite.validate, if_pos hvalid]
    exact ⟨rfl, rfl⟩
  | write => exact Or.inr rfl
  | refused hne =>
    obtain h | h := hc
    · cases h
    · cases h
      exact absurd hrow hne
  | reread => obtain h | h := hc <;> cases h
  | failRead | failWrite | failWritten | failReread => exact absurd rfl (hfail _)

/-- A status call whose write leaves a trace of the order. -/
theorem CallStep.traced {w : StatusWrite} {c c' : CallPhase} {e : CallEvent}
    (h : CallStep Sees w row c e row' c')
    (hset : ¬ w.newStatus.Terminal ∧ (w.set row).Traced brokerOrderId)
    (hvalid : isValidStatusTransition .pending w.newStatus = true)
    (hsees : row.status = .pending → ∀ st, Sees st → st = .pending) (hfail : ∀ a, e ≠ .fail a)
    (hrow : ¬ row.status.Terminal ∧ (row.Traced brokerOrderId ∨
      (row.status = .pending ∧ (c = .reading ∨ c = .writing .pending)))) :
    ¬ row'.status.Terminal ∧ (row'.Traced brokerOrderId ∨
      (row'.status = .pending ∧ (c' = .reading ∨ c' = .writing .pending))) := by
  obtain ⟨hopen, htraced | ⟨hpending, hc⟩⟩ := hrow
  · obtain rfl | ⟨_, rfl⟩ := h.row_cases
    · exact ⟨hopen, Or.inl htraced⟩
    · exact ⟨hset.1, Or.inl hset.2⟩
  · obtain ⟨rfl, rfl⟩ | rfl := h.of_pending hpending (hsees hpending) hc hvalid hfail
    · exact ⟨hopen, Or.inr ⟨hpending, Or.inr rfl⟩⟩
    · exact ⟨hset.1, Or.inl hset.2⟩

theorem isValidStatusTransition_pending {st : OrderStatus} (h : st ≠ .flattening) :
    isValidStatusTransition .pending st = true := by
  cases st <;> first | decide | exact absurd rfl h

/-- One step of a placement that may leave, or has left, a live order. -/
theorem PlacementStep.traced
    (h : PlacementStep (b.Finds brokerOrderId) (b.Answers brokerOrderId) Sees row p e row' p')
    (hlive : p'.BeforeCall ∨ e = .place ∨ b = .called ∨ b = .live)
    (hbefore : p.BeforeCall → b = .uncalled) (hended : b ≠ .refused ∧ b ≠ .ended)
    (hrefused : p.Refused → b = .refused)
    (hreports : ∀ r, p.response = some r → b.Reports brokerOrderId r)
    (hsees : row.status = .pending → ∀ st, Sees st → st = .pending)
    (hfail : ∀ a, e ≠ .status (.fail a))
    (hrow : ¬ row.status.Terminal ∧ (row.Traced brokerOrderId ∨
      (row.status = .pending ∧ (p.BeforeCall ∨ p.InFlight)))) :
    ¬ row'.status.Terminal ∧ (row'.Traced brokerOrderId ∨
      (row'.status = .pending ∧ (p'.BeforeCall ∨ p'.InFlight))) := by
  have hcall {w : StatusWrite} {c c' : CallPhase} {ce : CallEvent}
      (hc : CallStep Sees w row c ce row' c') (he : e = .status ce)
      (hp : p.BeforeCall ∨ p.InFlight → c = .reading ∨ c = .writing .pending)
      (hset : ¬ w.newStatus.Terminal ∧ (w.set row).Traced brokerOrderId)
      (hvalid : isValidStatusTransition .pending w.newStatus = true) :=
    hc.traced hset hvalid hsees (fun a ha => hfail a (by rw [he, ha]))
      ⟨hrow.1, hrow.2.imp_right (And.imp_right hp)⟩
  cases h with
  | find | miss => exact ⟨hrow.1, hrow.2.imp_right fun h => ⟨h.1, Or.inl trivial⟩⟩
  | place | answer => exact ⟨hrow.1, hrow.2.imp_right fun h => ⟨h.1, Or.inr trivial⟩⟩
  | hit | accepted | unknown | recovered =>
    exact ⟨hrow.1, hrow.2.imp_right fun h => ⟨h.1, Or.inr (Or.inl rfl)⟩⟩
  | refused | reject | rejected => exact absurd (hrefused trivial) hended.1
  | mark hc =>
    have h := hcall hc rfl (fun h => h.resolve_left id)
      ⟨(by decide : ¬ OrderStatus.ackUnknown.Terminal), Or.inr rfl⟩ rfl
    exact ⟨h.1, h.2.imp_right fun h => ⟨h.1, Or.inr h.2⟩⟩
  | @record r c c' ce _ hc =>
    obtain ⟨_, hid, hflat, hterm⟩ := hreports r rfl
    have h := hcall hc rfl (fun h => h.resolve_left id)
      ⟨fun ht => hended.2 (hterm ht), Or.inl (congrArg some hid)⟩
      (isValidStatusTransition_pending hflat)
    exact ⟨h.1, h.2.imp_right fun h => ⟨h.1, Or.inr h.2⟩⟩
  | findFails | limiterFails =>
    have hb : b = .uncalled := hbefore trivial
    subst hb
    obtain h | h | h | h := hlive
    · cases h
    · cases h
    · cases h
    · cases h
  | marked | recorded | illegal =>
    refine ⟨hrow.1, Or.inl (hrow.2.resolve_right fun h => ?_)⟩
    obtain h | h | h := h.2
    · exact h
    · cases h
    · cases h
  | scan | unresolved | scanFails =>
    exact ⟨hrow.1, Or.inl (hrow.2.resolve_right fun h => h.2.elim id id)⟩

end Steps

/-- The status call of the pass has passed the table check. -/
def CancelPhase.Checked : CancelPhase → Prop
  | .cancellingLocally stored reason c => (cancelLocalWrite stored reason).Checked c
  | .cancelledAtBroker stored reason message c =>
    (cancelAtBrokerWrite stored reason message).Checked c
  | _ => True

def CancelPhase.AtBroker : CancelPhase → Prop
  | .cancelledAtBroker _ _ _ _ => True
  | _ => False

namespace EntryWorld
variable {w w' : EntryWorld κ} {ev : EntryEvent κ} {brokerOrderId : String}

/-- The broker has the order, or may still come to have it. -/
def Open (w : EntryWorld κ) : Prop :=
  (∃ p, w.entry = some p ∧ p.BeforeCall) ∨ w.broker = .called ∨ w.broker = .live

/-- A live order's row is not terminal and leads to the order, unless the answer of the
call is still on its way to the row. -/
def Visible (brokerOrderId : String) (w : EntryWorld κ) : Prop :=
  w.broker = .live → ¬ w.row.status.Terminal ∧ (w.row.Traced brokerOrderId ∨
    (w.row.status = .pending ∧ ∃ p, w.entry = some p ∧ p.InFlight))

/-- The row is cancelled locally only when the order is not open, the flag test lets no
placement pass over a row that is terminal already, and no status request of the
placement of an open order errors. -/
def CalmCancel (w : EntryWorld κ) : EntryEvent κ → Prop
  | .test => w.killSwitch = false → ¬ w.row.status.Terminal
  | .entry e => (∃ a, e = .status (.fail a)) → ¬ w.Open
  | .call k e => e.lands → (∃ stored reason,
      w.cancels k = .cancellingLocally stored reason (.writing w.row.status)) → ¬ w.Open
  | _ => True

structure Sound (brokerOrderId : String) (w : EntryWorld κ) : Prop where
  untested : w.entry = none → w.row.status = .pending ∨ w.row.status.Terminal
  uncalled : (∀ p, w.entry = some p → p.BeforeCall) → w.broker = .uncalled
  refused : ∀ p, w.entry = some p → p.Refused → w.broker = .refused
  reports : ∀ p r, w.entry = some p → p.response = some r → w.broker.Reports brokerOrderId r
  checked : ∀ p, w.entry = some p → p.Checked
  cancelChecked : ∀ k, (w.cancels k).Checked
  atBroker : ∀ k, (w.cancels k).AtBroker → w.broker = .ended
  past : w.row.status = .pending → ∀ r ∈ w.past, r.status = .pending
  traced : w.Open → ¬ w.row.status.Terminal ∧ (w.row.Traced brokerOrderId ∨
    (w.row.status = .pending ∧ ∃ p, w.entry = some p ∧ (p.BeforeCall ∨ p.InFlight)))

theorem start_sound : Sound brokerOrderId (start : EntryWorld κ) where
  untested _ := Or.inl rfl
  uncalled _ := rfl
  refused _ h := nomatch h
  reports _ _ h := nomatch h
  checked _ h := nomatch h
  cancelChecked _ := trivial
  atBroker _ h := absurd h id
  past _ r hr := by
    rw [List.mem_singleton.mp hr]
    rfl
  traced h := by
    obtain ⟨p, hp, _⟩ | h | h := h
    · cases hp
    · cases h
    · cases h

theorem Sound.uncalled_of (hw : Sound brokerOrderId w) {p : Placement} (hp : w.entry = some p)
    (hb : p.BeforeCall) : w.broker = .uncalled := by
  refine hw.uncalled fun q hq => ?_
  cases hp.symm.trans hq
  exact hb

theorem Sound.open_ne (hw : Sound brokerOrderId w) (h : w.Open) :
    w.broker ≠ .refused ∧ w.broker ≠ .ended := by
  obtain ⟨p, hp, hb⟩ | h | h := h
  · rw [hw.uncalled_of hp hb]
    decide
  · rw [h]
    decide
  · rw [h]
    decide

theorem Sound.visible (hw : Sound brokerOrderId w) : Visible brokerOrderId w := by
  intro hl
  obtain ⟨hopen, htraced⟩ := hw.traced (Or.inr (Or.inr hl))
  refine ⟨hopen, htraced.imp_right ?_⟩
  intro ⟨hpending, p, hp, h⟩
  refine ⟨hpending, p, hp, h.resolve_left fun hb => ?_⟩
  rw [hw.uncalled_of hp hb] at hl
  cases hl

theorem Sound.tested (hw : Sound brokerOrderId w) (he : w.entry = none) {p : Placement}
    (hp : (p = .finding ∧ ¬ w.row.status.Terminal) ∨ p = .raised) :
    Sound brokerOrderId { w with entry := some p } := by
  have hb : w.broker = .uncalled := hw.uncalled fun q hq => by rw [he] at hq; cases hq
  refine ⟨nofun, fun _ => hb, ?_, ?_, ?_, hw.cancelChecked, hw.atBroker, hw.past, ?_⟩
  · intro q hq hr
    cases hq
    obtain ⟨rfl, _⟩ | rfl := hp <;> cases hr
  · intro q r hq hr
    cases hq
    obtain ⟨rfl, _⟩ | rfl := hp <;> cases hr
  · intro q hq
    cases hq
    obtain ⟨rfl, _⟩ | rfl := hp <;> trivial
  · intro h
    obtain ⟨rfl, hopen⟩ | rfl := hp
    · have hpending := (hw.untested he).resolve_right hopen
      exact ⟨hopen, Or.inr ⟨hpending, _, rfl, Or.inl trivial⟩⟩
    · obtain ⟨q, hq, hbefore⟩ | h | h := h
      · cases hq
        cases hbefore
      · cases hb.symm.trans h
      · cases hb.symm.trans h

/-- The order ends, by itself or by a cancellation. -/
theorem Sound.finish (hw : Sound brokerOrderId w) (hb : w.broker = .live ∨ w.broker = .ended) :
    Sound brokerOrderId { w with broker := .ended } := by
  have hcalled : ¬ ∀ p, w.entry = some p → p.BeforeCall := by
    intro h
    rw [hw.uncalled h] at hb
    obtain hb | hb := hb <;> cases hb
  refine ⟨hw.untested, fun h => absurd h hcalled, ?_,
    fun p r hp hr => (hw.reports p r hp hr).finish, hw.checked, hw.cancelChecked,
    fun _ _ => rfl, hw.past, ?_⟩
  · intro p hp hr
    rw [hw.refused p hp hr] at hb
    obtain hb | hb := hb <;> cases hb
  · intro h
    obtain ⟨p, hp, hbefore⟩ | h | h := h
    · rw [hw.uncalled_of hp hbefore] at hb
      obtain hb | hb := hb <;> cases hb
    · cases h
    · cases h

/-- A row that is still pending has been pending in all its versions. -/
theorem Sound.past_setRow (hw : Sound brokerOrderId w) {row : OrderRow}
    (hvalid : isValidStatusTransition w.row.status row.status = true)
    (hpending : row.status = .pending) : ∀ r ∈ row :: w.past, r.status = .pending := by
  intro r hr
  obtain rfl | hr := List.mem_cons.mp hr
  · exact hpending
  · refine hw.past ?_ r hr
    rw [hpending] at hvalid
    exact OrderStatus.eq_pending_of_valid hvalid

theorem Sound.setRow (hw : Sound brokerOrderId w) {row : OrderRow}
    (hvalid : isValidStatusTransition w.row.status row.status = true)
    (hrow : row = w.row ∨ (row.status = .cancelled ∧ ¬ w.Open)) :
    Sound brokerOrderId (w.setRow row) := by
  refine ⟨?_, hw.uncalled, hw.refused, hw.reports, hw.checked, hw.cancelChecked, hw.atBroker,
    hw.past_setRow hvalid, ?_⟩
  · intro he
    obtain rfl | ⟨hc, _⟩ := hrow
    · exact hw.untested he
    · exact Or.inr (Or.inr (Or.inl hc))
  · intro h
    obtain rfl | ⟨_, hclosed⟩ := hrow
    · exact hw.traced h
    · exact absurd h hclosed

variable [DecidableEq κ]

theorem Sound.setCancel (hw : Sound brokerOrderId w) {k : κ} {c : CancelPhase} (hc : c.Checked)
    (hb : c.AtBroker → w.broker = .ended) : Sound brokerOrderId (w.setCancel k c) := by
  refine ⟨hw.untested, hw.uncalled, hw.refused, hw.reports, hw.checked, ?_, ?_, hw.past,
    hw.traced⟩
  · exact (Function.forall_update_iff w.cancels fun _ c => c.Checked).mpr
      ⟨hc, fun j _ => hw.cancelChecked j⟩
  · exact (Function.forall_update_iff w.cancels fun _ c => c.AtBroker → w.broker = .ended).mpr
      ⟨hb, fun j _ => hw.atBroker j⟩

section Entry
omit [DecidableEq κ]
variable {p p' : Placement} {e : PlacementEvent} {row : OrderRow}

/-- What a step of the placement leaves of an open order is still traced by the row. -/
theorem Sound.traced_entry (hw : Sound brokerOrderId w) (hp : w.entry = some p)
    (hok : CalmCancel w (.entry e))
    (hstep : PlacementStep (w.broker.Finds brokerOrderId) (w.broker.Answers brokerOrderId) w.Sees
      w.row p e row p')
    (hlive : p'.BeforeCall ∨ e = .place ∨ w.broker = .called ∨ w.broker = .live) :
    ¬ row.status.Terminal ∧ (row.Traced brokerOrderId ∨
      (row.status = .pending ∧ (p'.BeforeCall ∨ p'.InFlight))) := by
  have hsees (h : w.row.status = .pending) (st : OrderStatus) (hs : w.Sees st) :
      st = .pending := by
    obtain ⟨r, hr, rfl⟩ := hs
    exact hw.past h r hr
  have hopen : w.Open := by
    obtain h | h | h := hlive
    · exact Or.inl ⟨p, hp, (hstep.beforeCall h).1⟩
    · subst h
      obtain ⟨rfl, _, _⟩ := hstep.place_of
      exact Or.inl ⟨_, hp, trivial⟩
    · exact Or.inr h
  obtain ⟨hrow, htraced⟩ := hw.traced hopen
  have htraced' : w.row.Traced brokerOrderId ∨
      (w.row.status = .pending ∧ (p.BeforeCall ∨ p.InFlight)) := by
    refine htraced.imp_right fun ⟨hpending, q, hq, hs⟩ => ?_
    cases hp.symm.trans hq
    exact ⟨hpending, hs⟩
  exact hstep.traced hlive (hw.uncalled_of hp) (hw.open_ne hopen) (hw.refused p hp)
    (fun r => hw.reports p r hp) hsees (fun a ha => hok ⟨a, ha⟩ hopen) ⟨hrow, htraced'⟩

theorem Sound.entry (hw : Sound brokerOrderId w) (hp : w.entry = some p)
    (hok : CalmCancel w (.entry e))
    (hstep : PlacementStep (w.broker.Finds brokerOrderId) (w.broker.Answers brokerOrderId) w.Sees
      w.row p e row p') :
    Sound brokerOrderId { w.setRow row with
      entry := some p', broker := if e = .place then .called else w.broker } := by
  have hvalid := hstep.valid (hw.checked p hp)
  -- a phase that says more than "called" is not entered by the call itself
  have hquiet (h : p' ≠ .placing) : e ≠ .place := by
    intro he
    subst he
    exact h hstep.place_of.2.1
  refine ⟨nofun, ?_, ?_, ?_, ?_, hw.cancelChecked, ?_, hw.past_setRow hvalid, ?_⟩
  · intro h
    obtain ⟨hbefore, hne⟩ := hstep.beforeCall (h p' rfl)
    simpa [hne] using hw.uncalled_of hp hbefore
  · intro q hq hr
    cases hq
    have hne := hquiet (by rintro rfl; exact hr)
    simpa [hne] using hstep.refused_of (hw.refused p hp) hr
  · intro q r hq hr
    cases hq
    have hne := hquiet (by rintro rfl; cases hr)
    simpa [hne] using hstep.reports (fun r => hw.reports p r hp) r hr
  · intro q hq
    cases hq
    exact hstep.checked
  · intro k hk
    have hended := hw.atBroker k hk
    have hne : e ≠ .place := by
      intro he
      subst he
      obtain ⟨rfl, _, _⟩ := hstep.place_of
      rw [hw.uncalled_of hp trivial] at hended
      cases hended
    simpa [hne] using hended
  · intro h
    have hlive : p'.BeforeCall ∨ e = .place ∨ w.broker = .called ∨ w.broker = .live := by
      by_cases he : e = .place
      · exact Or.inr (Or.inl he)
      · obtain ⟨q, hq, hb⟩ | h := h
        · cases hq
          exact Or.inl hb
        · simp only [if_neg he] at h
          exact Or.inr (Or.inr h)
    obtain ⟨hrow, htraced⟩ := hw.traced_entry hp hok hstep hlive
    exact ⟨hrow, htraced.imp_right fun ⟨hpending, hs⟩ => ⟨hpending, p', rfl, hs⟩⟩

end Entry

section Broker
omit [DecidableEq κ]

theorem Sound.accept (hw : Sound brokerOrderId w) (hb : w.broker = .called) :
    Sound brokerOrderId { w with broker := .live } := by
  have hcalled := hw.traced (Or.inr (Or.inl hb))
  refine ⟨hw.untested, ?_, ?_, ?_, hw.checked, hw.cancelChecked, ?_, hw.past, fun _ => hcalled⟩
  · intro h
    cases hb.symm.trans (hw.uncalled h)
  · intro p hp hr
    cases hb.symm.trans (hw.refused p hp hr)
  · intro p r hp hr
    obtain ⟨hb' | hb', _⟩ := hw.reports p r hp hr <;> cases hb.symm.trans hb'
  · intro k hk
    cases hb.symm.trans (hw.atBroker k hk)

theorem Sound.refuse (hw : Sound brokerOrderId w) (hb : w.broker = .called) :
    Sound brokerOrderId { w with broker := .refused } := by
  refine ⟨hw.untested, ?_, fun _ _ _ => rfl, ?_, hw.checked, hw.cancelChecked, ?_, hw.past, ?_⟩
  · intro h
    cases hb.symm.trans (hw.uncalled h)
  · intro p r hp hr
    obtain ⟨hb' | hb', _⟩ := hw.reports p r hp hr <;> cases hb.symm.trans hb'
  · intro k hk
    cases hb.symm.trans (hw.atBroker k hk)
  · intro h
    obtain ⟨p, hp, hbefore⟩ | h | h := h
    · cases hb.symm.trans (hw.uncalled_of hp hbefore)
    · cases h
    · cases h

end Broker

theorem step_sound (hw : Sound brokerOrderId w) (hok : CalmCancel w ev)
    (h : Step brokerOrderId w ev w') : Sound brokerOrderId w' := by
  cases h with
  | test he hk => exact hw.tested he (Or.inl ⟨rfl, hok hk⟩)
  | testHalted he _ => exact hw.tested he (Or.inr rfl)
  | entry hp hstep => exact hw.entry hp hok hstep
  | activate | clear =>
    exact ⟨hw.untested, hw.uncalled, hw.refused, hw.reports, hw.checked, hw.cancelChecked,
      hw.atBroker, hw.past, hw.traced⟩
  | accept hb => exact hw.accept hb
  | refuse hb => exact hw.refuse hb
  | finish hb => exact hw.finish (Or.inl hb)
  | look | leave | cancelFails => exact hw.setCancel trivial (fun h => absurd h id)
  | beginLocal => exact hw.setCancel (StatusWrite.start_checked _) (fun h => absurd h id)
  | cancel _ _ hb => exact (hw.finish hb).setCancel (StatusWrite.start_checked _) (fun _ => rfl)
  | @callLocal k stored reason e c c' row hc hstep =>
    have hchecked := hw.cancelChecked k
    rw [hc] at hchecked
    refine (hw.setRow (hstep.valid hchecked) ?_).setCancel hstep.checked (fun h => absurd h id)
    by_cases hl : e.lands ∧ c = .writing w.row.status
    · obtain ⟨hl, rfl⟩ := hl
      obtain h | ⟨_, h⟩ := hstep.row_cases
      · exact Or.inl h
      · exact Or.inr ⟨by rw [h]; rfl, hok hl ⟨stored, reason, hc⟩⟩
    · exact Or.inl (hstep.row_eq hl)
  | @callAtBroker k stored reason message e c c' row hc hstep =>
    have hchecked := hw.cancelChecked k
    rw [hc] at hchecked
    have hb := hw.atBroker k (by rw [hc]; trivial)
    refine (hw.setRow (hstep.valid hchecked) ?_).setCancel hstep.checked (fun _ => hb)
    obtain h | ⟨_, h⟩ := hstep.row_cases
    · exact Or.inl h
    · exact Or.inr ⟨by rw [h]; rfl, fun ho => (hw.open_ne ho).2 hb⟩

/-- When no order that is or may become live is cancelled locally, a live broker order
never hides behind a terminal row, whatever the cancel passes see and when they run. -/
theorem live_order_visible
    (hr : Reaches (Step brokerOrderId) CalmCancel (start : EntryWorld κ) w) :
    Visible brokerOrderId w :=
  (Reaches.invariant (fun _ _ _ hs ho hst => step_sound hs ho hst) hr start_sound).visible

def acknowledged : OrderResponse := { brokerOrderId := "B1", status := .placed }

/-- The placement on its own, up to the broker's acceptance. -/
theorem accepted_reaches (ok : EntryWorld κ → EntryEvent κ → Prop)
    (htest : ∀ w, w.row = .reserved → ok w .test)
    (hentry : ∀ w e, (∀ c, e ≠ .status c) → ok w (.entry e)) (haccept : ∀ w, ok w .accept) :
    Reaches (Step "B1") ok (start : EntryWorld κ)
      { start with
        past := [.reserved, .reserved, .reserved, .reserved]
        entry := some .placing
        broker := .live } := by
  have h1 : Reaches (Step "B1") ok (start : EntryWorld κ) _ :=
    Reaches.next .refl (htest _ rfl) (.test rfl rfl)
  have h2 := h1.next (hentry _ _ (by nofun)) (.entry rfl (.find (o := none) nofun))
  have h3 := h2.next (hentry _ _ (by nofun)) (.entry rfl .miss)
  have h4 := h3.next (hentry _ _ (by nofun)) (.entry rfl .place)
  exact h4.next (haccept _) (.accept rfl)

theorem live_order_visible_acknowledged :
    ∃ w : EntryWorld Unit, w.broker = .live ∧ w.row.status = .placed ∧ Visible "B1" w := by
  have hok (w : EntryWorld Unit) (e : PlacementEvent) (he : ∀ a, e ≠ .status (.fail a)) :
      CalmCancel w (.entry e) := fun ⟨a, ha⟩ => absurd ha (he a)
  have hans : BrokerOrder.live.Answers "B1" (.accepted acknowledged) :=
    ⟨Or.inl rfl, rfl, by decide, by decide⟩
  have h := accepted_reaches CalmCancel (fun w hw _ => by rw [hw]; decide)
    (fun w e he => hok w e fun a => he _) (fun _ => trivial)
  have h1 := h.next (hok _ _ (by nofun)) (.entry rfl (.answer hans))
  have h2 := h1.next (hok _ _ (by nofun)) (.entry rfl .accepted)
  have h3 := h2.next (hok _ _ (by nofun))
    (.entry rfl (.record (.read .pending ⟨.reserved, List.mem_cons_self, rfl⟩)))
  have h4 := h3.next (hok _ _ (by nofun)) (.entry rfl (.record (.write rfl)))
  exact ⟨_, rfl, rfl, live_order_visible h4⟩

/-- The pass sees the reserved row, the broker accepts the order, and the row becomes
CANCELLED before the acknowledgement is recorded. -/
theorem live_order_cancelled_locally :
    ¬ ∀ w : EntryWorld Unit, Reaches (Step "B1") (fun _ _ => True) start w → Visible "B1" w := by
  intro hall
  have h := accepted_reaches (κ := Unit) (fun _ _ => True) (fun _ _ => trivial)
    (fun _ _ _ => trivial) (fun _ => trivial)
  have h1 := h.next trivial .activate
  have hseen : OrderRow.reserved ∈ [.reserved, .reserved, .reserved, .reserved] :=
    List.mem_cons_self
  have h2 := h1.next trivial (.look (k := ()) rfl hseen (by decide))
  have h3 := h2.next trivial (show Step "B1" _ (.begin ())
      (setCancel _ () (.cancellingLocally .reserved "halt" .reading)) from
    .beginLocal rfl rfl fun h => h rfl)
  have h4 := h3.next trivial
    (.callLocal (k := ()) rfl (.read .pending ⟨.reserved, List.mem_cons_self, rfl⟩))
  have h5 := h4.next trivial (.callLocal (k := ()) rfl (.write rfl))
  exact (hall _ h5 rfl).1 (Or.inr (Or.inl rfl))

end EntryWorld
end QuantEmbrace
