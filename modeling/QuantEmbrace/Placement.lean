import QuantEmbrace.StatusWriters

/-! One broker placement of an entry order, from the last look at the kill switch to
the recorded acknowledgement: `_place_order_with_broker_idempotency`,
`_recover_ack_unknown_order` and `record_order`, one step for each suspension. -/
namespace QuantEmbrace
open OrderStatus (isValidStatusTransition)

/-- How `broker.place_order` ends: with a response, with `NonRetryableBrokerError`,
or with any other exception. -/
inductive Answer where
  | accepted (r : OrderResponse)
  | refused
  | unknown (exc : String)
  deriving DecidableEq, Repr

def ackUnknownMessage (exc : String) : String :=
  s!"Broker placement acknowledgement unknown after entry: {exc}"

inductive Placement where
  | finding
  | found (o : Option OrderResponse)
  | limiting
  | placing
  | answered (a : Answer)
  | rejecting (c : CallPhase)
  | marking (exc : String) (c : CallPhase)
  | scanning
  | scanned (o : Option OrderResponse)
  | recording (r : OrderResponse) (c : CallPhase)
  | recorded (r : OrderResponse)
  | raised
  deriving DecidableEq, Repr

inductive PlacementEvent where
  | lookup
  | place
  | answer
  | resume
  | status (e : CallEvent)
  | fail
  deriving DecidableEq, Repr

/- `Finds` is what the broker's tag lookup may return, `Answers` how the pending
   `place_order` may end, `Sees` which statuses a read of the row may return. -/
inductive PlacementStep (Finds : Option OrderResponse → Prop) (Answers : Answer → Prop)
    (Sees : OrderStatus → Prop) (row : OrderRow) :
    Placement → PlacementEvent → OrderRow → Placement → Prop
  | find {o : Option OrderResponse} : Finds o →
      PlacementStep Finds Answers Sees row .finding .lookup row (.found o)
  | hit {r : OrderResponse} : PlacementStep Finds Answers Sees row (.found (some r)) .resume row
      (.recording r (recordOrder r).start)
  | miss : PlacementStep Finds Answers Sees row (.found none) .resume row .limiting
  | place : PlacementStep Finds Answers Sees row .limiting .place row .placing
  | answer {a : Answer} : Answers a →
      PlacementStep Finds Answers Sees row .placing .answer row (.answered a)
  | accepted {r : OrderResponse} : PlacementStep Finds Answers Sees row
      (.answered (.accepted r)) .resume row (.recording r (recordOrder r).start)
  | refused : PlacementStep Finds Answers Sees row
      (.answered .refused) .resume row (.rejecting placementRejectedWrite.start)
  | unknown {exc : String} : PlacementStep Finds Answers Sees row (.answered (.unknown exc))
      .resume row (.marking exc (markOrderAckUnknown (ackUnknownMessage exc)).start)
  | reject {c c' : CallPhase} {e : CallEvent} {row' : OrderRow} :
      CallStep Sees placementRejectedWrite row c e row' c' →
      PlacementStep Finds Answers Sees row (.rejecting c) (.status e) row' (.rejecting c')
  | rejected {ok : Bool} : PlacementStep Finds Answers Sees row
      (.rejecting (.returned ok)) .resume row .raised
  | mark {exc : String} {c c' : CallPhase} {e : CallEvent} {row' : OrderRow} :
      CallStep Sees (markOrderAckUnknown (ackUnknownMessage exc)) row c e row' c' →
      PlacementStep Finds Answers Sees row (.marking exc c) (.status e) row' (.marking exc c')
  | marked {exc : String} {ok : Bool} : PlacementStep Finds Answers Sees row
      (.marking exc (.returned ok)) .resume row .scanning
  | scan {o : Option OrderResponse} : Finds o →
      PlacementStep Finds Answers Sees row .scanning .lookup row (.scanned o)
  | recovered {r : OrderResponse} : PlacementStep Finds Answers Sees row
      (.scanned (some r)) .resume row (.recording r (recordOrder r).start)
  | unresolved : PlacementStep Finds Answers Sees row (.scanned none) .resume row .raised
  | record {r : OrderResponse} {c c' : CallPhase} {e : CallEvent} {row' : OrderRow} :
      CallStep Sees (recordOrder r) row c e row' c' →
      PlacementStep Finds Answers Sees row (.recording r c) (.status e) row' (.recording r c')
  | recorded {r : OrderResponse} : PlacementStep Finds Answers Sees row
      (.recording r (.returned true)) .resume row (.recorded r)
  | illegal {r : OrderResponse} : PlacementStep Finds Answers Sees row
      (.recording r (.returned false)) .resume row .raised
  | findFails : PlacementStep Finds Answers Sees row .finding .fail row .raised
  | limiterFails : PlacementStep Finds Answers Sees row .limiting .fail row .raised
  | scanFails : PlacementStep Finds Answers Sees row .scanning .fail row .raised

namespace Placement

/-- The flag has been tested and `place_order` may still be called. -/
def BeforeCall : Placement → Prop
  | .finding | .found _ | .limiting => True
  | _ => False

/-- Nothing was found at the broker and `place_order` comes next. -/
def Missed : Placement → Prop
  | .found none | .limiting => True
  | _ => False

theorem Missed.beforeCall {p : Placement} (h : p.Missed) : p.BeforeCall := by
  cases p with
  | finding | found | limiting => trivial
  | _ => exact h

/-- The status call in progress has passed the table check. -/
def Checked : Placement → Prop
  | .rejecting c => placementRejectedWrite.Checked c
  | .marking exc c => (markOrderAckUnknown (ackUnknownMessage exc)).Checked c
  | .recording r c => (recordOrder r).Checked c
  | _ => True

end Placement

section PlacementStep
variable {Finds : Option OrderResponse → Prop} {Answers : Answer → Prop}
  {Sees : OrderStatus → Prop} {row row' : OrderRow} {p p' : Placement} {e : PlacementEvent}

theorem PlacementStep.checked (h : PlacementStep Finds Answers Sees row p e row' p') :
    p'.Checked := by
  cases h with
  | hit | accepted | recovered => exact StatusWrite.start_checked _
  | refused | unknown => exact StatusWrite.start_checked _
  | reject hc | mark hc | record hc => exact hc.checked
  | _ => trivial

/-- The row only moves along the transition table. -/
theorem PlacementStep.valid (h : PlacementStep Finds Answers Sees row p e row' p')
    (hp : p.Checked) : isValidStatusTransition row.status row'.status = true := by
  cases h with
  | reject hc | mark hc | record hc => exact hc.valid hp
  | _ => simp [isValidStatusTransition]

/-- The call comes from the phase before it and from nowhere else. -/
theorem PlacementStep.beforeCall (h : PlacementStep Finds Answers Sees row p e row' p')
    (hp' : p'.BeforeCall) : p.BeforeCall ∧ e ≠ .place := by
  cases h with
  | find | miss => exact ⟨trivial, nofun⟩
  | _ => cases hp'

theorem PlacementStep.place_of (h : PlacementStep Finds Answers Sees row p .place row' p') :
    p = .limiting ∧ p' = .placing ∧ row' = row := by
  cases h
  exact ⟨rfl, rfl, rfl⟩

theorem PlacementStep.missed (h : PlacementStep Finds Answers Sees row p e row' p')
    (hp' : p'.Missed) : p.Missed ∨ (p = .finding ∧ Finds none) := by
  cases h with
  | @find o ho =>
    cases o with
    | none => exact Or.inr ⟨rfl, ho⟩
    | some r => cases hp'
  | miss => exact Or.inl trivial
  | _ => cases hp'

/-- When `record_order` has answered true, the row has, or was last seen with, the
status of the response. -/
theorem PlacementStep.record_granted {r : OrderResponse}
    (h : PlacementStep Finds Answers Sees row p e row' (.recording r (.returned true))) :
    row'.status = r.status ∨ Sees r.status := by
  generalize hp' : Placement.recording r (.returned true) = p' at h
  cases h with
  | hit | accepted | recovered =>
    injection hp' with hr hc
    exact absurd hc.symm (StatusWrite.start_ne_true _)
  | record hc =>
    injection hp' with hr hc'
    subst hr
    subst hc'
    obtain hset | ⟨_, hsees⟩ := hc.granted
    · exact Or.inl hset
    · exact Or.inr hsees
  | _ => cases hp'

end PlacementStep
end QuantEmbrace
