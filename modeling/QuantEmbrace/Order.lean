import Mathlib.Data.List.Basic

/-! Order models: the enumerations of the order lifecycle and the table of its
permitted status changes. -/
namespace QuantEmbrace

inductive OrderStatus where
  | pending | ackUnknown | placed | partiallyFilled | filled | cancelled | rejected | flattening
  deriving DecidableEq, Repr

inductive OrderSide where
  | buy | sell
  deriving DecidableEq, Repr

inductive Market where
  | nse | us
  deriving DecidableEq, Repr

inductive ProductType where
  | cnc | mis | nrml | day
  deriving DecidableEq, Repr

namespace OrderStatus

/- `_VALID_TRANSITIONS`; `flattening` is not a key of the table, and `.get`
   answers the empty set for it. -/
def validTransitions : OrderStatus → List OrderStatus
  | pending => [ackUnknown, placed, partiallyFilled, filled, cancelled, rejected]
  | ackUnknown => [placed, partiallyFilled, filled, cancelled, rejected]
  | placed => [filled, partiallyFilled, cancelled, rejected]
  | partiallyFilled => [filled, cancelled]
  | filled | cancelled | rejected | flattening => []

def isValidStatusTransition (previous new : OrderStatus) : Bool :=
  previous = new || new ∈ validTransitions previous

/-- Terminal states: no further transitions. -/
def Terminal (s : OrderStatus) : Prop := s = filled ∨ s = cancelled ∨ s = rejected

instance (s : OrderStatus) : Decidable s.Terminal :=
  inferInstanceAs (Decidable (_ ∨ _ ∨ _))

theorem isValidStatusTransition_iff (a b : OrderStatus) :
    isValidStatusTransition a b = true ↔ a = b ∨ b ∈ validTransitions a := by
  simp [isValidStatusTransition]

theorem Terminal.stays {a b : OrderStatus} (ha : a.Terminal)
    (h : isValidStatusTransition a b = true) : b = a := by
  obtain rfl | rfl | rfl := ha <;> cases b <;> revert h <;> decide

/-- Nothing leads back to the reservation status. -/
theorem eq_pending_of_valid {a : OrderStatus} (h : isValidStatusTransition a pending = true) :
    a = pending := by
  cases a <;> revert h <;> decide

end OrderStatus
end QuantEmbrace
