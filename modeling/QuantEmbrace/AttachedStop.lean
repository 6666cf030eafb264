import QuantEmbrace.TradeExitEngine
import QuantEmbrace.PaperOrder

/-! The stop on the position row of one symbol over paper signals that each carry a stop,
with passes of the trade exit engine in between. -/
namespace QuantEmbrace
open GuardedRun

/-- A paper signal with the stop it carries; the fill price is that of the simulator. -/
structure StoppedSignal extends PaperSignal where
  symbol : String
  side : OrderSide
  market : Option Market
  priceAtSignal : ℚ
  stopLoss : ℚ
  takeProfit : Option ℚ
  policyId : String
  now : String

/-- The call gets past the duplicate checks, the position update and the policy write go
through. -/
structure Handling where
  reached : Bool
  fillWritten : Bool
  policyWritten : Bool

inductive PositionEvent where
  | signal (s : StoppedSignal) (h : Handling)
  | engine (pass : EnginePass)

def OrderSide.direction : OrderSide → Direction
  | .buy => .long
  | .sell => .short

namespace StoppedSignal

def fill (s : StoppedSignal) : Fill where
  symbol := s.symbol
  side := s.side
  quantity := s.filledQuantity
  price := s.fillPrice
  lastPrice := s.fillPrice
  market := s.market
  now := s.now

/-- The order is filled, in part or whole. -/
def Fills (s : StoppedSignal) (h : Handling) : Prop :=
  h.reached = true ∧ 0 < s.filledQuantity ∧ s.status ≠ .rejected

instance (s : StoppedSignal) (h : Handling) : Decidable (s.Fills h) :=
  inferInstanceAs (Decidable (_ ∧ _ ∧ _))

/-- `_handle_paper_order` as far as it writes the position row. -/
def handle (s : StoppedSignal) (h : Handling) (r : ManagedRow) : ManagedRow :=
  if s.Fills h then
    let r := if h.fillWritten then r.applyFill s.fill else r
    if h.policyWritten then r.attachExitPolicy (some s.stopLoss) s.takeProfit s.policyId else r
  else r

/-- The stop lies below the price of a buy and above the price of a sale. -/
structure CarriesStop (s : StoppedSignal) : Prop where
  positive : 0 < s.stopLoss
  buy : s.side = .buy → s.stopLoss < s.priceAtSignal
  sell : s.side = .sell → s.priceAtSignal < s.stopLoss

end StoppedSignal

/-- The row, and the price of the signal if one was handled last. -/
structure StopState where
  row : ManagedRow
  price : Option ℚ := none

def StopState.step (st : StopState) : PositionEvent → StopState
  | .signal s h => ⟨s.handle h st.row, some s.priceAtSignal⟩
  | .engine pass => ⟨pass.run st.row, none⟩

/-- The stop, if any, is below the price for a long and above it for a short. -/
def OnLossSide (direction : Option Direction) (stop : Option ℚ) (price : ℚ) : Prop :=
  ∀ level, stop = some level →
    match direction with
    | some .long => level < price
    | some .short => price < level
    | _ => True

/-- After a handled signal the stored stop protects the side that is held. -/
def StopState.Protected (st : StopState) : Prop :=
  ∀ price, st.price = some price → OnLossSide st.row.direction st.row.stopPrice price

/-- The side that a fill leaves of a position; a sale rounds what is next to nothing to flat. -/
def leaves (old : ℚ) (side : OrderSide) (quantity : ℚ) : Direction :=
  match side with
  | .buy => directionOf (old + quantity)
  | .sell => if |old - quantity| ≤ flatTolerance then .flat else directionOf (old - quantity)

/-- The side held once the signal is handled. -/
def heldAfter (r : ManagedRow) (s : StoppedSignal) (h : Handling) : Option Direction :=
  if s.Fills h ∧ h.fillWritten = true then some (leaves r.oldQty s.side s.filledQuantity)
  else r.direction

/-- A signal that attaches its stop leaves a position of its own side or none; any other
leaves one that the stop on the row still fits. -/
def StopSafe (st : StopState) : PositionEvent → Prop
  | .engine _ => True
  | .signal s h =>
    let held := heldAfter st.row s h
    if s.Fills h ∧ h.policyWritten = true then
      ∀ d, held = some d → d = .flat ∨ d = s.side.direction
    else OnLossSide held st.row.stopPrice s.priceAtSignal

theorem directionOf_sellFigures (old : Figures) (q p : ℚ) :
    directionOf (sellFigures old q p).qty =
      if |old.qty - q| ≤ flatTolerance then .flat else directionOf (old.qty - q) := by
  unfold sellFigures
  by_cases hpos : old.qty - q > flatTolerance
  · have habs : ¬ |old.qty - q| ≤ flatTolerance := by
      rw [abs_of_pos (flatTolerance_pos.trans hpos)]
      exact not_le.mpr hpos
    simp only [if_pos hpos, if_neg habs]
  · by_cases hneg : old.qty - q < -flatTolerance
    · have habs : ¬ |old.qty - q| ≤ flatTolerance := fun h => by
        have := (abs_le.mp h).1
        linarith
      simp only [if_neg hpos, if_pos hneg, if_neg habs]
    · have habs : |old.qty - q| ≤ flatTolerance := abs_le.mpr ⟨not_lt.mp hneg, not_lt.mp hpos⟩
      simp only [if_neg hpos, if_neg hneg, if_pos habs]
      rfl

theorem applyFill_direction (r : ManagedRow) (f : Fill) :
    (r.applyFill f).direction = some (leaves r.oldQty f.side f.quantity) := by
  change some (directionOf (fillFigures r.figures f.side f.quantity f.price).qty) = _
  unfold leaves
  cases f.side with
  | buy => rfl
  | sell => exact congrArg some (directionOf_sellFigures r.figures f.quantity f.price)

section Handle
variable {s : StoppedSignal} {h : Handling} {r : ManagedRow}

theorem handle_direction : (s.handle h r).direction = heldAfter r s h := by
  unfold StoppedSignal.handle heldAfter
  by_cases hf : s.Fills h
  · cases hw : h.fillWritten with
    | true =>
      cases h.policyWritten <;> simp only [hf, if_true, true_and] <;>
        exact applyFill_direction r s.fill
    | false =>
      cases h.policyWritten with
      | true => simp [hf, ManagedRow.attachExitPolicy]
      | false => simp [hf]
  · simp only [hf, if_false, false_and]

theorem handle_stopPrice (hs : s.CarriesStop) :
    (s.handle h r).stopPrice =
      if s.Fills h ∧ h.policyWritten = true then some s.stopLoss else r.stopPrice := by
  have hset : ∀ old, ManagedRow.priceSet (some s.stopLoss) old = some s.stopLoss :=
    fun _ => if_pos hs.positive
  unfold StoppedSignal.handle
  by_cases hf : s.Fills h
  · cases hw : h.policyWritten with
    | true => cases h.fillWritten <;> simp [hf, ManagedRow.attachExitPolicy, hset]
    | false => cases h.fillWritten <;> simp [hf, ManagedRow.applyFill]
  · simp only [hf, if_false, false_and]

/-- The signal's own stop protects positions of its own side and no others. -/
theorem onLossSide_own_stop (hs : s.CarriesStop) (held : Option Direction) :
    OnLossSide held (some s.stopLoss) s.priceAtSignal ↔
      ∀ d, held = some d → d = .flat ∨ d = s.side.direction := by
  have hown : OnLossSide held (some s.stopLoss) s.priceAtSignal ↔
      match held with
      | some .long => s.stopLoss < s.priceAtSignal
      | some .short => s.priceAtSignal < s.stopLoss
      | _ => True := by
    simp [OnLossSide]
  rw [hown]
  cases hside : s.side with
  | buy =>
    have hlt := hs.buy hside
    obtain _ | _ | _ | _ := held <;> simp [OrderSide.direction, hlt, hlt.le]
  | sell =>
    have hlt := hs.sell hside
    obtain _ | _ | _ | _ := held <;> simp [OrderSide.direction, hlt, hlt.le]

end Handle

/-- One event: the stop protects the position afterwards exactly when the signal is safe. -/
theorem step_protected_iff (st : StopState) (e : PositionEvent)
    (hs : ∀ s h, e = .signal s h → s.CarriesStop) :
    (st.step e).Protected ↔ StopSafe st e := by
  cases e with
  | engine pass => simp [StopState.step, StopState.Protected, StopSafe]
  | signal s h =>
    have hc := hs s h rfl
    have hafter : (st.step (.signal s h)).Protected ↔
        OnLossSide (heldAfter st.row s h) (s.handle h st.row).stopPrice s.priceAtSignal := by
      simp only [StopState.Protected, StopState.step, Option.some.injEq, forall_eq']
      rw [handle_direction]
    rw [hafter, handle_stopPrice hc, StopSafe]
    split
    · exact onLossSide_own_stop hc _
    · rfl

/-- In every run the stop protects the side actually held after each signal exactly when
every signal of the run is safe in the state it meets. -/
theorem attached_stop_protects_iff (r : ManagedRow) (es : List PositionEvent)
    (hes : ∀ e ∈ es, ∀ s h, e = .signal s h → s.CarriesStop) :
    AlongRun StopState.step StopState.Protected ⟨r, none⟩ es ↔
      StepsMeet StopState.step StopSafe ⟨r, none⟩ es :=
  alongRun_iff (I := fun _ => True) (D := fun e => ∀ s h, e = .signal s h → s.CarriesStop)
    (fun _ _ _ _ => trivial) (fun st e he _ _ => step_protected_iff st e he) es hes _ trivial nofun

/-- A buy of ten with its stop, and a sale of four that only reduces the position. -/
def buyTen : StoppedSignal :=
  ⟨⟨10, 100, 1 / 4, 0, false, false, false⟩, "INFY", .buy, some .nse, 100, 95, none, "P1", "t1"⟩

def sellFour : StoppedSignal :=
  ⟨⟨4, 102, 1 / 4, 0, false, false, false⟩, "INFY", .sell, some .nse, 102, 107, none, "P2", "t2"⟩

def handled : Handling := ⟨true, true, true⟩

theorem buyTen_carries : buyTen.CarriesStop :=
  ⟨by norm_num [buyTen], fun _ => by norm_num [buyTen], nofun⟩

theorem sellFour_carries : sellFour.CarriesStop :=
  ⟨by norm_num [sellFour], nofun, fun _ => by norm_num [sellFour]⟩

theorem attached_stop_protects_buy :
    AlongRun StopState.step StopState.Protected ⟨{}, none⟩ [.signal buyTen handled] := by
  refine (attached_stop_protects_iff {} [.signal buyTen handled] ?_).mpr ⟨?_, trivial⟩
  · intro e he s h hs
    obtain rfl := List.mem_singleton.mp he
    obtain ⟨rfl, _⟩ := PositionEvent.signal.inj hs
    exact buyTen_carries
  · have hheld : heldAfter {} buyTen handled = some .long := by decide +kernel
    have hfills : buyTen.Fills handled ∧ handled.policyWritten = true := by decide +kernel
    rw [StopSafe]
    simp only [hheld, if_pos hfills]
    intro d hd
    exact Or.inr (Option.some.inj hd).symm

/-- The sale puts its stop of 107 on the long of six that is left, at a price of 102. -/
theorem reducing_signal_misplaces_stop :
    buyTen.CarriesStop ∧ sellFour.CarriesStop ∧
      ¬ AlongRun StopState.step StopState.Protected ⟨{}, none⟩
        [.signal buyTen handled, .signal sellFour handled] := by
  refine ⟨buyTen_carries, sellFour_carries, fun h => ?_⟩
  have hlast := h.last 102 rfl 107 (by decide +kernel)
  have hlong : ([PositionEvent.signal buyTen handled, .signal sellFour handled].foldl
      StopState.step ⟨{}, none⟩).row.direction = some .long := by decide +kernel
  rw [hlong] at hlast
  exact absurd hlast (by norm_num)

end QuantEmbrace
