import QuantEmbrace.ManagedPosition
import QuantEmbrace.MisSquareOff

/-! Direction and signed quantity of one position row under all of its writers, and the
closes that the trade exit engine and MIS square-off derive from the two. -/
namespace QuantEmbrace

inductive MismatchType where
  | flatWithStop | zeroQtyOpen | qtyDirection | unmanaged | staleExitLock
  deriving DecidableEq, Repr

/-- `_detect_mismatches`; a missing quantity reads as zero. -/
def ManagedRow.detectMismatches (item : ManagedRow) : List MismatchType :=
  let quantity := item.quantity.getD 0
  let found := fun (p : Prop) [Decidable p] (m : MismatchType) => if p then [m] else []
  if item.direction = some .flat then found (item.stopPrice ≠ none) .flatWithStop
  else
    found (|quantity| < flatTolerance) .zeroQtyOpen ++
    found (¬ |quantity| < flatTolerance ∧
      item.direction ≠ some (if quantity > 0 then .long else .short)) .qtyDirection ++
    found (item.stopPrice = none) .unmanaged ++
    found (item.exitOrderId.getD "" ≠ "") .staleExitLock

/-- `_repair` in paper mode; the other mismatches are logged. -/
def ManagedRow.repair (item : ManagedRow) : MismatchType → ManagedRow
  | .zeroQtyOpen => item.setDirectionFlat
  | _ => item

inductive RowOp where
  | applyFill (f : Fill)
  | attachExitPolicy (stopPrice takeProfit : Option ℚ) (policyId : String)
  | writeTrailingStop (newStop : ℚ)
  | acquireExitLock (exitId : String) (trigger : ExitTriggerType) (isKillSwitch : Bool)
  | releaseExitLock (exitId : String)
  | reconcile

/-- The scan of the reconciliation does not return a missing item. -/
def RowOp.step (r : ManagedRow) : RowOp → ManagedRow
  | applyFill f => r.applyFill f
  | attachExitPolicy stopPrice takeProfit policyId =>
    r.attachExitPolicy stopPrice takeProfit policyId
  | writeTrailingStop newStop => r.writeTrailingStop newStop
  | acquireExitLock exitId trigger isKillSwitch => r.acquireExitLock exitId trigger isKillSwitch
  | releaseExitLock exitId => r.releaseExitLock exitId
  | reconcile => if r = {} then r else r.detectMismatches.foldl ManagedRow.repair r

/-- The row after the operations, from no row. -/
def RowOp.run (ops : List RowOp) : ManagedRow := ops.foldl RowOp.step {}

/-- Every fill of the sequence is of whole shares. -/
def WholeFills (ops : List RowOp) : Prop := ∀ f, .applyFill f ∈ ops → IsWhole f.quantity

theorem IsWhole.add_signed {x q : ℚ} (hx : IsWhole x) (hq : IsWhole q) (side : OrderSide) :
    IsWhole (x + side.signed q) := by
  obtain ⟨n, rfl⟩ := hx
  obtain ⟨k, rfl⟩ := hq
  cases side with
  | buy => exact ⟨n + k, (Int.cast_add n k).symm⟩
  | sell => exact ⟨n - k, by rw [OrderSide.signed, ← sub_eq_add_neg, Int.cast_sub]⟩

namespace ManagedRow
variable {r : ManagedRow}

/-- The direction is there exactly when the quantity is, and says its sign. -/
structure Aligned (r : ManagedRow) : Prop where
  direction : r.direction = r.quantity.map directionOf
  whole : IsWhole r.oldQty

theorem aligned_empty : Aligned {} := ⟨rfl, 0, rfl⟩

theorem Aligned.applyFill (h : r.Aligned) {f : Fill} (hf : IsWhole f.quantity) :
    (r.applyFill f).Aligned where
  direction := rfl
  whole := by
    have hq := h.whole.add_signed hf f.side
    change IsWhole (fillFigures r.figures f.side f.quantity f.price).qty
    rw [fillFigures_qty_clear r.figures f.side f.quantity f.price hq.zero_or_gt]
    exact hq

/-- A writer that leaves quantity and direction alone. -/
theorem Aligned.congr (h : r.Aligned) {s : ManagedRow} (hd : s.direction = r.direction)
    (hq : s.quantity = r.quantity) (hc : s.confirmedQuantity = r.confirmedQuantity) :
    s.Aligned where
  direction := by rw [hd, hq, h.direction]
  whole := by
    have hold : s.oldQty = r.oldQty := by rw [PositionRow.oldQty, PositionRow.oldQty, hq, hc]
    rw [hold]
    exact h.whole

theorem aligned_setDirectionFlat (r : ManagedRow) : r.setDirectionFlat.Aligned where
  direction := rfl
  whole := ⟨0, rfl⟩

theorem Aligned.repairs (h : r.Aligned) (ms : List MismatchType) :
    (ms.foldl ManagedRow.repair r).Aligned := by
  induction ms generalizing r with
  | nil => exact h
  | cons m ms ih =>
    cases m with
    | zeroQtyOpen => exact ih (aligned_setDirectionFlat r)
    | flatWithStop | qtyDirection | unmanaged | staleExitLock => exact ih h

theorem Aligned.step (h : r.Aligned) {op : RowOp}
    (hop : ∀ f, op = .applyFill f → IsWhole f.quantity) : (op.step r).Aligned := by
  cases op with
  | applyFill f => exact h.applyFill (hop f rfl)
  | attachExitPolicy stopPrice takeProfit policyId => exact h.congr rfl rfl rfl
  | writeTrailingStop newStop =>
    rw [RowOp.step, ManagedRow.writeTrailingStop]
    split
    · exact h.congr rfl rfl rfl
    · exact h
  | acquireExitLock exitId trigger isKillSwitch =>
    rw [RowOp.step, ManagedRow.acquireExitLock]
    split
    · exact h.congr rfl rfl rfl
    · exact h
  | releaseExitLock exitId =>
    rw [RowOp.step, ManagedRow.releaseExitLock]
    split
    · exact h.congr rfl rfl rfl
    · exact h
  | reconcile =>
    rw [RowOp.step]
    split
    · exact h
    · exact h.repairs _

theorem aligned_run {ops : List RowOp} (hops : WholeFills ops) : (RowOp.run ops).Aligned := by
  suffices ∀ r : ManagedRow, r.Aligned → (ops.foldl RowOp.step r).Aligned from
    this {} aligned_empty
  induction ops with
  | nil => exact fun r h => h
  | cons op ops ih =>
    intro r h
    refine ih (fun f hf => hops f (List.mem_cons_of_mem op hf)) _ (h.step fun f hf => ?_)
    exact hops f (hf ▸ List.mem_cons_self)

/-- Both closers take the same side and quantity, and the fill of that close, at whatever
price, leaves the position flat. -/
structure ClosersAgree (r : ManagedRow) : Prop where
  long : r.direction = some .long ↔ ∃ q, r.quantity = some q ∧ 0 < q
  short : r.direction = some .short ↔ ∃ q, r.quantity = some q ∧ q < 0
  flat : r.direction = some .flat ↔ r.quantity = some 0
  same : ∀ position mis validExitIds trigger date price, r.parsePosition = some position →
    resolvePosition r.toPositionRow validExitIds = some mis →
    (position.exitRequest trigger date price).closeSide = mis.closeSide ∧
      (position.exitRequest trigger date price).closeQty = mis.closeQty
  engineCloses : ∀ position trigger date price f, r.parsePosition = some position →
    f.side = (position.exitRequest trigger date price).closeSide →
    f.quantity = (position.exitRequest trigger date price).closeQty →
    (r.applyFill f).quantity = some 0 ∧ (r.applyFill f).direction = some .flat
  squareOffCloses : ∀ mis validExitIds f, resolvePosition r.toPositionRow validExitIds = some mis →
    f.side = mis.closeSide → f.quantity = mis.closeQty →
    (r.applyFill f).quantity = some 0 ∧ (r.applyFill f).direction = some .flat

end ManagedRow

theorem directionOf_eq_long {q : ℚ} : directionOf q = .long ↔ 0 < q := by
  unfold directionOf
  split_ifs with hp hn <;> simp [hp]

theorem directionOf_eq_short {q : ℚ} : directionOf q = .short ↔ q < 0 := by
  unfold directionOf
  split_ifs with hp hn
  · simp [hp.le]
  · simp [hn]
  · simp [hn]

theorem directionOf_eq_flat {q : ℚ} : directionOf q = .flat ↔ q = 0 := by
  unfold directionOf
  split_ifs with hp hn
  · simp [hp.ne']
  · simp [hn.ne]
  · simp [le_antisymm (not_lt.mp hp) (not_lt.mp hn)]

namespace ManagedRow
variable {r : ManagedRow} {q : ℚ} {f : Fill} {position : ManagedPosition} {mis : MisPosition}

theorem parsePosition_some (h : r.parsePosition = some position) :
    ∃ q, r.quantity = some q ∧ flatTolerance ≤ |q| ∧ position.quantity = q ∧
      position.direction = r.direction := by
  unfold parsePosition at h
  cases hquantity : r.quantity with
  | none =>
    rw [hquantity] at h
    cases h
  | some q =>
    cases hstop : r.stopPrice with
    | none =>
      rw [hquantity, hstop] at h
      cases h
    | some stop =>
      simp only [hquantity, hstop] at h
      split at h
      · cases h
      · rename_i hq
        obtain rfl := Option.some.inj h
        exact ⟨q, rfl, not_lt.mp hq, rfl, rfl⟩

theorem applyFill_close (hq : r.quantity = some q) (hne : flatTolerance ≤ |q|)
    (hside : f.side = if q > 0 then .sell else .buy) (hqty : f.quantity = |q|) :
    (r.applyFill f).quantity = some 0 ∧ (r.applyFill f).direction = some .flat := by
  have hold : r.figures.qty = q := by
    rw [PositionRow.figures, PositionRow.oldQty, hq]
    rfl
  have hnonzero : r.figures.qty ≠ 0 := by
    rw [hold]
    exact abs_pos.mp (flatTolerance_pos.trans_le hne)
  have hclose := (fillFigures_close hnonzero f.price).1
  rw [hold, ← hside, ← hqty] at hclose
  exact ⟨congrArg some hclose, congrArg (some ∘ directionOf) hclose⟩

/-- The engine's side, taken from the direction, is the one the sign calls for. -/
theorem Aligned.exitRequest_side (h : r.Aligned) (hpos : r.parsePosition = some position)
    (hq : r.quantity = some q) (trigger : ExitTriggerType) (date : String) (price : Option ℚ) :
    (position.exitRequest trigger date price).closeSide = (if q > 0 then .sell else .buy) ∧
      (position.exitRequest trigger date price).closeQty = |q| := by
  obtain ⟨q', hq', _, hquantity, hdirection⟩ := parsePosition_some hpos
  obtain rfl : q = q' := Option.some.inj (hq.symm.trans hq')
  have hd : position.direction = some (directionOf q) := by
    rw [hdirection, h.direction, hq]
    rfl
  refine ⟨?_, congrArg abs hquantity⟩
  change (if position.direction = some .long then OrderSide.sell else .buy) = _
  simp only [hd, Option.some.injEq, directionOf_eq_long]

theorem Aligned.closersAgree (h : r.Aligned) : r.ClosersAgree where
  long := by
    rw [h.direction]
    cases r.quantity <;> simp [directionOf_eq_long]
  short := by
    rw [h.direction]
    cases r.quantity <;> simp [directionOf_eq_short]
  flat := by
    rw [h.direction]
    cases r.quantity <;> simp [directionOf_eq_flat]
  same := by
    intro position mis valid trigger date price hpos hmis
    obtain ⟨q, hq, _, rfl⟩ := resolvePosition_some hmis
    exact h.exitRequest_side hpos hq trigger date price
  engineCloses := by
    intro position trigger date price f hpos hside hqty
    obtain ⟨q, hq, hne, _⟩ := parsePosition_some hpos
    obtain ⟨hs, ha⟩ := h.exitRequest_side hpos hq trigger date price
    exact applyFill_close hq hne (hside.trans hs) (hqty.trans ha)
  squareOffCloses := by
    intro mis valid f hmis hside hqty
    obtain ⟨q, hq, hne, rfl⟩ := resolvePosition_some hmis
    exact applyFill_close hq hne hside hqty

end ManagedRow

/-- Whatever the writers do to a row in whatever order, its direction says the sign of its
quantity, and both closers take the same close, which leaves it flat. -/
theorem direction_follows_quantity (ops : List RowOp) (hops : WholeFills ops) :
    (RowOp.run ops).ClosersAgree :=
  (ManagedRow.aligned_run hops).closersAgree

/-- A lock on no row is repaired to a flat row, then a short is sold, protected and locked. -/
def sampleOps : List RowOp :=
  [.acquireExitLock "EXIT-INFY" .stopLoss false, .reconcile,
    .applyFill ⟨"INFY", .sell, 5, 100, 100, some .nse, "t1"⟩,
    .attachExitPolicy (some 105) none "POLICY-INFY", .writeTrailingStop 103,
    .acquireExitLock "EXIT-INFY" .trailing false]

theorem direction_follows_quantity_short :
    (RowOp.run sampleOps).direction = some .short ∧ (RowOp.run sampleOps).quantity = some (-5) ∧
      (RowOp.run sampleOps).ClosersAgree := by
  refine ⟨by decide +kernel, by decide +kernel, direction_follows_quantity sampleOps ?_⟩
  intro f hf
  have hf : f = ⟨"INFY", .sell, 5, 100, 100, some .nse, "t1"⟩ := by
    simpa [sampleOps] using hf
  exact ⟨5, by rw [hf]; norm_num⟩

end QuantEmbrace
