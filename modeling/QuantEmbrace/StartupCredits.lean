import QuantEmbrace.Reconciliation

/-! Which of the fills that the broker reports at startup reach the positions table, and
when the table moves by exactly what the broker filled while the engine was down. -/
namespace QuantEmbrace
open GuardedRun
open OrderStatus (isValidStatusTransition)

/-- The broker answers whatever it is asked about the order from one report. -/
structure BrokerAnswers.Tells (b : BrokerAnswers) (r : BrokerReport) : Prop where
  current : b.current = .ok r
  response : ∀ x, b.Gives x → x = r.response x.brokerOrderId

/-- The report reaches the position: it brings an order on the broker's book, not a
simulated one, more fill together with a new status that is a fill. -/
def StoredOrder.Credited (o : StoredOrder) (r : BrokerReport) : Prop :=
  o.row.status ≠ .pending ∧ o.row.status ≠ .ackUnknown ∧ o.brokerOrderId ≠ "" ∧
    ¬ o.IsPaperOrder ∧ r.status ≠ o.row.status ∧
    (r.status = .filled ∨ r.status = .partiallyFilled) ∧
    o.row.filledQuantity < r.filledQuantity

instance (o : StoredOrder) (r : BrokerReport) : Decidable (o.Credited r) :=
  inferInstanceAs (Decidable (_ ∧ _ ∧ _ ∧ _ ∧ _ ∧ _ ∧ _))

/-- What the order has filled since its row was written. -/
def StoredOrder.newFill (o : StoredOrder) (r : BrokerReport) : ℚ :=
  o.side.signed (r.filledQuantity - o.row.filledQuantity)

/-- What the closing sales of a sequence of increments drop: a remainder within the flat
tolerance is stored as zero. -/
def remainders : ℚ → List ℚ → ℚ
  | _, [] => 0
  | q, d :: ds =>
    if d < 0 ∧ |q + d| ≤ flatTolerance then q + d + remainders 0 ds else remainders (q + d) ds

section Turn
variable {o : StoredOrder} {row : OrderRow} {t : Turn} {killSwitch : Bool} {r : BrokerReport}

@[simp] theorem Attempt.record_credit (a : Attempt) : a.record.credit = none := by
  unfold record
  split <;> rfl

@[simp] theorem Attempt.recordAndProtect_credit (a : Attempt) (o : StoredOrder) :
    (a.recordAndProtect o).credit = none := by
  unfold recordAndProtect
  split
  · exact record_credit a
  · exact record_credit a

theorem execute_credit : (executeApprovedSignal o row t killSwitch).credit = none := by
  unfold executeApprovedSignal
  split_ifs
  · rfl
  · rfl
  · rfl
  · split
    · exact Attempt.recordAndProtect_credit _ _
    · exact Attempt.recordAndProtect_credit _ _
    · rfl

theorem placePending_credit : (placePendingProtectiveOrder o row t).credit = none := by
  unfold placePendingProtectiveOrder
  split_ifs
  · rfl
  · rfl
  · exact Attempt.record_credit _

/-- A recovered or retried order is never credited. -/
theorem reconcile_credit_unplaced (hs : o.row.status = .pending ∨ o.row.status = .ackUnknown) :
    (reconcileOrder o row t killSwitch).credit = none := by
  unfold reconcileOrder
  obtain hs | hs := hs
  · rw [hs]
    simp only
    split_ifs
    · exact placePending_credit
    · rfl
    · exact execute_credit
  · rw [hs]
    exact Attempt.record_credit _

theorem reconcile_placed (hp : o.row.status ≠ .pending) (ha : o.row.status ≠ .ackUnknown) :
    reconcileOrder o row t killSwitch =
      if o.brokerOrderId = "" then { row } else if o.IsPaperOrder then { row }
      else checkPlacedOrder o row t := by
  unfold reconcileOrder
  cases hs : o.row.status <;> first | rfl | exact absurd hs hp | exact absurd hs ha

/-- The credit of one turn. -/
theorem reconcile_credit (hb : t.broker.current = .ok r) :
    (reconcileOrder o row t killSwitch).credit =
      if o.Credited r then some (r.filledQuantity - o.row.filledQuantity,
        deltaFillPrice o.row.filledQuantity o.row.avgFillPrice r.filledQuantity r.avgFillPrice)
      else none := by
  by_cases hun : o.row.status = .pending ∨ o.row.status = .ackUnknown
  · rw [reconcile_credit_unplaced hun, if_neg]
    rintro ⟨hp, ha, _⟩
    exact hun.elim hp ha
  obtain ⟨hp, ha⟩ := not_or.mp hun
  rw [reconcile_placed hp ha]
  by_cases hid : o.brokerOrderId = ""
  · rw [if_pos hid, if_neg fun h : o.Credited r => h.2.2.1 hid]
  by_cases hpaper : o.IsPaperOrder
  · rw [if_neg hid, if_pos hpaper, if_neg fun h : o.Credited r => h.2.2.2.1 hpaper]
  rw [if_neg hid, if_neg hpaper, checkPlacedOrder, hb]
  by_cases hst : r.status = o.row.status
  · simp only [if_pos hst]
    rw [if_neg fun h : o.Credited r => h.2.2.2.2.1 hst]
  · simp only [if_neg hst]
    by_cases hfill : (r.status = .filled ∨ r.status = .partiallyFilled) ∧
        o.row.filledQuantity < r.filledQuantity
    · have hpos : 0 < r.filledQuantity - o.row.filledQuantity := sub_pos.mpr hfill.2
      rw [if_pos (show o.Credited r from ⟨hp, ha, hid, hpaper, hst, hfill.1, hfill.2⟩),
        if_pos ⟨hfill.1, by rw [max_eq_right hpos.le]; exact hpos⟩, max_eq_right hpos.le]
    · rw [if_neg fun h : o.Credited r => hfill h.2.2.2.2.2, if_neg]
      rintro ⟨hk, hpos⟩
      refine hfill ⟨hk, ?_⟩
      obtain h | h := lt_max_iff.mp hpos
      · exact absurd h (lt_irrefl 0)
      · exact sub_pos.mp h

end Turn

/-- One credit moves the quantity by its increment, less what a closing sale drops. -/
theorem fillFigures_qty_dropped (x : Figures) (side : OrderSide) {q : ℚ} (p : ℚ) (hq : 0 < q) :
    (fillFigures x side q p).qty =
      if side.signed q < 0 ∧ |x.qty + side.signed q| ≤ flatTolerance then 0
      else x.qty + side.signed q := by
  cases side with
  | buy =>
    rw [if_neg]
    · rfl
    · rintro ⟨hneg, _⟩
      exact absurd hneg (not_lt.mpr hq.le)
  | sell =>
    have hneg : OrderSide.signed .sell q < 0 := neg_neg_of_pos hq
    by_cases hflat : |x.qty + OrderSide.signed .sell q| ≤ flatTolerance
    · rw [if_pos ⟨hneg, hflat⟩]
      simp only [OrderSide.signed, ← sub_eq_add_neg] at hflat
      obtain ⟨hlo, hhi⟩ := abs_le.mp hflat
      simp only [fillFigures, sellFigures, if_neg (not_lt.mpr hhi), if_neg (not_lt.mpr hlo)]
    · rw [if_neg fun h => hflat h.2]
      exact fillFigures_qty_clear x .sell q p (Or.inr (not_le.mp hflat))

section Pass
variable (report : StoredOrder → BrokerReport) (symbol : String)

/-- The increments credited to a symbol, in the order of the turns. -/
def creditedFills (os : List StoredOrder) : List ℚ :=
  (os.filter fun o => o.symbol = symbol ∧ o.Credited (report o)).map fun o => o.newFill (report o)

/-- All that the broker filled of a symbol while the engine was down. -/
def reportedFill (os : List StoredOrder) : ℚ :=
  ((os.filter fun o => o.symbol = symbol).map fun o => o.newFill (report o)).sum

/-- The part of it that reaches no position. -/
def missedFill (os : List StoredOrder) : ℚ :=
  ((os.filter fun o => o.symbol = symbol ∧ ¬ o.Credited (report o)).map
    fun o => o.newFill (report o)).sum

variable {report symbol} {e : Engine} {evs : List PassEvent}

theorem reportedFill_eq (os : List StoredOrder) :
    reportedFill report symbol os =
      (creditedFills report symbol os).sum + missedFill report symbol os := by
  induction os with
  | nil => simp [reportedFill, creditedFills, missedFill]
  | cons o os ih =>
    unfold reportedFill creditedFills missedFill at ih ⊢
    by_cases hs : o.symbol = symbol
    · by_cases hc : o.Credited (report o) <;> simp [hs, hc, ih] <;> ring
    · simp [hs, ih]

theorem step_positions (o : StoredOrder) (t : Turn) (hb : t.broker.current = .ok (report o)) :
    ((e.step (.turn o t)).positions symbol).oldQty =
      if o.symbol = symbol ∧ o.Credited (report o) then
        if o.newFill (report o) < 0 ∧
            |(e.positions symbol).oldQty + o.newFill (report o)| ≤ flatTolerance then 0
        else (e.positions symbol).oldQty + o.newFill (report o)
      else (e.positions symbol).oldQty := by
  have hcredit : (reconcileOrder o (e.rowOf o) t e.killSwitch).credit = _ := reconcile_credit hb
  by_cases hc : o.Credited (report o)
  · rw [if_pos hc] at hcredit
    simp only [Engine.step, Engine.apply, hcredit]
    by_cases hs : o.symbol = symbol
    · subst hs
      have hpos : 0 < (report o).filledQuantity - o.row.filledQuantity :=
        sub_pos.mpr hc.2.2.2.2.2.2
      rw [if_pos ⟨rfl, hc⟩, Function.update_self]
      exact fillFigures_qty_dropped (e.positions o.symbol).figures o.side _ hpos
    · rw [Function.update_of_ne (Ne.symm hs), if_neg fun h => hs h.1]
  · rw [if_neg hc] at hcredit
    rw [if_neg fun h => hc h.2]
    simp only [Engine.step, Engine.apply, hcredit]

theorem creditedFills_cons (o : StoredOrder) (os : List StoredOrder) :
    creditedFills report symbol (o :: os) =
      if o.symbol = symbol ∧ o.Credited (report o)
        then o.newFill (report o) :: creditedFills report symbol os
      else creditedFills report symbol os := by
  unfold creditedFills
  by_cases h : o.symbol = symbol ∧ o.Credited (report o) <;> simp [h]

/-- The position at the end of the pass. -/
theorem foldl_positions (hb : ∀ o t, .turn o t ∈ evs → t.broker.current = .ok (report o)) :
    ((evs.foldl Engine.step e).positions symbol).oldQty =
      (e.positions symbol).oldQty +
        (creditedFills report symbol ((turns evs).map Prod.fst)).sum -
        remainders (e.positions symbol).oldQty
          (creditedFills report symbol ((turns evs).map Prod.fst)) := by
  induction evs generalizing e with
  | nil => simp [turns, creditedFills, remainders]
  | cons ev evs ih =>
    have hrest := @ih (e.step ev) fun o t ht => hb o t (List.mem_cons_of_mem ev ht)
    rw [List.foldl_cons, hrest]
    cases ev with
    | turn o t =>
      have hstep : ((e.step (.turn o t)).positions symbol).oldQty = _ :=
        step_positions o t (hb o t List.mem_cons_self)
      have hturns : turns (.turn o t :: evs) = (o, t) :: turns evs := rfl
      rw [hturns, List.map_cons, creditedFills_cons, hstep]
      by_cases hc : o.symbol = symbol ∧ o.Credited (report o)
      · rw [if_pos hc, if_pos hc, List.sum_cons, remainders]
        split
        · ring
        · ring
      · rw [if_neg hc, if_neg hc]
    | activate reason messages => rfl

end Pass

/-- The positions of all symbols move by what the broker filled of the open orders while
the engine was down exactly when, symbol by symbol, the fills that are not credited and
the remainders that closing sales drop cancel out. -/
theorem startup_credits_iff {e : Engine} {evs : List PassEvent}
    (report : StoredOrder → BrokerReport) (hpass : IsPass e evs)
    (hb : ∀ o t, .turn o t ∈ evs → t.broker.Tells (report o)) :
    (∀ symbol, ((evs.foldl Engine.step e).positions symbol).oldQty =
      (e.positions symbol).oldQty +
        reportedFill report symbol (e.orders.filter fun o => o.Open)) ↔
    ∀ symbol, missedFill report symbol (e.orders.filter fun o => o.Open) +
      remainders (e.positions symbol).oldQty
        (creditedFills report symbol ((turns evs).map Prod.fst)) = 0 := by
  refine forall_congr' fun symbol => ?_
  have hrun : ((evs.foldl Engine.step e).positions symbol).oldQty = _ :=
    foldl_positions fun o t ht => (hb o t ht).current
  have hsum : reportedFill report symbol ((turns evs).map Prod.fst) =
      reportedFill report symbol (e.orders.filter fun o => o.Open) :=
    ((hpass.listed.filter _).map _).sum_eq
  have hmissed : missedFill report symbol ((turns evs).map Prod.fst) =
      missedFill report symbol (e.orders.filter fun o => o.Open) :=
    ((hpass.listed.filter _).map _).sum_eq
  have hsplit : reportedFill report symbol ((turns evs).map Prod.fst) = _ := reportedFill_eq _
  rw [hrun, ← hsum, ← hmissed, hsplit]
  constructor
  · intro h
    linarith
  · intro h
    linarith

/-- No turn of the pass raises. -/
def WithoutErrors (e : Engine) (evs : List PassEvent) : Prop :=
  StepsMeet Engine.step (fun e ev => ∀ o t, ev = .turn o t →
    (reconcileOrder o (e.rowOf o) t e.killSwitch).raised = false) e evs

/-- An entry on the broker's book with nothing filled yet. -/
def placedEntry : StoredOrder where
  orderId := "QE-1"
  signalId := "S1"
  riskDecisionId := "R1"
  symbol := "INFY"
  market := .nse
  side := .buy
  quantity := 10
  row := { OrderRow.reserved with status := .placed, brokerOrderId := some "B1" }

/-- A broker with one answer. -/
def brokerOf (r : BrokerReport) : BrokerAnswers where
  found := .ok none
  placed := .refused
  rescanned := .ok none
  current := .ok r

theorem brokerOf_tells (r : BrokerReport) : (brokerOf r).Tells r where
  current := rfl
  response := by
    rintro x (h | h | h)
    · cases h
    · cases h
    · cases h

def turnOf (r : BrokerReport) : Turn := ⟨0, true, "t1", brokerOf r⟩

def placedTable : Engine := ⟨[placedEntry], false, fun _ => {}, []⟩

theorem placedTable_isPass (r : BrokerReport) :
    IsPass placedTable [.turn placedEntry (turnOf r)] where
  ids := List.nodup_singleton _
  listed := by
    have hopen : placedEntry.Open := by decide
    simp [placedTable, turns, PassEvent.turn?, hopen]

theorem turnOf_tells {r : BrokerReport} (o : StoredOrder) (t : Turn)
    (h : .turn o t ∈ [PassEvent.turn placedEntry (turnOf r)]) : t.broker.Tells r := by
  cases List.mem_singleton.mp h
  exact brokerOf_tells r

/-- All ten shares filled while the engine was down. -/
theorem startup_credits_iff_filled :
    (([PassEvent.turn placedEntry (turnOf ⟨.filled, 10, 100, ""⟩)].foldl Engine.step
        placedTable).positions "INFY").oldQty =
      (placedTable.positions "INFY").oldQty +
        reportedFill (fun _ => ⟨.filled, 10, 100, ""⟩) "INFY"
          (placedTable.orders.filter fun o => o.Open) := by
  refine (startup_credits_iff (fun _ => ⟨.filled, 10, 100, ""⟩) (placedTable_isPass _)
    turnOf_tells).mpr (fun symbol => ?_) "INFY"
  by_cases hs : placedEntry.symbol = symbol
  · subst hs
    decide +kernel
  · simp [missedFill, creditedFills, remainders, turns, PassEvent.turn?, placedTable, hs]

/-- Half of the order filled before it was cancelled: the row is closed with the five
shares, and the position never sees them. -/
theorem cancelled_with_fill_not_credited :
    ¬ ∀ (e : Engine) (evs : List PassEvent) (report : StoredOrder → BrokerReport),
      IsPass e evs → (∀ o t, .turn o t ∈ evs → t.broker.Tells (report o)) →
      WithoutErrors e evs →
      (∀ o ∈ e.orders, o.row.filledQuantity ≤ (report o).filledQuantity) →
      ∀ symbol, ((evs.foldl Engine.step e).positions symbol).oldQty =
        (e.positions symbol).oldQty +
          reportedFill report symbol (e.orders.filter fun o => o.Open) := by
  intro hall
  have h := hall placedTable [.turn placedEntry (turnOf ⟨.cancelled, 5, 100, ""⟩)]
    (fun _ => ⟨.cancelled, 5, 100, ""⟩) (placedTable_isPass _) turnOf_tells
    ⟨fun o t ht => by cases ht; decide +kernel, trivial⟩
    (fun o ho => by rw [List.mem_singleton.mp ho]; decide +kernel) "INFY"
  revert h
  decide +kernel

end QuantEmbrace
