import QuantEmbrace.RiskLedger
import Mathlib.Algebra.BigOperators.Group.List.Basic

/-! `record_fill` of the risk engine on one trading day: each fill event is reserved
once, moves the row of its symbol and adds its realized P&L to the row of the day. -/
namespace QuantEmbrace
open AverageCost

/-- Arguments of `record_fill`; an empty `fill_id` stands for none. -/
structure FillEvent where
  orderId : String
  symbol : String
  direction : String
  quantity : ℚ
  price : ℚ
  fillId : String
  deriving DecidableEq, Repr

/-- `fill_id or f"{order_id}:{direction}:{quantity}:{price}"` -/
inductive EventKey where
  | fillId (s : String)
  | order (orderId direction : String) (quantity price : ℚ)
  deriving DecidableEq, Repr

def FillEvent.eventKey (e : FillEvent) : EventKey :=
  if e.fillId = "" then .order e.orderId e.direction e.quantity e.price else .fillId e.fillId

inductive RecordError where
  | notPositive
  | zeroDivision
  | unsupportedDirection (direction : String)
  deriving DecidableEq, Repr

/-- The rows of one day: `FILL#{event_key}`, `PNL_SYMBOL#{day}#{symbol}`, `PNL_DAY#{day}`. -/
structure RiskTable where
  reserved : List EventKey := []
  symbolRows : String → SymbolPnlRow := fun _ => {}
  realizedDay : ℚ := 0

/-- What the branch of `_apply_fill_to_daily_symbol_pnl` divides by, if it divides. -/
def averageDivisor (oldQty : ℚ) (direction : String) (quantity : ℚ) : Option ℚ :=
  if direction = "BUY" then (if oldQty < 0 then none else some (oldQty + quantity))
  else if direction = "SELL" then (if oldQty > 0 then none else some |oldQty - quantity|)
  else none

/- Division in Python raises where Lean's answers zero. -/
def applyFillRaising (item : SymbolPnlRow) (direction : String) (quantity price : ℚ) :
    Except RecordError (SymbolPnlRow × ℚ) :=
  if averageDivisor item.book.quantity direction quantity = some 0 then .error .zeroDivision
  else match applyFillToDailySymbolPnl item direction quantity price with
    | .ok r => .ok r
    | .error (.unsupportedDirection d) => .error (.unsupportedDirection d)

/-- The tables after one call, and the `realized_delta` it returns. -/
def recordFill (t : RiskTable) (e : FillEvent) : Except RecordError (RiskTable × ℚ) :=
  if e.quantity ≤ 0 ∨ e.price ≤ 0 then .error .notPositive
  else if e.eventKey ∈ t.reserved then .ok (t, 0)
  else do
    let (row, realizedDelta) ←
      applyFillRaising (t.symbolRows e.symbol) e.direction.toUpper e.quantity e.price
    return ({ reserved := e.eventKey :: t.reserved
              symbolRows := Function.update t.symbolRows e.symbol row
              realizedDay := t.realizedDay + realizedDelta }, realizedDelta)

/-- A sequence of calls, each event with the delta returned for it. -/
def recordFills : RiskTable → List FillEvent → Except RecordError (RiskTable × List (FillEvent × ℚ))
  | t, [] => .ok (t, [])
  | t, e :: es => do
    let (t, delta) ← recordFill t e
    let (t, deltas) ← recordFills t es
    return (t, (e, delta) :: deltas)

namespace FillEvent

/-- A fill of positive quantity and price on one of the two sides. -/
structure Valid (e : FillEvent) : Prop where
  direction : e.direction.toUpper = "BUY" ∨ e.direction.toUpper = "SELL"
  quantity : 0 < e.quantity
  price : 0 < e.price

/-- The quantity with the sign of its side. -/
def signed (e : FillEvent) : ℚ := if e.direction.toUpper = "BUY" then e.quantity else -e.quantity

theorem Valid.signed_ne_zero {e : FillEvent} (h : e.Valid) : e.signed ≠ 0 := by
  have hq := h.quantity
  unfold FillEvent.signed
  split
  · exact hq.ne'
  · exact neg_ne_zero.mpr hq.ne'

end FillEvent

/-- The events that are not duplicates of an earlier one. -/
def freshFills : List EventKey → List FillEvent → List FillEvent
  | _, [] => []
  | ks, e :: es =>
    if e.eventKey ∈ ks then freshFills ks es else e :: freshFills (e.eventKey :: ks) es

/-- Quantity times price over the fills of one symbol and direction. -/
def symbolValue (symbol direction : String) (es : List FillEvent) : ℚ :=
  ((es.filter fun e => e.symbol = symbol ∧ e.direction.toUpper = direction).map
    fun e => e.quantity * e.price).sum

/-- The deltas returned for the fills of one symbol, added up. -/
def returnedDelta (symbol : String) (ds : List (FillEvent × ℚ)) : ℚ :=
  ((ds.filter fun d => d.1.symbol = symbol).map Prod.snd).sum

section Row
variable {row : SymbolPnlRow} {e : FillEvent}

/-- No branch divides by zero, whatever the row holds. -/
theorem averageDivisor_ne_zero (oldQty : ℚ) (direction : String) {quantity : ℚ}
    (h0 : 0 < quantity) : averageDivisor oldQty direction quantity ≠ some 0 := by
  unfold averageDivisor
  split_ifs with hb hn hs hp
  · nofun
  · intro h
    have := Option.some.inj h
    linarith
  · nofun
  · intro h
    have := abs_eq_zero.mp (Option.some.inj h)
    linarith
  · nofun

/-- One valid fill on the row of its symbol: the average-cost trade. -/
theorem applyFillRaising_valid (row : SymbolPnlRow) (h : e.Valid) :
    ∃ row' delta, applyFillRaising row e.direction.toUpper e.quantity e.price = .ok (row', delta) ∧
      row'.book = row.book.trade e.signed e.price ∧
      row'.book.realized = row.book.realized + delta := by
  have hdiv := averageDivisor_ne_zero row.book.quantity e.direction.toUpper h.quantity
  rw [applyFillRaising, if_neg hdiv]
  obtain hd | hd := h.direction
  · refine ⟨_, (symbolBuy row.book.quantity row.book.avg e.quantity e.price).realizedDelta,
      by simp [applyFillToDailySymbolPnl, hd]; rfl, ?_, rfl⟩
    rw [symbolBuy_book row.book e.quantity e.price h.quantity, FillEvent.signed, if_pos hd]
  · have hn : e.direction.toUpper ≠ "BUY" := by
      rw [hd]
      decide
    refine ⟨_, (symbolSell row.book.quantity row.book.avg e.quantity e.price).realizedDelta,
      by simp [applyFillToDailySymbolPnl, hd]; rfl, ?_, rfl⟩
    rw [symbolSell_book row.book e.quantity e.price h.quantity, FillEvent.signed, if_neg hn]

/-- The row of a symbol carries the cash of its fills and the deltas returned for them. -/
structure RowBalanced (row : SymbolPnlRow) (cash deltas : ℚ) : Prop where
  cash : row.book.cash = cash
  realized : row.book.realized = deltas
  avg : row.book.quantity ≠ 0 → 0 < row.book.avg

theorem RowBalanced.fill {cash deltas delta : ℚ} {row' : SymbolPnlRow}
    (hr : RowBalanced row cash deltas) (h : e.Valid)
    (hbook : row'.book = row.book.trade e.signed e.price)
    (hdelta : row'.book.realized = row.book.realized + delta) :
    RowBalanced row' (cash - e.signed * e.price) (deltas + delta) where
  cash := by rw [hbook, Book.trade_cash _ _ _ h.signed_ne_zero, hr.cash]
  realized := by rw [hdelta, hr.realized]
  avg hne := by
    rw [hbook] at hne ⊢
    exact Book.trade_avg_pos hr.avg h.price h.signed_ne_zero hne

end Row

/-- What a valid call does: nothing for a duplicate, one trade on one row otherwise. -/
theorem recordFill_valid (t : RiskTable) {e : FillEvent} (h : e.Valid) :
    (e.eventKey ∈ t.reserved ∧ recordFill t e = .ok (t, 0)) ∨
    (e.eventKey ∉ t.reserved ∧ ∃ row delta,
      recordFill t e = .ok (⟨e.eventKey :: t.reserved, Function.update t.symbolRows e.symbol row,
        t.realizedDay + delta⟩, delta) ∧
      row.book = (t.symbolRows e.symbol).book.trade e.signed e.price ∧
      row.book.realized = (t.symbolRows e.symbol).book.realized + delta) := by
  have hpos : ¬ (e.quantity ≤ 0 ∨ e.price ≤ 0) := by
    rintro (hq | hp)
    · exact absurd h.quantity (not_lt.mpr hq)
    · exact absurd h.price (not_lt.mpr hp)
  by_cases hk : e.eventKey ∈ t.reserved
  · exact Or.inl ⟨hk, by rw [recordFill, if_neg hpos, if_pos hk]⟩
  · obtain ⟨row, delta, happly, hbook, hdelta⟩ :=
      applyFillRaising_valid (t.symbolRows e.symbol) h
    refine Or.inr ⟨hk, row, delta, ?_, hbook, hdelta⟩
    rw [recordFill, if_neg hpos, if_neg hk, happly]
    rfl

section Value
variable {e : FillEvent} {symbol : String}

/-- What one fill adds to the cash of its symbol. -/
theorem symbolValue_cons (h : e.Valid) (es : List FillEvent) :
    symbolValue symbol "SELL" (e :: es) - symbolValue symbol "BUY" (e :: es) =
      (if e.symbol = symbol then -(e.signed * e.price) else 0) +
        (symbolValue symbol "SELL" es - symbolValue symbol "BUY" es) := by
  by_cases hs : e.symbol = symbol
  · have hd := h.direction
    obtain hd | hd := hd
    · simp [symbolValue, hs, hd, FillEvent.signed]
      ring
    · simp [symbolValue, hs, hd, FillEvent.signed]
      ring
  · simp [symbolValue, hs]

theorem returnedDelta_cons (delta : ℚ) (ds : List (FillEvent × ℚ)) :
    returnedDelta symbol ((e, delta) :: ds) =
      (if e.symbol = symbol then delta else 0) + returnedDelta symbol ds := by
  by_cases hs : e.symbol = symbol <;> simp [returnedDelta, hs]

end Value

theorem RowBalanced.record {t : RiskTable} {e : FillEvent} (h : e.Valid) {row : SymbolPnlRow}
    {delta : ℚ} (hbook : row.book = (t.symbolRows e.symbol).book.trade e.signed e.price)
    (hdelta : row.book.realized = (t.symbolRows e.symbol).book.realized + delta)
    {symbol : String} {cash deltas : ℚ} (ht : RowBalanced (t.symbolRows symbol) cash deltas) :
    RowBalanced (Function.update t.symbolRows e.symbol row symbol)
      (cash + if e.symbol = symbol then -(e.signed * e.price) else 0)
      (deltas + if e.symbol = symbol then delta else 0) := by
  by_cases hs : e.symbol = symbol
  · subst hs
    rw [Function.update_self, if_pos rfl, if_pos rfl, ← sub_eq_add_neg]
    exact ht.fill h hbook hdelta
  · rw [Function.update_of_ne (Ne.symm hs), if_neg hs, if_neg hs, add_zero, add_zero]
    exact ht

theorem recordFills_cons {t t' t'' : RiskTable} {e : FillEvent} {es : List FillEvent} {delta : ℚ}
    {ds : List (FillEvent × ℚ)} (h : recordFill t e = .ok (t', delta))
    (hs : recordFills t' es = .ok (t'', ds)) :
    recordFills t (e :: es) = .ok (t'', (e, delta) :: ds) := by
  rw [recordFills, h]
  simp only [bind, Except.bind, hs]
  rfl

/-- Valid calls never raise, and keep every row balanced. -/
theorem recordFills_balanced (t : RiskTable) (es : List FillEvent) (hes : ∀ e ∈ es, e.Valid) :
    ∃ t' ds, recordFills t es = .ok (t', ds) ∧
      ∀ symbol cash deltas, RowBalanced (t.symbolRows symbol) cash deltas →
        RowBalanced (t'.symbolRows symbol)
          (cash + (symbolValue symbol "SELL" (freshFills t.reserved es) -
            symbolValue symbol "BUY" (freshFills t.reserved es)))
          (deltas + returnedDelta symbol ds) := by
  induction es generalizing t with
  | nil =>
    refine ⟨t, [], rfl, fun symbol cash deltas ht => ?_⟩
    simpa [symbolValue, returnedDelta, freshFills] using ht
  | cons e es ih =>
    have he : e.Valid := hes e List.mem_cons_self
    have htail : ∀ a ∈ es, a.Valid := fun a ha => hes a (List.mem_cons_of_mem e ha)
    obtain ⟨hk, hrec⟩ | ⟨hk, row, delta, hrec, hbook, hdelta⟩ := recordFill_valid t he
    · obtain ⟨t', ds, hrun, hbal⟩ := ih t htail
      refine ⟨t', (e, 0) :: ds, recordFills_cons hrec hrun, fun symbol cash deltas ht => ?_⟩
      rw [freshFills, if_pos hk, returnedDelta_cons, ite_self, zero_add]
      exact hbal symbol cash deltas ht
    · obtain ⟨t', ds, hrun, hbal⟩ := ih (⟨_, _, _⟩ : RiskTable) htail
      refine ⟨t', (e, delta) :: ds, recordFills_cons hrec hrun, fun symbol cash deltas ht => ?_⟩
      rw [freshFills, if_neg hk, symbolValue_cons he, returnedDelta_cons, ← add_assoc, ← add_assoc]
      exact hbal symbol _ _ (ht.record he hbook hdelta)

theorem rowBalanced_empty : RowBalanced {} 0 0 where
  cash := by simp [SymbolPnlRow.book, Book.cash]
  realized := by simp [SymbolPnlRow.book]
  avg h := absurd rfl h

/-- Bought, sold through flat, delivered again, and covered in part. -/
def sampleFills : List FillEvent :=
  [⟨"o1", "INFY", "BUY", 10, 100, "f1"⟩, ⟨"o2", "INFY", "SELL", 15, 110, "f2"⟩,
    ⟨"o2", "INFY", "SELL", 15, 110, "f2"⟩, ⟨"o3", "INFY", "buy", 2, 105, "f3"⟩]

theorem sampleFills_valid : ∀ e ∈ sampleFills, e.Valid := by
  intro e he
  simp only [sampleFills, List.mem_cons, List.not_mem_nil, or_false] at he
  obtain rfl | rfl | rfl | rfl := he
  · exact ⟨by decide +kernel, by norm_num, by norm_num⟩
  · exact ⟨by decide +kernel, by norm_num, by norm_num⟩
  · exact ⟨by decide +kernel, by norm_num, by norm_num⟩
  · exact ⟨by decide +kernel, by norm_num, by norm_num⟩

end QuantEmbrace
