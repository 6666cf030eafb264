import QuantEmbrace.PositionLedger

/-! Accounting identity of the execution engine's position row over sequences of
whole-share fills. The row follows the average-cost book while it is not short. -/
namespace QuantEmbrace
open AverageCost GuardedRun

theorem flatTolerance_pos : 0 < flatTolerance := by norm_num [flatTolerance]

theorem IsWhole.gt_of_pos {x : ℚ} (h : IsWhole x) (hx : 0 < x) : x > flatTolerance := by
  obtain h0 | h0 := h.zero_or_gt
  · linarith
  · rwa [abs_of_pos hx] at h0

theorem IsWhole.lt_of_neg {x : ℚ} (h : IsWhole x) (hx : x < 0) : x < -flatTolerance := by
  obtain h0 | h0 := h.zero_or_gt
  · linarith
  · rw [abs_of_neg hx] at h0
    linarith

/-! One lemma for each regime of the two branches. -/
section Regimes
variable {x : Figures} {q p : ℚ}

@[simp] theorem buyFigures_qty : (buyFigures x q p).qty = x.qty + q := rfl

@[simp] theorem buyFigures_cost : (buyFigures x q p).cost = x.cost + q * p := rfl

theorem buyFigures_open (hq : IsWhole (x.qty + q)) (hne : x.qty + q ≠ 0) :
    (buyFigures x q p).avg = (x.cost + q * p) / (x.qty + q) := by
  have h := hq.zero_or_gt.resolve_left hne
  simp [buyFigures, h]

theorem buyFigures_flat (hz : x.qty + q = 0) : (buyFigures x q p).avg = 0 := by
  simp [buyFigures, hz]

theorem buyFigures_realized_long (h : 0 ≤ x.qty) : (buyFigures x q p).realized = x.realized := by
  simp [buyFigures, not_lt.mpr h]

theorem buyFigures_realized_short (h : x.qty < 0) :
    (buyFigures x q p).realized = x.realized + (x.avg - p) * min q (-x.qty) := by
  simp [buyFigures, h, abs_of_neg h]

theorem sellFigures_reduce (hq : IsWhole (x.qty - q)) (h0 : 0 < q) (h : 0 < x.qty - q) :
    sellFigures x q p =
      ⟨x.qty - q, x.avg, x.avg * (x.qty - q), x.realized + (p - x.avg) * q⟩ := by
  have hm : max x.qty 0 = x.qty := max_eq_left (by linarith)
  have hc : min q x.qty = q := min_eq_left (by linarith)
  simp [sellFigures, hm, hc, hq.gt_of_pos h]

theorem sellFigures_close (h0 : 0 < q) (h : x.qty = q) :
    sellFigures x q p = ⟨0, 0, 0, x.realized + (p - x.avg) * q⟩ := by
  have ht : ¬ flatTolerance < 0 := not_lt.mpr flatTolerance_pos.le
  have hm : max q 0 = q := max_eq_left h0.le
  simp [sellFigures, h, hm, ht]

theorem sellFigures_short (hq : IsWhole (x.qty - q)) (h0 : 0 < q) (h : x.qty - q < 0) :
    sellFigures x q p =
      ⟨x.qty - q, p, (x.qty - q) * p, x.realized + (p - x.avg) * max x.qty 0⟩ := by
  have ht := flatTolerance_pos
  have hl := hq.lt_of_neg h
  have hg : ¬ x.qty - q > flatTolerance := by linarith
  have hc : min q (max x.qty 0) = max x.qty 0 :=
    min_eq_right (max_le (by linarith) h0.le)
  simp only [sellFigures, hc, if_neg hg, if_pos hl]

end Regimes

/-- A quantity the sell branch keeps as it is. -/
def ClearOfFlat (x : ℚ) : Prop := x = 0 ∨ |x| > flatTolerance

theorem fillFigures_qty_clear (x : Figures) (side : OrderSide) (q p : ℚ)
    (h : ClearOfFlat (x.qty + side.signed q)) :
    (fillFigures x side q p).qty = x.qty + side.signed q := by
  cases side with
  | buy => rfl
  | sell =>
    simp only [OrderSide.signed, ← sub_eq_add_neg] at h ⊢
    by_cases hg : x.qty - q > flatTolerance
    · simp [fillFigures, sellFigures, hg]
    · by_cases hl : x.qty - q < -flatTolerance
      · simp [fillFigures, sellFigures, hg, hl]
      · have hz : x.qty - q = 0 := by
          obtain h | h := h
          · exact h
          · obtain h' | h' := lt_abs.mp h
            · exact absurd h' hg
            · exact absurd (by linarith) hl
        rw [hz]
        simp only [fillFigures, sellFigures, if_neg hg, if_neg hl]

theorem fillFigures_qty (x : Figures) (f : Fill) (hx : IsWhole x.qty) (hf : f.Whole) :
    (fillFigures x f.side f.quantity f.price).qty = x.qty + f.side.signed f.quantity :=
  fillFigures_qty_clear x f.side f.quantity f.price (hx.add_fill hf f.side).zero_or_gt

theorem fillFigures_whole (x : Figures) (f : Fill) (hx : IsWhole x.qty) (hf : f.Whole) :
    IsWhole (fillFigures x f.side f.quantity f.price).qty := by
  rw [fillFigures_qty x f hx hf]
  exact hx.add_fill hf f.side

/-- Whatever the row held, an open position is stored with its own cost. -/
theorem fillFigures_cost (x : Figures) (f : Fill) (hx : IsWhole x.qty) (hf : f.Whole)
    (hne : (fillFigures x f.side f.quantity f.price).qty ≠ 0) :
    (fillFigures x f.side f.quantity f.price).cost =
      (fillFigures x f.side f.quantity f.price).qty *
        (fillFigures x f.side f.quantity f.price).avg := by
  have h0 := hf.quantity_pos
  have hb := hx.add_fill hf .buy
  have hs := hx.add_fill hf .sell
  rw [OrderSide.signed, ← sub_eq_add_neg] at hs
  rw [fillFigures_qty x f hx hf] at hne ⊢
  cases hside : f.side with
  | buy =>
    simp only [hside, OrderSide.signed] at hne hb
    simp only [fillFigures, OrderSide.signed]
    rw [buyFigures_open hb hne, mul_div_cancel₀ _ hne]
    rfl
  | sell =>
    simp only [hside, OrderSide.signed] at hne
    simp only [fillFigures, OrderSide.signed]
    obtain h | h | h := lt_trichotomy (x.qty - f.quantity) 0
    · simp [sellFigures_short hs h0 h, sub_eq_add_neg]
    · exact absurd (by linarith) hne
    · simp [sellFigures_reduce hs h0 h, sub_eq_add_neg, mul_comm]

section Refinement
variable {x : Figures} {q p : ℚ} (h0 : 0 < q)
include h0

/-- A short position that is bought at its own average keeps it and realizes nothing. -/
theorem buyFigures_book_short (hb : IsWhole (x.qty + q)) (hc : x.cost = x.qty * x.avg)
    (hneg : x.qty < 0) (hp : p = x.avg) : (buyFigures x q p).book = x.book.trade q p := by
  have hreal : (buyFigures x q p).realized = x.realized := by
    rw [buyFigures_realized_short hneg, hp, sub_self, zero_mul, add_zero]
  by_cases hz : x.qty + q = 0
  · have hside : x.book.quantity * q < 0 := mul_neg_of_neg_of_pos hneg h0
    rw [Book.trade_close p hside hz]
    simp [Figures.book, buyFigures_flat hz, hreal, hz, sub_eq_zero.mpr hp]
  · have ha : (x.cost + q * p) / (x.qty + q) = x.avg := by
      rw [hc, hp]
      field_simp
    have ht : x.book.trade q p = ⟨x.qty + q, x.avg, x.realized⟩ := by
      rw [hp]
      exact Book.trade_at_avg x.book q hz
    rw [ht]
    simp [Figures.book, buyFigures_open hb hz, hreal, ha]

theorem buyFigures_book_long (hb : IsWhole (x.qty + q)) (hc : x.cost = x.qty * x.avg)
    (hpos : 0 ≤ x.qty) : (buyFigures x q p).book = x.book.trade q p := by
  have hne : x.qty + q ≠ 0 := by linarith
  have hside : 0 ≤ x.book.quantity * q := mul_nonneg hpos h0.le
  rw [Book.trade_same_side p hside]
  simp [Figures.book, buyFigures_open hb hne, buyFigures_realized_long hpos, hc]

theorem sellFigures_book_short (hs : IsWhole (x.qty - q)) (hneg : x.qty < 0) (hp : p = x.avg) :
    (sellFigures x q p).book = x.book.trade (-q) p := by
  have hlt : x.qty - q < 0 := by linarith
  have hne : x.qty + -q ≠ 0 := by linarith
  have ht : x.book.trade (-q) p = ⟨x.qty + -q, x.avg, x.realized⟩ := by
    rw [hp]
    exact Book.trade_at_avg x.book _ hne
  rw [ht, sellFigures_short hs h0 hlt]
  simp [Figures.book, sub_eq_add_neg, hp]

theorem sellFigures_book_flat (hs : IsWhole (x.qty - q)) (hzero : x.qty = 0) :
    (sellFigures x q p).book = x.book.trade (-q) p := by
  have hlt : x.qty - q < 0 := by linarith
  have hside : 0 ≤ x.book.quantity * -q := by simp [Figures.book, hzero]
  rw [Book.trade_same_side p hside, sellFigures_short hs h0 hlt]
  simp [Figures.book, hzero, h0.ne']

/-- A long position is crossed, closed or reduced. -/
theorem sellFigures_book_long (hs : IsWhole (x.qty - q)) (hpos : 0 < x.qty) :
    (sellFigures x q p).book = x.book.trade (-q) p := by
  have hside : x.book.quantity * -q < 0 := mul_neg_of_pos_of_neg hpos (neg_neg_of_pos h0)
  have habs : |x.book.quantity| = x.qty := abs_of_pos hpos
  obtain h | h | h := lt_trichotomy (x.qty - q) 0
  · have hr : ¬ |-q| < |x.book.quantity| := by
      rw [habs, abs_neg, abs_of_pos h0]
      linarith
    have hne : x.book.quantity + -q ≠ 0 := by
      change x.qty + -q ≠ 0
      linarith
    rw [Book.trade_cross p hside hr hne, sellFigures_short hs h0 h]
    simp [Figures.book, max_eq_left hpos.le, sub_eq_add_neg]
  · have hq := sub_eq_zero.mp h
    have hz : x.book.quantity + -q = 0 := by
      change x.qty + -q = 0
      linarith
    rw [Book.trade_close p hside hz, sellFigures_close h0 hq]
    simp [Figures.book, hq]
  · have hr : |-q| < |x.book.quantity| := by
      rw [habs, abs_neg, abs_of_pos h0]
      linarith
    rw [Book.trade_reduce p hside hr, sellFigures_reduce hs h0 h]
    simp only [Figures.book, Book.mk.injEq]
    exact ⟨by ring, trivial, by ring⟩

end Refinement

/-- Refinement: while the position is not short, or is traded at its own average,
the row moves as the average-cost book does. -/
theorem fillFigures_book (x : Figures) (f : Fill) (hx : IsWhole x.qty) (hf : f.Whole)
    (hc : x.cost = x.qty * x.avg) (hok : 0 ≤ x.qty ∨ f.price = x.avg) :
    (fillFigures x f.side f.quantity f.price).book =
      x.book.trade (f.side.signed f.quantity) f.price := by
  have h0 := hf.quantity_pos
  have hb := hx.add_fill hf .buy
  have hs := hx.add_fill hf .sell
  rw [OrderSide.signed, ← sub_eq_add_neg] at hs
  rw [OrderSide.signed] at hb
  cases f.side with
  | buy =>
    simp only [fillFigures, OrderSide.signed]
    obtain hneg | hpos := lt_or_ge x.qty 0
    · exact buyFigures_book_short h0 hb hc hneg (hok.resolve_left (not_le.mpr hneg))
    · exact buyFigures_book_long h0 hb hc hpos
  | sell =>
    simp only [fillFigures, OrderSide.signed]
    obtain hneg | hzero | hpos := lt_trichotomy x.qty 0
    · exact sellFigures_book_short h0 hs hneg (hok.resolve_left (not_le.mpr hneg))
    · exact sellFigures_book_flat h0 hs hzero
    · exact sellFigures_book_long h0 hs hpos

/-- Sum of quantity times price over the fills of one side. -/
def tradedValue (side : OrderSide) (fs : List Fill) : ℚ :=
  ((fs.filter fun f => f.side = side).map fun f => f.quantity * f.price).sum

/-- The accounting identity at every mark price, and the cost of the position. -/
def Accounted (row : PositionRow) (fs : List Fill) : Prop :=
  (∀ m : ℚ, row.oldRealized + row.oldQty * (m - row.oldAvg) =
    tradedValue .sell fs - tradedValue .buy fs + row.oldQty * m) ∧
  row.oldCost = row.oldQty * row.oldAvg

/-- The fill does not meet a short position, or meets it at its stored average. -/
def NotShortOrAtAverage (row : PositionRow) (f : Fill) : Prop :=
  0 ≤ row.oldQty ∨ f.price = row.oldAvg

instance (row : PositionRow) (f : Fill) : Decidable (NotShortOrAtAverage row f) :=
  inferInstanceAs (Decidable (_ ∨ _))

/-- The row together with the cash its fills moved. -/
structure Booked where
  row : PositionRow
  cash : ℚ

def Booked.fill (b : Booked) (f : Fill) : Booked :=
  ⟨applyFillToPosition b.row f, b.cash - f.side.signed f.quantity * f.price⟩

/-- The row's book carries the cash, and its cost is that of the position. -/
def Booked.Balanced (b : Booked) : Prop :=
  b.row.figures.book.cash = b.cash ∧ b.row.figures.cost = b.row.figures.qty * b.row.figures.avg

theorem Booked.fill_whole (b : Booked) (f : Fill) (hf : f.Whole) (h : IsWhole b.row.oldQty) :
    IsWhole (b.fill f).row.oldQty :=
  fillFigures_whole b.row.figures f h hf

theorem fillFigures_balanced (x : Figures) (f : Fill) (hx : IsWhole x.qty) (hf : f.Whole)
    (hc : x.cost = x.qty * x.avg) (hok : 0 ≤ x.qty ∨ f.price = x.avg) :
    (fillFigures x f.side f.quantity f.price).cost =
      (fillFigures x f.side f.quantity f.price).qty *
        (fillFigures x f.side f.quantity f.price).avg := by
  by_cases hz : (fillFigures x f.side f.quantity f.price).qty = 0
  · have h0 := hf.quantity_pos
    rw [hz, zero_mul]
    rw [fillFigures_qty x f hx hf] at hz
    cases hside : f.side with
    | buy =>
      simp only [hside, OrderSide.signed] at hz
      have hneg : ¬ 0 ≤ x.qty := by linarith
      simp only [fillFigures, buyFigures_cost, hc, hok.resolve_left hneg, ← add_mul, hz, zero_mul]
    | sell =>
      simp only [hside, OrderSide.signed] at hz
      have hq : x.qty = f.quantity := by linarith
      rw [fillFigures, sellFigures_close h0 hq]
  · exact fillFigures_cost x f hx hf hz

/-- Away from its average, a fill against a short position breaks the balance. -/
theorem fillFigures_unbalanced (x : Figures) (f : Fill) (hx : IsWhole x.qty) (hf : f.Whole)
    (hc : x.cost = x.qty * x.avg) (hneg : x.qty < 0) (hp : f.price ≠ x.avg)
    (hcash : (fillFigures x f.side f.quantity f.price).book.cash =
      x.book.cash - f.side.signed f.quantity * f.price) :
    (fillFigures x f.side f.quantity f.price).cost ≠
      (fillFigures x f.side f.quantity f.price).qty *
        (fillFigures x f.side f.quantity f.price).avg := by
  have h0 := hf.quantity_pos
  have hd : f.price - x.avg ≠ 0 := sub_ne_zero.mpr hp
  have hs := hx.add_fill hf .sell
  rw [OrderSide.signed, ← sub_eq_add_neg] at hs
  intro hcost
  cases hside : f.side with
  | buy =>
    simp only [hside, fillFigures, OrderSide.signed] at hcash hcost
    have hreal := buyFigures_realized_short (q := f.quantity) (p := f.price) hneg
    simp only [Figures.book, Book.cash, ← hcost, hreal, buyFigures_cost, hc] at hcash
    have hm : 0 < min f.quantity (-x.qty) := lt_min h0 (by linarith)
    have hzero : (f.price - x.avg) * min f.quantity (-x.qty) = 0 := by linarith
    exact (mul_ne_zero hd hm.ne') hzero
  | sell =>
    have hlt : x.qty - f.quantity < 0 := by linarith
    have hm : max x.qty 0 = 0 := max_eq_right hneg.le
    simp only [hside, fillFigures, OrderSide.signed, sellFigures_short hs h0 hlt, hm,
      Figures.book, Book.cash] at hcash
    have hzero : (f.price - x.avg) * x.qty = 0 := by linarith
    exact (mul_ne_zero hd hneg.ne) hzero

theorem Booked.fill_balanced_iff (b : Booked) (f : Fill) (hf : f.Whole)
    (hw : IsWhole b.row.oldQty) (hb : b.Balanced) :
    (b.fill f).Balanced ↔ NotShortOrAtAverage b.row f := by
  obtain ⟨hcash, hcost⟩ := hb
  constructor
  · intro ⟨hc', hb'⟩
    by_contra hn
    obtain ⟨hneg, hp⟩ := not_or.mp hn
    refine fillFigures_unbalanced b.row.figures f hw hf hcost (not_le.mp hneg) hp ?_ hb'
    rw [hcash]
    exact hc'
  · intro hok
    refine ⟨?_, fillFigures_balanced b.row.figures f hw hf hcost hok⟩
    have hd : f.side.signed f.quantity ≠ 0 := by
      have h0 := hf.quantity_pos.ne'
      cases f.side <;> simpa [OrderSide.signed] using h0
    have hr := fillFigures_book b.row.figures f hw hf hcost hok
    change (fillFigures b.row.figures f.side f.quantity f.price).book.cash = _
    rw [hr, Book.trade_cash _ _ _ hd, hcash]
    rfl

theorem foldl_fill_row (b : Booked) (fs : List Fill) :
    (fs.foldl Booked.fill b).row = fs.foldl applyFillToPosition b.row := by
  induction fs generalizing b with
  | nil => rfl
  | cons f fs ih => exact ih (b.fill f)

theorem foldl_fill_cash (b : Booked) (fs : List Fill) :
    (fs.foldl Booked.fill b).cash = b.cash + tradedValue .sell fs - tradedValue .buy fs := by
  induction fs generalizing b with
  | nil => simp [tradedValue]
  | cons f fs ih =>
    rw [List.foldl_cons, ih]
    cases hside : f.side <;>
      simp [Booked.fill, OrderSide.signed, tradedValue, hside] <;> ring

theorem accounted_iff_balanced (fs : List Fill) :
    Accounted (fs.foldl applyFillToPosition {}) fs ↔
      (fs.foldl Booked.fill ⟨{}, 0⟩).Balanced := by
  rw [Booked.Balanced, foldl_fill_row, foldl_fill_cash, Accounted]
  refine and_congr ?_ Iff.rfl
  simp only [Figures.book, Book.cash, PositionRow.figures, zero_add]
  constructor
  · intro h
    have h0 := h 0
    linarith
  · intro h m
    linarith

theorem stepsMeet_booked (b : Booked) (fs : List Fill) :
    StepsMeet Booked.fill (fun b f => NotShortOrAtAverage b.row f) b fs ↔
      StepsMeet applyFillToPosition NotShortOrAtAverage b.row fs := by
  induction fs generalizing b with
  | nil => simp [StepsMeet]
  | cons f fs ih => simp only [StepsMeet, ih, Booked.fill]

/-- The ledger accounts for its fills at every point of a sequence exactly when no
fill meets a short position at a price other than its stored average. -/
theorem position_accounting (fs : List Fill) (hw : ∀ f ∈ fs, f.Whole) :
    (∀ pre, pre <+: fs → Accounted (pre.foldl applyFillToPosition {}) pre) ↔
      StepsMeet applyFillToPosition NotShortOrAtAverage {} fs := by
  have hiff := alongRun_iff (P := Booked.Balanced) (I := fun b => IsWhole b.row.oldQty)
    (D := Fill.Whole) (fun b f hf h => b.fill_whole f hf h)
    (fun b f hf h hb => b.fill_balanced_iff f hf h hb) fs hw ⟨{}, 0⟩
    ⟨0, by simp [PositionRow.oldQty]⟩
    (by simp [Booked.Balanced, Figures.book, Book.cash, PositionRow.figures,
      PositionRow.oldQty, PositionRow.oldAvg, PositionRow.oldCost, PositionRow.oldRealized])
  simp only [accounted_iff_balanced]
  exact hiff.trans (stepsMeet_booked ⟨{}, 0⟩ fs)

def sampleFill (side : OrderSide) (q p : ℚ) : Fill :=
  ⟨"INFY", side, q, p, p, some .nse, "2026-01-05T09:20:00+00:00"⟩

theorem position_accounting_long_round_trip :
    (∀ pre, pre <+: [sampleFill .buy 10 100, sampleFill .sell 4 110] →
      Accounted (pre.foldl applyFillToPosition {}) pre) ↔
    StepsMeet applyFillToPosition NotShortOrAtAverage {}
      [sampleFill .buy 10 100, sampleFill .sell 4 110] :=
  position_accounting _ (by
    intro f hf
    simp only [List.mem_cons, List.not_mem_nil, or_false] at hf
    obtain rfl | rfl := hf
    · exact ⟨⟨10, by norm_num, by norm_num [sampleFill]⟩, by norm_num [sampleFill]⟩
    · exact ⟨⟨4, by norm_num, by norm_num [sampleFill]⟩, by norm_num [sampleFill]⟩)

/-- Short ten at 100, then four bought back at 90: the row books the profit and
also moves the average of what stays short. -/
theorem short_cover_not_accounted :
    ¬ ∀ fs : List Fill, (∀ f ∈ fs, f.Whole) →
      Accounted (fs.foldl applyFillToPosition {}) fs := by
  intro h
  have hs := (h [sampleFill .sell 10 100, sampleFill .buy 4 90] (by
    intro f hf
    simp only [List.mem_cons, List.not_mem_nil, or_false] at hf
    obtain rfl | rfl := hf
    · exact ⟨⟨10, by norm_num, by norm_num [sampleFill]⟩, by norm_num [sampleFill]⟩
    · exact ⟨⟨4, by norm_num, by norm_num [sampleFill]⟩, by norm_num [sampleFill]⟩)).1 0
  revert hs
  decide +kernel

end QuantEmbrace
