import QuantEmbrace.PositionAccounting

/-! The risk engine's intraday row of one symbol (`_apply_fill_to_daily_symbol_pnl`)
and its agreement with the execution engine's position row. -/
namespace QuantEmbrace
open AverageCost GuardedRun

/-- `PNL_SYMBOL#{day}#{symbol}`; an absent or empty number reads as zero. -/
structure SymbolPnlRow where
  quantity : Option ℚ := none
  avgPrice : Option ℚ := none
  realizedPnl : Option ℚ := none
  deriving DecidableEq, Repr

def SymbolPnlRow.book (r : SymbolPnlRow) : Book ℚ :=
  ⟨r.quantity.getD 0, r.avgPrice.getD 0, r.realizedPnl.getD 0⟩

inductive RiskError where
  | unsupportedDirection (direction : String)
  deriving DecidableEq, Repr

/-- New quantity, new average and `realized_delta` of one fill. -/
structure SymbolFill where
  newQty : ℚ
  newAvg : ℚ
  realizedDelta : ℚ
  deriving DecidableEq, Repr

def symbolBuy (oldQty oldAvg quantity price : ℚ) : SymbolFill :=
  let newQty := oldQty + quantity
  if oldQty < 0 then
    { newQty
      newAvg := if newQty < 0 then oldAvg else if newQty > 0 then price else 0
      realizedDelta := (oldAvg - price) * min quantity |oldQty| }
  else
    { newQty
      newAvg := (oldQty * oldAvg + quantity * price) / newQty
      realizedDelta := 0 }

def symbolSell (oldQty oldAvg quantity price : ℚ) : SymbolFill :=
  let newQty := oldQty - quantity
  if oldQty > 0 then
    { newQty
      newAvg := if newQty > 0 then oldAvg else if newQty < 0 then price else 0
      realizedDelta := (price - oldAvg) * min quantity oldQty }
  else
    { newQty
      newAvg := (|oldQty| * oldAvg + quantity * price) / |newQty|
      realizedDelta := 0 }

def SymbolFill.put (s : SymbolFill) (oldRealized : ℚ) : SymbolPnlRow :=
  ⟨some s.newQty, some s.newAvg, some (oldRealized + s.realizedDelta)⟩

def applyFillToDailySymbolPnl (item : SymbolPnlRow) (direction : String)
    (quantity price : ℚ) : Except RiskError (SymbolPnlRow × ℚ) :=
  let old := item.book
  if direction = "BUY" then
    let s := symbolBuy old.quantity old.avg quantity price
    .ok (s.put old.realized, s.realizedDelta)
  else if direction = "SELL" then
    let s := symbolSell old.quantity old.avg quantity price
    .ok (s.put old.realized, s.realizedDelta)
  else .error (.unsupportedDirection direction)

def OrderSide.value : OrderSide → String
  | .buy => "BUY"
  | .sell => "SELL"

/-- The stored row after one fill event; a raised error stops the sequence. -/
def recordSymbolFill (row : SymbolPnlRow) (f : Fill) : Except RiskError SymbolPnlRow :=
  (applyFillToDailySymbolPnl row f.side.value f.quantity f.price).map Prod.fst

/-- The row after a sequence of fills of one symbol on one trading day. -/
def riskLedger (fs : List Fill) : Except RiskError SymbolPnlRow := fs.foldlM recordSymbolFill {}

/-- The row one BUY or SELL fill leaves. -/
def symbolRow (row : SymbolPnlRow) (f : Fill) : SymbolPnlRow :=
  match f.side with
  | .buy => (symbolBuy row.book.quantity row.book.avg f.quantity f.price).put row.book.realized
  | .sell => (symbolSell row.book.quantity row.book.avg f.quantity f.price).put row.book.realized

theorem recordSymbolFill_eq (row : SymbolPnlRow) (f : Fill) :
    recordSymbolFill row f = .ok (symbolRow row f) := by
  cases hside : f.side <;> simp [recordSymbolFill, applyFillToDailySymbolPnl, OrderSide.value,
    symbolRow, hside, Except.map]

theorem foldlM_recordSymbolFill (row : SymbolPnlRow) (fs : List Fill) :
    fs.foldlM recordSymbolFill row = .ok (fs.foldl symbolRow row) := by
  induction fs generalizing row with
  | nil => rfl
  | cons f fs ih =>
    rw [List.foldlM_cons, recordSymbolFill_eq]
    exact ih (symbolRow row f)

theorem riskLedger_eq (fs : List Fill) : riskLedger fs = .ok (fs.foldl symbolRow {}) :=
  foldlM_recordSymbolFill {} fs

theorem symbolBuy_book (b : Book ℚ) (q p : ℚ) (h0 : 0 < q) :
    ((symbolBuy b.quantity b.avg q p).put b.realized).book = b.trade q p := by
  obtain hneg | hpos := lt_or_ge b.quantity 0
  · have hside : b.quantity * q < 0 := mul_neg_of_neg_of_pos hneg h0
    obtain h | h | h := lt_trichotomy (b.quantity + q) 0
    · have hr : |q| < |b.quantity| := by
        rw [abs_of_pos h0, abs_of_neg hneg]
        linarith
      have hm : min q |b.quantity| = q := min_eq_left (by rw [abs_of_neg hneg]; linarith)
      rw [Book.trade_reduce p hside hr]
      simp [symbolBuy, SymbolFill.put, SymbolPnlRow.book, hneg, h, hm]
    · have hm : min q |b.quantity| = -b.quantity := by
        rw [abs_of_neg hneg]
        exact min_eq_right (by linarith)
      rw [Book.trade_close p hside h]
      simp only [symbolBuy, SymbolFill.put, SymbolPnlRow.book, if_pos hneg, h, hm,
        Option.getD_some, lt_irrefl, if_false, Book.mk.injEq, true_and]
      ring
    · have hr : ¬ |q| < |b.quantity| := by
        rw [abs_of_pos h0, abs_of_neg hneg]
        linarith
      have hm : min q |b.quantity| = -b.quantity := by
        rw [abs_of_neg hneg]
        exact min_eq_right (by linarith)
      rw [Book.trade_cross p hside hr h.ne']
      simp only [symbolBuy, SymbolFill.put, SymbolPnlRow.book, if_pos hneg, hm,
        Option.getD_some, if_neg (not_lt.mpr h.le), if_pos h, Book.mk.injEq, true_and]
      ring
  · rw [Book.trade_same_side p (mul_nonneg hpos h0.le)]
    simp [symbolBuy, SymbolFill.put, SymbolPnlRow.book, not_lt.mpr hpos]

theorem symbolSell_book (b : Book ℚ) (q p : ℚ) (h0 : 0 < q) :
    ((symbolSell b.quantity b.avg q p).put b.realized).book = b.trade (-q) p := by
  obtain hpos | hneg := lt_or_ge 0 b.quantity
  · have hside : b.quantity * -q < 0 := mul_neg_of_pos_of_neg hpos (neg_neg_of_pos h0)
    have habs : |(-q)| = q := by rw [abs_neg, abs_of_pos h0]
    obtain h | h | h := lt_trichotomy (b.quantity - q) 0
    · have hr : ¬ |(-q)| < |b.quantity| := by
        rw [habs, abs_of_pos hpos]
        linarith
      have hm : min q b.quantity = b.quantity := min_eq_right (by linarith)
      rw [Book.trade_cross p hside hr (by linarith)]
      have h' : b.quantity + -q < 0 := by linarith
      simp only [symbolSell, SymbolFill.put, SymbolPnlRow.book, if_pos hpos, hm,
        Option.getD_some, sub_eq_add_neg, if_neg (not_lt.mpr h'.le), if_pos h']
    · have hm : min q b.quantity = b.quantity := min_eq_right (by linarith)
      rw [Book.trade_close p hside (by linarith)]
      simp [symbolSell, SymbolFill.put, SymbolPnlRow.book, hpos, hm, h]
    · have hr : |(-q)| < |b.quantity| := by
        rw [habs, abs_of_pos hpos]
        linarith
      have hm : min q b.quantity = q := min_eq_left (by linarith)
      rw [Book.trade_reduce p hside hr]
      simp only [symbolSell, SymbolFill.put, SymbolPnlRow.book, if_pos hpos, hm,
        Option.getD_some, if_pos h, Book.mk.injEq]
      exact ⟨by ring, trivial, by ring⟩
  · have hlt : b.quantity - q < 0 := by linarith
    rw [Book.trade_same_side p (mul_nonneg_of_nonpos_of_nonpos hneg (by linarith))]
    simp only [symbolSell, SymbolFill.put, SymbolPnlRow.book, if_neg (not_lt.mpr hneg),
      abs_of_nonpos hneg, abs_of_neg hlt, Option.getD_some, add_zero, Book.mk.injEq, and_true]
    refine ⟨by ring, ?_⟩
    rw [div_eq_div_iff (by linarith) (by linarith)]
    ring

/-- The risk ledger is the average-cost book, on both sides of zero. -/
theorem symbolRow_book (row : SymbolPnlRow) (f : Fill) (h0 : 0 < f.quantity) :
    (symbolRow row f).book = row.book.trade (f.side.signed f.quantity) f.price := by
  unfold symbolRow
  cases f.side with
  | buy => exact symbolBuy_book row.book f.quantity f.price h0
  | sell => exact symbolSell_book row.book f.quantity f.price h0

/-- Both ledgers hold the same quantity, average and cumulative realized P&L. -/
def LedgersAgree (row : PositionRow) (risk : Except RiskError SymbolPnlRow) : Prop :=
  ∃ r, risk = .ok r ∧ row.oldQty = r.book.quantity ∧ row.oldAvg = r.book.avg ∧
    row.oldRealized = r.book.realized

/-- The fill meets a long position, or a flat one whose stored cost is zero (any
flat one for a SELL), or a short one at its average or to its exact cover. -/
def SameRegime (row : PositionRow) (f : Fill) : Prop :=
  0 < row.oldQty ∨
  (row.oldQty = 0 ∧ (f.side = .sell ∨ row.oldCost = 0)) ∨
  (row.oldQty < 0 ∧ (f.price = row.oldAvg ∨ (f.side = .buy ∧ f.quantity = -row.oldQty)))

/-- Both rows of the symbol, stepped by the same fill. -/
structure LedgerPair where
  exec : PositionRow
  risk : SymbolPnlRow

def LedgerPair.fill (l : LedgerPair) (f : Fill) : LedgerPair :=
  ⟨applyFillToPosition l.exec f, symbolRow l.risk f⟩

def LedgerPair.Agree (l : LedgerPair) : Prop := l.exec.figures.book = l.risk.book

/-- What the execution row keeps whatever the prices were. -/
structure LedgerPair.Sound (l : LedgerPair) : Prop where
  whole : IsWhole l.exec.oldQty
  cost : l.exec.oldQty ≠ 0 → l.exec.oldCost = l.exec.oldQty * l.exec.oldAvg
  flat : l.exec.oldQty = 0 → l.exec.oldAvg = 0

theorem fillFigures_flat_avg (x : Figures) (f : Fill) (hx : IsWhole x.qty) (hf : f.Whole)
    (hz : (fillFigures x f.side f.quantity f.price).qty = 0) :
    (fillFigures x f.side f.quantity f.price).avg = 0 := by
  have h0 := hf.quantity_pos
  rw [fillFigures_qty x f hx hf] at hz
  cases hside : f.side with
  | buy =>
    simp only [hside, OrderSide.signed] at hz
    exact buyFigures_flat hz
  | sell =>
    simp only [hside, OrderSide.signed] at hz
    rw [fillFigures, sellFigures_close h0 (by linarith)]

theorem LedgerPair.fill_sound (l : LedgerPair) (f : Fill) (hf : f.Whole) (h : l.Sound) :
    (l.fill f).Sound where
  whole := fillFigures_whole l.exec.figures f h.whole hf
  cost := fillFigures_cost l.exec.figures f h.whole hf
  flat := fillFigures_flat_avg l.exec.figures f h.whole hf

theorem weighted_eq_iff {a b c d e : ℚ} (hne : a + b ≠ 0) :
    (a * c + b * d) / (a + b) = e ↔ a * (c - e) = b * (e - d) := by
  rw [div_eq_iff hne]
  constructor <;> intro h <;> linarith

/-- One fill on a flat execution row, against the average-cost book. -/
theorem fillFigures_book_flat_iff (x : Figures) (f : Fill) (hx : IsWhole x.qty) (hf : f.Whole)
    (hz : x.qty = 0) :
    (fillFigures x f.side f.quantity f.price).book =
        x.book.trade (f.side.signed f.quantity) f.price ↔
      f.side = .sell ∨ x.cost = 0 := by
  have h0 := hf.quantity_pos
  have hb := hx.add_fill hf .buy
  have hs := hx.add_fill hf .sell
  rw [OrderSide.signed] at hb
  rw [OrderSide.signed, ← sub_eq_add_neg] at hs
  have hside (d : ℚ) : 0 ≤ x.book.quantity * d := by simp [Figures.book, hz]
  rw [Book.trade_same_side _ (hside _)]
  cases f.side with
  | buy =>
    have hne : x.qty + f.quantity ≠ 0 := by linarith
    simp only [fillFigures, OrderSide.signed, Figures.book, buyFigures_qty,
      buyFigures_open hb hne, buyFigures_realized_long hz.ge, Book.mk.injEq, true_and, and_true]
    rw [hz, zero_add, zero_mul, zero_add, div_left_inj' h0.ne']
    simp
  | sell =>
    simp only [fillFigures, OrderSide.signed, sellFigures_short hs h0 (by linarith : x.qty -
      f.quantity < 0)]
    simp [Figures.book, hz, h0.ne']

/-- One fill on a short execution row, against the average-cost book. -/
theorem fillFigures_book_short_iff (x : Figures) (f : Fill) (hx : IsWhole x.qty) (hf : f.Whole)
    (hc : x.cost = x.qty * x.avg) (hneg : x.qty < 0) :
    (fillFigures x f.side f.quantity f.price).book =
        x.book.trade (f.side.signed f.quantity) f.price ↔
      f.price = x.avg ∨ (f.side = .buy ∧ f.quantity = -x.qty) := by
  have h0 := hf.quantity_pos
  have hb := hx.add_fill hf .buy
  have hs := hx.add_fill hf .sell
  rw [OrderSide.signed] at hb
  rw [OrderSide.signed, ← sub_eq_add_neg] at hs
  by_cases hp : f.price = x.avg
  · exact ⟨fun _ => Or.inl hp, fun _ => fillFigures_book x f hx hf hc (Or.inr hp)⟩
  have hd : f.price - x.avg ≠ 0 := sub_ne_zero.mpr hp
  simp only [hp, false_or]
  cases f.side with
  | buy =>
    have hside : x.book.quantity * f.quantity < 0 := mul_neg_of_neg_of_pos hneg h0
    simp only [fillFigures, OrderSide.signed, true_and]
    by_cases hz : x.qty + f.quantity = 0
    · have hm : min f.quantity (-x.qty) = -x.qty := min_eq_right (by linarith)
      rw [Book.trade_close f.price hside hz]
      simp only [Figures.book, buyFigures_qty, buyFigures_flat hz, hz,
        buyFigures_realized_short hneg, hm, Book.mk.injEq, true_and]
      exact ⟨fun _ => by linarith, fun _ => by ring⟩
    · refine ⟨fun h => ?_, fun h => absurd (by linarith) hz⟩
      exfalso
      have havg := congrArg Book.avg h
      simp only [Figures.book, buyFigures_open hb hz, hc] at havg
      obtain hr | hr := lt_or_ge |f.quantity| |x.book.quantity|
      · -- a partial cover keeps the average in the book
        have ht := congrArg Book.avg (Book.trade_reduce f.price hside hr)
        rw [← Figures.book, ht, weighted_eq_iff hz] at havg
        have hzero : f.quantity * (f.price - x.avg) = 0 := by
          simp only [Figures.book] at havg
          linarith
        exact (mul_ne_zero h0.ne' hd) hzero
      · have ht := congrArg Book.avg (Book.trade_cross f.price hside (not_lt.mpr hr) hz)
        rw [← Figures.book, ht, weighted_eq_iff hz] at havg
        have hzero : x.qty * (f.price - x.avg) = 0 := by linarith
        exact (mul_ne_zero hneg.ne hd) hzero
  | sell =>
    have hlt : x.qty - f.quantity < 0 := by linarith
    have hne : x.qty + -f.quantity ≠ 0 := by linarith
    have hside : 0 ≤ x.book.quantity * -f.quantity :=
      mul_nonneg_of_nonpos_of_nonpos hneg.le (by linarith)
    simp only [fillFigures, OrderSide.signed, reduceCtorEq, false_and, iff_false]
    intro h
    have havg := congrArg Book.avg h
    rw [Book.trade_same_side f.price hside] at havg
    simp only [sellFigures_short hs h0 hlt, Figures.book] at havg
    rw [eq_comm, weighted_eq_iff hne] at havg
    have hzero : x.qty * (f.price - x.avg) = 0 := by linarith
    exact (mul_ne_zero hneg.ne hd) hzero

theorem LedgerPair.fill_agree_iff (l : LedgerPair) (f : Fill) (hf : f.Whole) (h : l.Sound)
    (ha : l.Agree) : (l.fill f).Agree ↔ SameRegime l.exec f := by
  have hrisk := symbolRow_book l.risk f hf.quantity_pos
  rw [← ha] at hrisk
  change (fillFigures l.exec.figures f.side f.quantity f.price).book = _ ↔ _
  rw [LedgerPair.fill, hrisk]
  obtain hneg | hzero | hpos := lt_trichotomy l.exec.oldQty 0
  · rw [fillFigures_book_short_iff l.exec.figures f h.whole hf (h.cost hneg.ne) hneg]
    simp [SameRegime, hneg, hneg.ne, not_lt.mpr hneg.le, PositionRow.figures]
  · rw [fillFigures_book_flat_iff l.exec.figures f h.whole hf hzero]
    simp [SameRegime, hzero, PositionRow.figures]
  · have hb := fillFigures_book l.exec.figures f h.whole hf (h.cost hpos.ne') (Or.inl hpos.le)
    simp [SameRegime, hpos, hb]

theorem foldl_fill_pair (l : LedgerPair) (fs : List Fill) :
    fs.foldl LedgerPair.fill l =
      ⟨fs.foldl applyFillToPosition l.exec, fs.foldl symbolRow l.risk⟩ := by
  induction fs generalizing l with
  | nil => rfl
  | cons f fs ih => exact ih (l.fill f)

theorem stepsMeet_pair (l : LedgerPair) (fs : List Fill) :
    StepsMeet LedgerPair.fill (fun l f => SameRegime l.exec f) l fs ↔
      StepsMeet applyFillToPosition SameRegime l.exec fs := by
  induction fs generalizing l with
  | nil => simp [StepsMeet]
  | cons f fs ih => simp only [StepsMeet, ih, LedgerPair.fill]

theorem ledgersAgree_iff (fs : List Fill) :
    LedgersAgree (fs.foldl applyFillToPosition {}) (riskLedger fs) ↔
      (fs.foldl LedgerPair.fill ⟨{}, {}⟩).Agree := by
  rw [foldl_fill_pair, riskLedger_eq]
  simp only [LedgersAgree, Except.ok.injEq, exists_eq_left', LedgerPair.Agree]
  generalize fs.foldl applyFillToPosition {} = row
  simp [Figures.book, PositionRow.figures, SymbolPnlRow.book]

/-- The two P&L ledgers agree at every point of a sequence exactly when no fill
meets a short position, or the cost an exact cover left behind, off its average. -/
theorem ledgers_agree (fs : List Fill) (hw : ∀ f ∈ fs, f.Whole) :
    (∀ pre, pre <+: fs →
      LedgersAgree (pre.foldl applyFillToPosition {}) (riskLedger pre)) ↔
      StepsMeet applyFillToPosition SameRegime {} fs := by
  have hiff := alongRun_iff (P := LedgerPair.Agree) (I := LedgerPair.Sound)
    (D := Fill.Whole) (fun l f hf h => l.fill_sound f hf h)
    (fun l f hf h ha => l.fill_agree_iff f hf h ha) fs hw ⟨{}, {}⟩
    ⟨⟨0, by simp [PositionRow.oldQty]⟩, by simp [PositionRow.oldQty],
      by simp [PositionRow.oldAvg]⟩
    (by simp [LedgerPair.Agree, Figures.book, PositionRow.figures, SymbolPnlRow.book,
      PositionRow.oldQty, PositionRow.oldAvg, PositionRow.oldRealized])
  simp only [ledgersAgree_iff]
  exact hiff.trans (stepsMeet_pair ⟨{}, {}⟩ fs)

theorem ledgers_agree_long_round_trip :
    (∀ pre, pre <+: [sampleFill .buy 10 100, sampleFill .sell 4 110] →
      LedgersAgree (pre.foldl applyFillToPosition {}) (riskLedger pre)) ↔
    StepsMeet applyFillToPosition SameRegime {}
      [sampleFill .buy 10 100, sampleFill .sell 4 110] :=
  ledgers_agree _ (by
    intro f hf
    simp only [List.mem_cons, List.not_mem_nil, or_false] at hf
    obtain rfl | rfl := hf
    · exact ⟨⟨10, by norm_num, by norm_num [sampleFill]⟩, by norm_num [sampleFill]⟩
    · exact ⟨⟨4, by norm_num, by norm_num [sampleFill]⟩, by norm_num [sampleFill]⟩)

/-- Ten sold short at 100 and five more at 110: the position row keeps 110 as the
average of all fifteen, the risk row the weighted average. -/
theorem short_add_ledgers_differ :
    ¬ ∀ fs : List Fill, (∀ f ∈ fs, f.Whole) →
      LedgersAgree (fs.foldl applyFillToPosition {}) (riskLedger fs) := by
  intro h
  have hs := h [sampleFill .sell 10 100, sampleFill .sell 5 110] (by
    intro f hf
    simp only [List.mem_cons, List.not_mem_nil, or_false] at hf
    obtain rfl | rfl := hf
    · exact ⟨⟨10, by norm_num, by norm_num [sampleFill]⟩, by norm_num [sampleFill]⟩
    · exact ⟨⟨5, by norm_num, by norm_num [sampleFill]⟩, by norm_num [sampleFill]⟩)
  rw [riskLedger_eq] at hs
  obtain ⟨r, hr, _, ha, _⟩ := hs
  rw [← Except.ok.inj hr] at ha
  revert ha
  decide +kernel

end QuantEmbrace
