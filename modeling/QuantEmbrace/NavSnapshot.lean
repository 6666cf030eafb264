import QuantEmbrace.RecordFill
import QuantEmbrace.Lib.GuardedRun
import QuantEmbrace.Lib.InFlight

/-! The NAV item and its two writers: `_write_nav_snapshot` of the execution engine adds up
cash flow, `_update_daily_pnl_and_nav` of the risk engine puts the realized P&L of the day,
both for every fill and at any time. -/
namespace QuantEmbrace
open AverageCost GuardedRun
variable {ι : Type*}

/-- The numbers of the NAV item; a missing one reads as zero. -/
structure NavItem where
  portfolioValue : ℚ
  realizedCashFlow : Option ℚ := none
  openingNav : Option ℚ := none
  realizedPnlToday : Option ℚ := none
  deriving DecidableEq, Repr

/-- For a SELL, cash increases. For a BUY, cash decreases. -/
def cashDelta (f : Fill) : ℚ :=
  match f.side with
  | .sell => f.quantity * f.price
  | .buy => -(f.quantity * f.price)

def cashOf (item : Option NavItem) : ℚ := (item.bind NavItem.realizedCashFlow).getD 0

/-- The update of `_write_nav_snapshot` keeps the entries it does not name. -/
def snapshotUpdate (openingNav oldCash : ℚ) (f : Fill) (stored : Option NavItem) : NavItem where
  portfolioValue := openingNav + (oldCash + cashDelta f)
  realizedCashFlow := some (oldCash + cashDelta f)
  openingNav := stored.bind NavItem.openingNav
  realizedPnlToday := stored.bind NavItem.realizedPnlToday

/-- The put of `_update_daily_pnl_and_nav` replaces the item. -/
def navPut (openingNav realizedToday : ℚ) : NavItem where
  portfolioValue := openingNav + realizedToday
  openingNav := some openingNav
  realizedPnlToday := some realizedToday

/-- The books of a day and what its fills have realized against average cost. -/
structure DayBook where
  books : String → Book ℚ
  realized : ℚ

namespace DayBook

def opening : DayBook := ⟨fun _ => .flat, 0⟩

def trade (d : DayBook) (f : Fill) : DayBook :=
  let b := (d.books f.symbol).trade (f.side.signed f.quantity) f.price
  ⟨Function.update d.books f.symbol b, d.realized + (b.realized - (d.books f.symbol).realized)⟩

end DayBook

inductive SnapshotPhase where
  | idle
  | read (oldCash : ℚ)
  | done
  deriving DecidableEq, Repr

inductive RecordPhase where
  | idle
  | reserved
  | applied (realizedDelta : ℚ)
  | added (realizedToday : ℚ)
  | done
  deriving DecidableEq, Repr

inductive NavEvent where
  | read
  | update
  | reserve
  | apply
  | add
  | put
  deriving DecidableEq, Repr

/-- The NAV item with all it ever was, the rows of the risk engine, and the two calls made
for each fill; `book` has the fills in the order in which the risk engine applied them. -/
structure NavWorld (ι : Type*) where
  nav : Option NavItem
  past : List (Option NavItem)
  symbolRows : String → SymbolPnlRow
  realizedDay : ℚ
  snapshot : ι → SnapshotPhase
  record : ι → RecordPhase
  book : DayBook

namespace NavWorld

/-- A day begins, with the NAV item of the day before. -/
def start (nav : Option NavItem) : NavWorld ι :=
  ⟨nav, [nav], fun _ => {}, 0, fun _ => .idle, fun _ => .idle, .opening⟩

variable [DecidableEq ι]

def setSnapshot (w : NavWorld ι) (i : ι) (p : SnapshotPhase) : NavWorld ι :=
  { w with snapshot := Function.update w.snapshot i p }

def setRecord (w : NavWorld ι) (i : ι) (p : RecordPhase) : NavWorld ι :=
  { w with record := Function.update w.record i p }

def setNav (w : NavWorld ι) (item : NavItem) : NavWorld ι :=
  { w with nav := some item, past := some item :: w.past }

/- The lock of the symbol makes read and put of its row one step; a repeated event ends at
   the reservation, and a call that fails leaves its fill unprocessed. -/
inductive Step (openingNav : ℚ) (fills : ι → Fill) : NavWorld ι → ι × NavEvent → NavWorld ι → Prop
  -- the read does not ask for a consistent one
  | read {w : NavWorld ι} {i : ι} {item : Option NavItem} : w.snapshot i = .idle →
      item ∈ w.past → Step openingNav fills w (i, .read) (w.setSnapshot i (.read (cashOf item)))
  | update {w : NavWorld ι} {i : ι} {oldCash : ℚ} : w.snapshot i = .read oldCash →
      Step openingNav fills w (i, .update)
        ((w.setNav (snapshotUpdate openingNav oldCash (fills i) w.nav)).setSnapshot i .done)
  | reserve {w : NavWorld ι} {i : ι} : w.record i = .idle → 0 < (fills i).quantity →
      0 < (fills i).price → Step openingNav fills w (i, .reserve) (w.setRecord i .reserved)
  | apply {w : NavWorld ι} {i : ι} {row : SymbolPnlRow} {realizedDelta : ℚ} :
      w.record i = .reserved → 0 < (fills i).quantity →
      applyFillRaising (w.symbolRows (fills i).symbol) (fills i).side.value (fills i).quantity
        (fills i).price = .ok (row, realizedDelta) →
      Step openingNav fills w (i, .apply)
        ({ w with
            symbolRows := Function.update w.symbolRows (fills i).symbol row
            book := w.book.trade (fills i) }.setRecord i (.applied realizedDelta))
  | add {w : NavWorld ι} {i : ι} {realizedDelta : ℚ} : w.record i = .applied realizedDelta →
      Step openingNav fills w (i, .add)
        ({ w with realizedDay := w.realizedDay + realizedDelta }.setRecord i
          (.added (w.realizedDay + realizedDelta)))
  | put {w : NavWorld ι} {i : ι} {realizedToday : ℚ} : w.record i = .added realizedToday →
      Step openingNav fills w (i, .put)
        ((w.setNav (navPut openingNav realizedToday)).setRecord i .done)

omit [DecidableEq ι]

/-- Each fill has been processed by both engines, or by neither. -/
def Quiet (w : NavWorld ι) : Prop :=
  ∀ i, (w.snapshot i = .idle ∧ w.record i = .idle) ∨ (w.snapshot i = .done ∧ w.record i = .done)

/-- The NAV item shows the opening value and what the fills have realized. -/
def Agrees (openingNav : ℚ) (w : NavWorld ι) : Prop :=
  w.Quiet → (∃ i, w.record i = .done) →
    ∃ item, w.nav = some item ∧ item.portfolioValue = openingNav + w.book.realized

/-- All fills but `i` are at rest. -/
def QuietBut (w : NavWorld ι) (i : ι) : Prop :=
  ∀ j, j ≠ i →
    (w.snapshot j = .idle ∧ w.record j = .idle) ∨ (w.snapshot j = .done ∧ w.record j = .done)

/-- The write that leaves nothing in flight is a put whose total is still that of the day,
or a snapshot on top of a cash flow that makes up for the fill. -/
def LastWriteAgrees (fills : ι → Fill) (w : NavWorld ι) : ι × NavEvent → Prop
  | (i, .update) => w.QuietBut i → w.record i = .done →
    ∀ oldCash, w.snapshot i = .read oldCash → oldCash + cashDelta (fills i) = w.realizedDay
  | (i, .put) => w.QuietBut i → w.snapshot i = .done →
    ∀ realizedToday, w.record i = .added realizedToday → realizedToday = w.realizedDay
  | _ => True

end NavWorld

/-- What the risk engine computes for a fill is the trade at average cost. -/
theorem applyFillRaising_fill {row row' : SymbolPnlRow} {f : Fill} {realizedDelta : ℚ}
    (hq : 0 < f.quantity)
    (h : applyFillRaising row f.side.value f.quantity f.price = .ok (row', realizedDelta)) :
    row'.book = row.book.trade (f.side.signed f.quantity) f.price ∧
      row'.book.realized = row.book.realized + realizedDelta := by
  rw [applyFillRaising, if_neg (averageDivisor_ne_zero _ _ hq)] at h
  rw [← symbolRow_book row f hq]
  cases hside : f.side with
  | buy =>
    simp only [hside, OrderSide.value, applyFillToDailySymbolPnl, if_true, Except.ok.injEq,
      Prod.mk.injEq] at h
    obtain ⟨rfl, rfl⟩ := h
    simp only [symbolRow, hside]
    exact ⟨trivial, rfl⟩
  | sell =>
    have hne : ¬ ("SELL" = "BUY") := by decide
    simp only [hside, OrderSide.value, applyFillToDailySymbolPnl, if_neg hne, if_true,
      Except.ok.injEq, Prod.mk.injEq] at h
    obtain ⟨rfl, rfl⟩ := h
    simp only [symbolRow, hside]
    exact ⟨trivial, rfl⟩

namespace RecordPhase

/-- The P&L of a fill on its way from the row of the symbol to the row of the day. -/
def inTransit : RecordPhase → Option ℚ
  | applied realizedDelta => some realizedDelta
  | _ => none

end RecordPhase

namespace NavWorld
variable {openingNav : ℚ} {fills : ι → Fill} {w w' : NavWorld ι} {ev : ι × NavEvent} {i : ι}

structure Sound (openingNav : ℚ) (w : NavWorld ι) : Prop where
  books : ∀ symbol, (w.symbolRows symbol).book = w.book.books symbol
  carried : InFlight.Carried (RecordPhase.inTransit ∘ w.record) (w.book.realized - w.realizedDay)
  shown : w.Quiet → (∃ i, w.record i = .done) →
    ∃ item, w.nav = some item ∧ item.portfolioValue = openingNav + w.realizedDay

/-- With no record under way, the row of the day has everything that was realized. -/
theorem Sound.realized (h : Sound openingNav w)
    (hrest : ∀ i, w.record i = .idle ∨ w.record i = .done ∨ ∃ t, w.record i = .added t) :
    w.book.realized = w.realizedDay := by
  refine sub_eq_zero.mp (h.carried.eq_zero fun i => ?_)
  obtain hr | hr | ⟨t, hr⟩ := hrest i
  · simp [hr, RecordPhase.inTransit]
  · simp [hr, RecordPhase.inTransit]
  · simp [hr, RecordPhase.inTransit]

theorem Sound.agrees (h : Sound openingNav w) : Agrees openingNav w := by
  intro hquiet hsome
  obtain ⟨item, hnav, hvalue⟩ := h.shown hquiet hsome
  refine ⟨item, hnav, ?_⟩
  rw [hvalue, h.realized fun i => (hquiet i).imp And.right fun hd => Or.inl hd.2]

theorem start_sound (nav : Option NavItem) : Sound openingNav (start nav : NavWorld ι) where
  books _ := rfl
  carried := by
    have hnone : InFlight.Carried
        (RecordPhase.inTransit ∘ (start nav : NavWorld ι).record) (0 : ℚ) :=
      InFlight.carried_of_none fun _ => rfl
    simpa [start, DayBook.opening] using hnone
  shown _ h := by
    obtain ⟨i, hi⟩ := h
    cases hi

variable [DecidableEq ι]

theorem not_quiet_setSnapshot (w : NavWorld ι) (i : ι) (oldCash : ℚ) :
    ¬ (w.setSnapshot i (.read oldCash)).Quiet := by
  intro hquiet
  have hi : (w.setSnapshot i (.read oldCash)).snapshot i = .read oldCash :=
    Function.update_self ..
  obtain ⟨hs, _⟩ | ⟨hs, _⟩ := hquiet i
  · cases hi.symm.trans hs
  · cases hi.symm.trans hs

theorem not_quiet_setRecord (w : NavWorld ι) (i : ι) {p : RecordPhase} (h1 : p ≠ .idle)
    (h2 : p ≠ .done) : ¬ (w.setRecord i p).Quiet := by
  intro hquiet
  have hi : (w.setRecord i p).record i = p := Function.update_self ..
  obtain ⟨_, hr⟩ | ⟨_, hr⟩ := hquiet i
  · exact h1 (hi.symm.trans hr)
  · exact h2 (hi.symm.trans hr)

/-- The snapshot of `i` is the last thing in flight when all else is at rest. -/
theorem quiet_setSnapshot_iff :
    (w.setSnapshot i .done).Quiet ↔ w.QuietBut i ∧ w.record i = .done := by
  have hi : (w.setSnapshot i .done).snapshot i = .done := Function.update_self ..
  have hj (j : ι) (hj : j ≠ i) : (w.setSnapshot i .done).snapshot j = w.snapshot j :=
    Function.update_of_ne hj ..
  constructor
  · refine fun h => ⟨fun j hne => hj j hne ▸ h j, ?_⟩
    obtain ⟨hs, _⟩ | ⟨_, hr⟩ := h i
    · cases hi.symm.trans hs
    · exact hr
  · intro ⟨hbut, hr⟩ j
    by_cases hne : j = i
    · subst hne
      exact Or.inr ⟨hi, hr⟩
    · rw [hj j hne]
      exact hbut j hne

theorem quiet_setRecord_iff :
    (w.setRecord i .done).Quiet ↔ w.QuietBut i ∧ w.snapshot i = .done := by
  have hi : (w.setRecord i .done).record i = .done := Function.update_self ..
  have hj (j : ι) (hj : j ≠ i) : (w.setRecord i .done).record j = w.record j :=
    Function.update_of_ne hj ..
  constructor
  · refine fun h => ⟨fun j hne => hj j hne ▸ h j, ?_⟩
    obtain ⟨_, hr⟩ | ⟨hs, _⟩ := h i
    · cases hi.symm.trans hr
    · exact hs
  · intro ⟨hbut, hs⟩ j
    by_cases hne : j = i
    · subst hne
      exact Or.inr ⟨hs, hi⟩
    · rw [hj j hne]
      exact hbut j hne

/-- A call that carries nothing before and after leaves the sum as it is. -/
theorem Sound.carried_rest (h : Sound openingNav w) {p : RecordPhase}
    (hi : (w.record i).inTransit = none) (hp : p.inTransit = none) :
    InFlight.Carried (RecordPhase.inTransit ∘ Function.update w.record i p)
      (w.book.realized - w.realizedDay) := by
  rw [Function.comp_update, hp]
  exact h.carried.rest hi

theorem step_sound (h : Sound openingNav w) (hok : LastWriteAgrees fills w ev)
    (hs : Step openingNav fills w ev w') : Sound openingNav w' := by
  cases hs with
  | read _ _ => exact ⟨h.books, h.carried, fun hq => absurd hq (not_quiet_setSnapshot _ _ _)⟩
  | @update i oldCash hi =>
    refine ⟨h.books, h.carried, fun hq _ => ⟨_, rfl, ?_⟩⟩
    obtain ⟨hbut, hr⟩ := quiet_setSnapshot_iff.mp hq
    rw [snapshotUpdate, hok hbut hr oldCash hi]
    rfl
  | @reserve i hi _ _ =>
    refine ⟨h.books, h.carried_rest (by rw [hi]; rfl) rfl,
      fun hq => absurd hq (not_quiet_setRecord _ _ nofun nofun)⟩
  | @apply i row realizedDelta hi hpos happly =>
    obtain ⟨hbook, hdelta⟩ := applyFillRaising_fill hpos happly
    rw [h.books] at hbook hdelta
    refine ⟨fun symbol => ?_, ?_, fun hq => absurd hq (not_quiet_setRecord _ _ nofun nofun)⟩
    · by_cases hsym : symbol = (fills i).symbol
      · subst hsym
        simpa [setRecord, DayBook.trade] using hbook
      · simpa [setRecord, DayBook.trade, hsym] using h.books symbol
    · have hpick := h.carried.pick (i := i) (a := realizedDelta)
        (by rw [Function.comp_apply, hi]; rfl)
      have hsum : (w.book.trade (fills i)).realized - w.realizedDay =
          w.book.realized - w.realizedDay + realizedDelta := by
        rw [DayBook.trade, ← hbook, hdelta]
        ring
      rw [← hsum] at hpick
      change InFlight.Carried (RecordPhase.inTransit ∘ Function.update w.record i _) _
      rw [Function.comp_update]
      exact hpick
  | @add i realizedDelta hi =>
    refine ⟨h.books, ?_, fun hq => absurd hq (not_quiet_setRecord _ _ nofun nofun)⟩
    have hdrop := h.carried.drop (i := i) (a := realizedDelta)
      (by rw [Function.comp_apply, hi]; rfl)
    rw [sub_sub] at hdrop
    change InFlight.Carried (RecordPhase.inTransit ∘ Function.update w.record i _) _
    rw [Function.comp_update]
    exact hdrop
  | @put i realizedToday hi =>
    refine ⟨h.books, h.carried_rest (by rw [hi]; rfl) rfl, fun hq _ => ⟨_, rfl, ?_⟩⟩
    obtain ⟨hbut, hsnap⟩ := quiet_setRecord_iff.mp hq
    rw [navPut, hok hbut hsnap realizedToday hi]
    rfl

/-- With all else at rest, whatever stage the record of `i` has reached after its ADD, the
row of the day is complete. -/
theorem Sound.realized_of_quietBut (h : Sound openingNav w) (hbut : w.QuietBut i)
    (hi : w.record i = .done ∨ ∃ t, w.record i = .added t) :
    w.book.realized = w.realizedDay := by
  refine h.realized fun j => ?_
  by_cases hj : j = i
  · exact Or.inr (hj ▸ hi)
  · exact (hbut j hj).imp And.right fun hd => Or.inl hd.2

/-- The condition is exact: a write that leaves nothing in flight and the right value
carried the P&L of the day. -/
theorem lastWriteAgrees_of_agrees (h : Sound openingNav w) (hs : Step openingNav fills w ev w')
    (ha : Agrees openingNav w') : LastWriteAgrees fills w ev := by
  cases hs with
  | @update i oldCash hi =>
    intro hbut hr oldCash' hi'
    obtain rfl := SnapshotPhase.read.inj (hi.symm.trans hi')
    obtain ⟨item, hnav, hvalue⟩ := ha (quiet_setSnapshot_iff.mpr ⟨hbut, hr⟩) ⟨i, hr⟩
    obtain rfl := Option.some.inj hnav
    rw [← h.realized_of_quietBut hbut (Or.inl hr)]
    exact add_left_cancel hvalue
  | @put i realizedToday hi =>
    intro hbut hsnap realizedToday' hi'
    obtain rfl := RecordPhase.added.inj (hi.symm.trans hi')
    obtain ⟨item, hnav, hvalue⟩ := ha (quiet_setRecord_iff.mpr ⟨hbut, hsnap⟩)
      ⟨i, Function.update_self ..⟩
    obtain rfl := Option.some.inj hnav
    rw [← h.realized_of_quietBut hbut (Or.inr ⟨realizedToday, hi⟩)]
    exact add_left_cancel hvalue
  | read | reserve | apply | add => trivial

/-- While the last write of a quiet spell carries the P&L of the day, the NAV item shows
the opening value and the realized P&L whenever both engines have processed every fill. -/
theorem nav_agrees {nav : Option NavItem}
    (hr : Reaches (Step openingNav fills) (LastWriteAgrees fills) (start nav) w) :
    Agrees openingNav w :=
  (hr.invariant (fun _ _ _ hI ho hst => step_sound hI ho hst) (start_sound nav)).agrees

def openingBuy : Fill where
  symbol := "INFY"
  side := .buy
  quantity := 10
  price := 100
  lastPrice := 100
  market := some .nse
  now := "t1"

theorem applyFillRaising_openingBuy :
    applyFillRaising {} "BUY" 10 100 = .ok (⟨some 10, some 100, some 0⟩, 0) := by
  norm_num [applyFillRaising, averageDivisor, applyFillToDailySymbolPnl, symbolBuy, SymbolFill.put,
    SymbolPnlRow.book]

theorem openingBuy_realized : (DayBook.opening.trade openingBuy).realized = 0 := by
  have hflat : (0 : ℚ) ≤ (Book.flat : Book ℚ).quantity * OrderSide.buy.signed 10 := by
    norm_num [Book.flat]
  rw [DayBook.trade]
  simp only [DayBook.opening, openingBuy, Book.trade_same_side 100 hflat, sub_self, add_zero]

/-- The risk engine has the last word. -/
theorem nav_agrees_put_last :
    ∃ w : NavWorld Unit, w.snapshot () = .done ∧ w.record () = .done ∧ Agrees 1000000 w := by
  let fills : Unit → Fill := fun _ => openingBuy
  have h1 : Reaches (Step 1000000 fills) (LastWriteAgrees fills) (start none) _ :=
    Reaches.next .refl (e := ((), NavEvent.read)) trivial (.read rfl List.mem_cons_self)
  have h2 := h1.next (e := ((), NavEvent.update)) (fun _ hr => nomatch hr)
    (.update (rfl : SnapshotPhase.read 0 = .read 0))
  have h3 := h2.next (e := ((), NavEvent.reserve)) trivial
    (.reserve rfl (by norm_num [fills, openingBuy]) (by norm_num [fills, openingBuy]))
  have h4 := h3.next (e := ((), NavEvent.apply)) trivial
    (.apply rfl (by norm_num [fills, openingBuy]) applyFillRaising_openingBuy)
  have h5 := h4.next (e := ((), NavEvent.add)) trivial
    (.add (rfl : RecordPhase.applied 0 = .applied 0))
  have h6 := h5.next (e := ((), NavEvent.put))
    (fun _ _ _ ht => (RecordPhase.added.inj ht).symm)
    (.put (rfl : RecordPhase.added (0 + 0) = .added (0 + 0)))
  exact ⟨_, rfl, rfl, nav_agrees h6⟩

/-- A purchase at cost, processed by the risk engine first: the snapshot that follows
shows its price as a loss. -/
theorem snapshot_last_shows_cash_flow :
    ¬ ∀ w : NavWorld Unit, Reaches (Step 1000000 fun _ => openingBuy) (fun _ _ => True)
      (start none) w → Agrees 1000000 w := by
  intro hall
  have h1 : Reaches (Step 1000000 fun _ : Unit => openingBuy) (fun _ _ => True) (start none) _ :=
    Reaches.next .refl (e := ((), NavEvent.reserve)) trivial
      (.reserve rfl (by norm_num [openingBuy]) (by norm_num [openingBuy]))
  have h2 := h1.next (e := ((), NavEvent.apply)) trivial
    (.apply rfl (by norm_num [openingBuy]) applyFillRaising_openingBuy)
  have h3 := h2.next (e := ((), NavEvent.add)) trivial
    (.add (rfl : RecordPhase.applied 0 = .applied 0))
  have h4 := h3.next (e := ((), NavEvent.put)) trivial
    (.put (rfl : RecordPhase.added (0 + 0) = .added (0 + 0)))
  have h5 := h4.next (e := ((), NavEvent.read)) trivial (.read rfl List.mem_cons_self)
  have h6 := h5.next (e := ((), NavEvent.update)) trivial
    (.update (rfl : SnapshotPhase.read 0 = .read 0))
  obtain ⟨item, hnav, hvalue⟩ := hall _ h6 (fun _ => Or.inr ⟨rfl, rfl⟩) ⟨(), rfl⟩
  obtain rfl := Option.some.inj hnav
  have hbook : (1000000 : ℚ) + (0 + -(10 * 100)) =
    1000000 + (DayBook.opening.trade openingBuy).realized := hvalue
  rw [openingBuy_realized] at hbook
  norm_num at hbook

end NavWorld
end QuantEmbrace
