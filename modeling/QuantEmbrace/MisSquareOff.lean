import QuantEmbrace.PositionAccounting

/-! MIS square-off in paper mode: the rows of the scan, the close each of them calls for,
and the fill that `_place_mis_close_order` asks the order manager to apply. -/
namespace QuantEmbrace

/-- `product = :mis AND quantity <> :zero`; an absent quantity differs from zero. -/
def PositionRow.misFilter (item : PositionRow) : Bool :=
  item.product = some .mis && item.quantity ≠ some 0

/-- The dict of one position to close. -/
structure MisPosition where
  symbol : String
  quantity : ℚ
  effectiveDir : Direction
  closeSide : OrderSide
  closeQty : ℚ
  avgEntryPrice : ℚ
  lastPrice : ℚ
  deriving DecidableEq, Repr

/-- `stored` is the status of an order id; a missing order and a failed lookup are stale alike. -/
def exitInFlight (stored : String → Option OrderStatus) (eid : String) : Bool :=
  eid ≠ "" && match stored eid with
    | some status => ¬ status.Terminal
    | none => false

def buildValidExitIds (stored : String → Option OrderStatus) (items : List PositionRow) :
    List String :=
  (items.filterMap (·.exitOrderId)).filter (exitInFlight stored)

/-- The stored last price, or the average entry price where it is missing or zero. -/
def PositionRow.lastOrAvg (item : PositionRow) : ℚ :=
  let last := item.lastPrice.getD 0
  if last = 0 then item.avgEntryPrice.getD 0 else last

/-- Side and quantity of the close come from the signed quantity, never from `direction`. -/
def MisPosition.ofItem (item : PositionRow) (quantity : ℚ) : MisPosition where
  symbol := item.symbol.getD "UNKNOWN"
  quantity
  effectiveDir := if quantity > 0 then .long else .short
  closeSide := if quantity > 0 then .sell else .buy
  closeQty := |quantity|
  avgEntryPrice := item.avgEntryPrice.getD 0
  lastPrice := item.lastOrAvg

def resolvePosition (item : PositionRow) (validExitIds : List String) : Option MisPosition :=
  let skip := match item.exitOrderId with
    | some eid => eid ≠ "" && eid ∈ validExitIds
    | none => false
  if skip then none
  else match item.quantity with
    | none => none
    | some quantity =>
      if |quantity| < flatTolerance then none else some (.ofItem item quantity)

/-- `_get_open_mis_positions`, of the items that the table holds. -/
def getOpenMisPositions (stored : String → Option OrderStatus) (table : List PositionRow) :
    List MisPosition :=
  let items := table.filter (·.misFilter)
  items.filterMap (resolvePosition · (buildValidExitIds stored items))

/-- The parameters of a function that can be given by keyword. -/
structure Signature where
  required : List String
  optional : List String

/- Python raises a TypeError on what remains; the body is not entered. -/
inductive BindError where
  | unexpected (keyword : String)
  | missing (parameter : String)
  deriving DecidableEq, Repr

def Signature.bind (s : Signature) (keywords : List String) : Except BindError Unit :=
  match keywords.find? (· ∉ s.required ++ s.optional) with
  | some keyword => .error (.unexpected keyword)
  | none =>
    match s.required.find? (· ∉ keywords) with
    | some parameter => .error (.missing parameter)
    | none => .ok ()

def applyFillToPositionSignature : Signature where
  required := ["symbol", "side", "filled_quantity", "avg_fill_price", "last_price"]
  optional := ["order_id", "signal_id", "risk_decision_id", "order_type", "market_str",
    "signal_price", "order_submitted_at", "tick_time", "signal_time", "risk_approval_time"]

/-- The keywords of the call in `_place_mis_close_order`. -/
def misCloseKeywords : List String :=
  ["symbol", "side", "filled_quantity", "avg_fill_price", "last_price", "market", "order_id",
    "signal_id", "risk_decision_id"]

namespace MisPosition

def fillPrice (p : MisPosition) : ℚ := if p.lastPrice = 0 then p.avgEntryPrice else p.lastPrice

def closeFill (p : MisPosition) (keywords : List String) (now : String) : Fill where
  symbol := p.symbol
  side := p.closeSide
  quantity := p.closeQty
  price := p.fillPrice
  lastPrice := p.fillPrice
  market := if "market_str" ∈ keywords then some .nse else none
  now

end MisPosition

/-- The rows by symbol, and the counts of `_execute_mis_square_off`. -/
structure SquareOff where
  rows : String → PositionRow
  ordersPlaced : ℕ := 0
  rejectedCount : ℕ := 0

/-- `_place_mis_close_order` in paper mode: an exception is logged and answered with `None`. -/
def SquareOff.placePaper (keywords : List String) (now : String) (s : SquareOff)
    (p : MisPosition) : SquareOff :=
  if p.closeQty ≤ 0 then { s with rejectedCount := s.rejectedCount + 1 }
  else match applyFillToPositionSignature.bind keywords with
    | .error _ => { s with rejectedCount := s.rejectedCount + 1 }
    | .ok _ =>
      { s with
        rows := Function.update s.rows p.symbol
          (applyFillToPosition (s.rows p.symbol) (p.closeFill keywords now))
        ordersPlaced := s.ordersPlaced + 1 }

/-- Up to the polling for fills. -/
def executeMisSquareOff (keywords : List String) (stored : String → Option OrderStatus)
    (now : String) (symbols : List String) (rows : String → PositionRow) : SquareOff :=
  (getOpenMisPositions stored (symbols.map rows)).foldl (SquareOff.placePaper keywords now) { rows }

/-- An open MIS position with no exit in flight. -/
structure PositionRow.ToClose (stored : String → Option OrderStatus) (item : PositionRow)
    (q : ℚ) : Prop where
  product : item.product = some .mis
  quantity : item.quantity = some q
  nonzero : q ≠ 0
  noExit : ∀ eid, item.exitOrderId = some eid → exitInFlight stored eid = false

/-- The position is flat and has realized its P&L at `price`. -/
structure PositionRow.ClosedAt (before after : PositionRow) (q price : ℚ) : Prop where
  quantity : after.quantity = some 0
  direction : after.direction = some .flat
  realized : after.oldRealized = before.oldRealized + q * (price - before.oldAvg)

/-- Every open MIS position of the table is closed. -/
def Flattened (stored : String → Option OrderStatus) (symbols : List String)
    (before after : String → PositionRow) : Prop :=
  ∀ symbol ∈ symbols, ∀ q, (before symbol).ToClose stored q →
    (before symbol).ClosedAt (after symbol) q (before symbol).lastOrAvg

section Resolve
variable {stored : String → Option OrderStatus} {items : List PositionRow} {item : PositionRow}
  {q : ℚ} {p : MisPosition}

theorem not_mem_buildValidExitIds (items : List PositionRow) {eid : String}
    (h : exitInFlight stored eid = false) :
    eid ∉ buildValidExitIds stored items := by
  intro hin
  have hflight := (List.mem_filter.mp hin).2
  rw [h] at hflight
  cases hflight

theorem PositionRow.ToClose.resolve (h : item.ToClose stored q) (hq : flatTolerance ≤ |q|) :
    resolvePosition item (buildValidExitIds stored items) = some (.ofItem item q) := by
  unfold resolvePosition
  rw [h.quantity]
  cases he : item.exitOrderId with
  | none => simp [not_lt.mpr hq]
  | some eid =>
    have hout := not_mem_buildValidExitIds items (h.noExit eid he)
    simp [hout, not_lt.mpr hq]

theorem resolvePosition_some {valid : List String} (h : resolvePosition item valid = some p) :
    ∃ r, item.quantity = some r ∧ flatTolerance ≤ |r| ∧ p = .ofItem item r := by
  unfold resolvePosition at h
  dsimp only at h
  generalize (match item.exitOrderId with
    | some eid => eid ≠ "" && eid ∈ valid
    | none => false : Bool) = skip at h
  cases skip with
  | true => cases h
  | false =>
    rw [if_neg Bool.false_ne_true] at h
    cases hquantity : item.quantity with
    | none =>
      rw [hquantity] at h
      cases h
    | some r =>
      simp only [hquantity] at h
      split at h
      · cases h
      · rename_i hr
        exact ⟨r, rfl, not_lt.mp hr, (Option.some.inj h).symm⟩

theorem PositionRow.ToClose.filter (h : item.ToClose stored q) : item.misFilter = true := by
  simp [PositionRow.misFilter, h.product, h.quantity, h.nonzero]

/-- The fill price falls back on the average entry price a second time, to no effect. -/
theorem fillPrice_ofItem (item : PositionRow) (q : ℚ) :
    (MisPosition.ofItem item q).fillPrice = item.lastOrAvg := by
  unfold MisPosition.fillPrice
  split
  · rename_i hzero
    change item.lastOrAvg = 0 at hzero
    rw [hzero]
    unfold PositionRow.lastOrAvg at hzero
    dsimp only at hzero
    split at hzero
    · exact hzero
    · contradiction
  · rfl

end Resolve

/-- A fill of the whole quantity against the position leaves exactly nothing. -/
theorem fillFigures_close {x : Figures} (hx : x.qty ≠ 0) (price : ℚ) :
    (fillFigures x (if x.qty > 0 then .sell else .buy) |x.qty| price).qty = 0 ∧
      (fillFigures x (if x.qty > 0 then .sell else .buy) |x.qty| price).realized =
        x.realized + x.qty * (price - x.avg) := by
  obtain hneg | hpos := lt_or_gt_of_ne hx
  · rw [if_neg (not_lt.mpr hneg.le), abs_of_neg hneg]
    refine ⟨add_neg_cancel _, ?_⟩
    rw [fillFigures, buyFigures_realized_short hneg, min_self]
    ring
  · rw [if_pos hpos, abs_of_pos hpos, fillFigures, sellFigures_close hpos rfl]
    exact ⟨rfl, by ring⟩

section Loop
variable {keywords : List String} {now : String} {s : SquareOff} {p : MisPosition}
  {ps : List MisPosition} {symbol : String}

theorem placePaper_unbound {e : BindError}
    (hbind : applyFillToPositionSignature.bind keywords = .error e) :
    (s.placePaper keywords now p).rows = s.rows := by
  unfold SquareOff.placePaper
  split
  · rfl
  · rw [hbind]

theorem foldl_placePaper_unbound {e : BindError}
    (hbind : applyFillToPositionSignature.bind keywords = .error e) :
    (ps.foldl (SquareOff.placePaper keywords now) s).rows = s.rows := by
  induction ps generalizing s with
  | nil => rfl
  | cons p ps ih => exact ih.trans (placePaper_unbound hbind)

theorem placePaper_bound (now : String)
    (hbind : applyFillToPositionSignature.bind keywords = .ok ())
    (hp : 0 < p.closeQty) :
    (s.placePaper keywords now p).rows = Function.update s.rows p.symbol
      (applyFillToPosition (s.rows p.symbol) (p.closeFill keywords now)) := by
  rw [SquareOff.placePaper, if_neg (not_le.mpr hp), hbind]

/-- A close touches the row of its own symbol only. -/
theorem foldl_placePaper_other (hother : ∀ p ∈ ps, p.symbol ≠ symbol) :
    (ps.foldl (SquareOff.placePaper keywords now) s).rows symbol = s.rows symbol := by
  induction ps generalizing s with
  | nil => rfl
  | cons p ps ih =>
    refine (ih fun a ha => hother a (List.mem_cons_of_mem p ha)).trans ?_
    unfold SquareOff.placePaper
    split
    · rfl
    · split
      · rfl
      · exact Function.update_of_ne (hother p List.mem_cons_self).symm _ _

/-- With one position for each symbol, every position meets the row as the scan left it. -/
theorem foldl_placePaper_bound (now : String)
    (hbind : applyFillToPositionSignature.bind keywords = .ok ())
    (hps : ps.Pairwise fun a b => a.symbol ≠ b.symbol) (hqty : ∀ p ∈ ps, 0 < p.closeQty)
    (hp : p ∈ ps) :
    (ps.foldl (SquareOff.placePaper keywords now) s).rows p.symbol =
      applyFillToPosition (s.rows p.symbol) (p.closeFill keywords now) := by
  induction ps generalizing s with
  | nil => cases hp
  | cons a ps ih =>
    obtain ⟨ha, hps⟩ := List.pairwise_cons.mp hps
    have hrow := placePaper_bound (s := s) now hbind (hqty a List.mem_cons_self)
    rw [List.foldl_cons]
    obtain rfl | hin := List.mem_cons.mp hp
    · rw [foldl_placePaper_other fun b hb => (ha b hb).symm, hrow, Function.update_self]
    · rw [ih hps (fun b hb => hqty b (List.mem_cons_of_mem a hb)) hin, hrow,
        Function.update_of_ne (ha p hin).symm]

end Loop

section SquareOffRun
variable {keywords : List String} {stored : String → Option OrderStatus} {now : String}
  {symbols : List String} {rows : String → PositionRow}

theorem getOpenMisPositions_some {table : List PositionRow} {p : MisPosition}
    (hp : p ∈ getOpenMisPositions stored table) : 0 < p.closeQty := by
  obtain ⟨item, _, hitem⟩ := List.mem_filterMap.mp hp
  obtain ⟨q, _, hq, rfl⟩ := resolvePosition_some hitem
  exact flatTolerance_pos.trans_le hq

theorem getOpenMisPositions_pairwise (hsym : symbols.Nodup)
    (hkey : ∀ symbol ∈ symbols, (rows symbol).symbol = some symbol) :
    (getOpenMisPositions stored (symbols.map rows)).Pairwise fun a b => a.symbol ≠ b.symbol := by
  have htable : (symbols.map rows).Pairwise fun a b =>
      a.symbol.getD "UNKNOWN" ≠ b.symbol.getD "UNKNOWN" := by
    rw [List.pairwise_map]
    refine hsym.imp_of_mem fun {a b} ha hb hne => ?_
    rw [hkey a ha, hkey b hb]
    exact hne
  refine (htable.filter _).filterMap _ fun a b hab p hp p' hp' => ?_
  obtain ⟨_, _, _, rfl⟩ := resolvePosition_some hp
  obtain ⟨_, _, _, rfl⟩ := resolvePosition_some hp'
  exact hab

/-- If the call named parameters that `apply_fill_to_position` has, every open position
that is not taken for flat would be closed. -/
theorem executeMisSquareOff_bound (hbind : applyFillToPositionSignature.bind keywords = .ok ())
    (hsym : symbols.Nodup) (hkey : ∀ symbol ∈ symbols, (rows symbol).symbol = some symbol)
    (hqty : ∀ symbol ∈ symbols, ∀ q, (rows symbol).ToClose stored q → flatTolerance ≤ |q|) :
    Flattened stored symbols rows (executeMisSquareOff keywords stored now symbols rows).rows := by
  intro symbol hin q hopen
  have hitem : rows symbol ∈ (symbols.map rows).filter (·.misFilter) :=
    List.mem_filter.mpr ⟨List.mem_map_of_mem hin, hopen.filter⟩
  have hp : .ofItem (rows symbol) q ∈ getOpenMisPositions stored (symbols.map rows) :=
    List.mem_filterMap.mpr ⟨rows symbol, hitem, hopen.resolve (hqty symbol hin q hopen)⟩
  have hrow := foldl_placePaper_bound (s := { rows }) now hbind
    (getOpenMisPositions_pairwise hsym hkey) (fun _ => getOpenMisPositions_some) hp
  have hsymbol : (MisPosition.ofItem (rows symbol) q).symbol = symbol := by
    rw [MisPosition.ofItem, hkey symbol hin]
    rfl
  rw [hsymbol] at hrow
  have hq : (rows symbol).figures.qty = q := by
    rw [PositionRow.figures, PositionRow.oldQty, hopen.quantity]
    rfl
  obtain ⟨hzero, hreal⟩ := fillFigures_close (x := (rows symbol).figures)
    (by rw [hq]; exact hopen.nonzero) (rows symbol).lastOrAvg
  rw [executeMisSquareOff, hrow]
  rw [hq, ← fillPrice_ofItem (rows symbol) q] at hzero hreal
  exact ⟨congrArg some hzero, congrArg (some ∘ directionOf) hzero,
    hreal.trans (by rw [fillPrice_ofItem]; rfl)⟩

/-- `market` is not a parameter of `apply_fill_to_position`. -/
theorem misCloseKeywords_unbound :
    applyFillToPositionSignature.bind misCloseKeywords = .error (.unexpected "market") := by
  decide +kernel

/-- Paper square-off flattens the table exactly when it holds nothing to flatten. -/
theorem paper_square_off_flattens_iff (stored : String → Option OrderStatus) (now : String)
    (symbols : List String) (rows : String → PositionRow) :
    Flattened stored symbols rows
        (executeMisSquareOff misCloseKeywords stored now symbols rows).rows ↔
      ∀ symbol ∈ symbols, ∀ q, ¬ (rows symbol).ToClose stored q := by
  have hrows : (executeMisSquareOff misCloseKeywords stored now symbols rows).rows = rows :=
    foldl_placePaper_unbound misCloseKeywords_unbound
  rw [hrows]
  constructor
  · intro h symbol hin q hopen
    have hzero := (h symbol hin q hopen).quantity
    rw [hopen.quantity] at hzero
    exact hopen.nonzero (Option.some.inj hzero)
  · exact fun h symbol hin q hopen => absurd hopen (h symbol hin q)

end SquareOffRun

/-- A long intraday position that was opened at 100 and last traded at 110. -/
def openLong : PositionRow where
  symbol := some "INFY"
  direction := some .long
  quantity := some 10
  avgPrice := some 100
  avgEntryPrice := some 100
  lastPrice := some 110
  product := some .mis

theorem paper_square_off_leaves_long_open :
    openLong.ToClose (fun _ => none) 10 ∧
      (executeMisSquareOff misCloseKeywords (fun _ => none) "15:05" ["INFY"]
        fun _ => openLong).rejectedCount = 1 ∧
      ¬ Flattened (fun _ => none) ["INFY"] (fun _ => openLong)
        (executeMisSquareOff misCloseKeywords (fun _ => none) "15:05" ["INFY"]
          fun _ => openLong).rows := by
  have hopen : openLong.ToClose (fun _ => none) 10 := ⟨rfl, rfl, by norm_num, nofun⟩
  refine ⟨hopen, by decide +kernel, fun h => ?_⟩
  have hzero : (executeMisSquareOff misCloseKeywords (fun _ => none) "15:05" ["INFY"]
      fun _ => openLong).rows "INFY" = openLong := by
    decide +kernel
  have hflat := (h "INFY" List.mem_cons_self 10 hopen).quantity
  rw [hzero] at hflat
  exact absurd hflat (by decide +kernel)

end QuantEmbrace
