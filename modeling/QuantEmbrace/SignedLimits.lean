import QuantEmbrace.PositionLimit
import Mathlib.Tactic.Linarith

/-! What the position check makes of a book with orders on both sides: it adds quantities without
their sign, in full, from the first page of the orders under three statuses. -/
namespace QuantEmbrace.RiskCheck

def signed (side : OrderSide) (shares : ℤ) : ℤ :=
  match side with
  | .buy => shares
  | .sell => -shares

/-- An order of the symbol whose filled part is in the positions row. -/
structure OpenOrder where
  side : OrderSide
  quantity : ℕ
  filled : ℕ
  filled_le : filled ≤ quantity

/-- What the order is still to add to the position. -/
def OpenOrder.remaining (o : OpenOrder) : ℤ := signed o.side (o.quantity - o.filled)

/-- The positions row of a symbol, and its orders in flight by their status and by the pages of
the index. -/
structure SymbolBook where
  confirmed : ℤ
  pages : OrderStatus → List (List OpenOrder)

/-- The statuses of an order in flight. -/
def openStatuses : List OrderStatus := [.pending, .ackUnknown, .placed, .partiallyFilled]

/-- `_IN_FLIGHT_STATUSES` -/
def queriedStatuses : List OrderStatus := [.pending, .placed, .partiallyFilled]

namespace SymbolBook
variable (b : SymbolBook)

def orders : List OpenOrder := openStatuses.flatMap fun status => (b.pages status).flatten

/-- The items of the one response to each query. -/
def seen : List OpenOrder := queriedStatuses.flatMap fun status => (b.pages status).headD []

/-- On later pages, or under the status that is not asked for. -/
def unseen : List OpenOrder :=
  (queriedStatuses.flatMap fun status => (b.pages status).tail.flatten) ++
    (b.pages .ackUnknown).flatten

/-- The position once everything is filled. -/
def after (s : Signal) : ℤ :=
  b.confirmed + (b.orders.map OpenOrder.remaining).sum + signed s.direction s.quantity

/-- By how much the count of the check exceeds that position. -/
def overcount (s : Signal) : ℤ :=
  (b.seen.map fun o => (o.quantity : ℤ) - o.remaining).sum -
    (b.unseen.map OpenOrder.remaining).sum + (s.quantity - signed s.direction s.quantity)

/-- The reads of the check meet the book, or fail. -/
structure ReadBy (v : ValidatorReads) : Prop where
  confirmed : v.confirmed = .failed ∨ (v.confirmed = .missing ∧ b.confirmed = 0) ∨
    ∃ row : PositionRow, v.confirmed = .item row ∧ row.quantity = some (b.confirmed : ℚ)
  inFlight : ∀ status ∈ queriedStatuses, v.inFlight status.value = none ∨
    v.inFlight status.value = some (((b.pages status).headD []).map fun o => some (o.quantity : ℚ))

end SymbolBook

/-- A signal that is not for paper, at a price. -/
structure LiveSignal where
  signal : Signal
  live : signal.paperTrade = false
  priced : 0 ≤ signal.priceAtSignal

/-- Limits on the size of a position, against a portfolio that has a value. -/
structure SizeLimits (l : RiskLimits) (market : String) : Prop where
  shares : 0 ≤ l.getLimit .maxPositionPerSymbol market
  share : 0 ≤ l.getLimit .maxPositionSizePct market
  portfolio : 0 < l.portfolioValue

/-- The position is within both limits, on either side. -/
def WithinSize (l : RiskLimits) (s : Signal) (position : ℤ) : Prop :=
  |(position : ℚ)| ≤ l.getLimit .maxPositionPerSymbol s.market ∧
    |position * s.priceAtSignal| ≤
      l.getLimit .maxPositionSizePct s.market / 100 * l.portfolioValue

/-- Whatever the limits are, a signal that the check approves leaves the position within them. -/
def SymbolBook.SoundFor (b : SymbolBook) (s : Signal) : Prop :=
  ∀ (cfg : RiskConfig) (v : ValidatorReads), SizeLimits cfg.limits s.market → b.ReadBy v →
    (PositionCheck.validate cfg v s).approved = true → WithinSize cfg.limits s (b.after s)

namespace PositionCheck
variable {cfg : RiskConfig} {v : ValidatorReads} {s : Signal}

/-- What the check has found when it approves a signal that is not for paper. -/
structure Admits (cfg : RiskConfig) (s : Signal) (proposed : ℤ) : Prop where
  order : s.value ≤ cfg.limits.getLimit .maxSingleOrderValue s.market
  shares : proposed ≤ truncated (cfg.limits.getLimit .maxPositionPerSymbol s.market)
  portfolio : cfg.limits.portfolioValue ≠ 0
  share : proposed * s.priceAtSignal / cfg.limits.portfolioValue * 100 ≤
    cfg.limits.getLimit .maxPositionSizePct s.market

theorem withinLimits_approved_iff (hlive : s.paperTrade = false) (proposed : ℤ) :
    (withinLimits cfg s proposed).approved = true ↔ Admits cfg s proposed := by
  rw [withinLimits]
  split
  · next horder => exact iff_of_false (by simp) fun h => absurd h.order (not_le.mpr horder)
  next horder =>
  split
  · next hshares => exact iff_of_false (by simp) fun h => absurd h.shares (not_le.mpr hshares)
  next hshares =>
  split
  · next hzero => exact iff_of_false (by simp [hlive]) fun h => h.portfolio hzero
  next hzero =>
  split
  · next hshare => exact iff_of_false (by simp) fun h => absurd h.share (not_le.mpr hshare)
  next hshare =>
  exact iff_of_true rfl ⟨not_lt.mp horder, not_lt.mp hshares, hzero, not_lt.mp hshare⟩

theorem validate_approved_iff (hlive : s.paperTrade = false) :
    (validate cfg v s).approved = true ↔ ∃ confirmed pending,
      confirmedPosition v = some confirmed ∧ pendingQuantity v = some pending ∧
        Admits cfg s (confirmed + pending + s.quantity) := by
  rw [validate]
  split
  · next confirmed pending hconfirmed hpending =>
    simp [hconfirmed, hpending, withinLimits_approved_iff hlive]
  · next hnone =>
    refine iff_of_false (by simp [hlive]) ?_
    rintro ⟨confirmed, pending, hconfirmed, hpending, -⟩
    exact hnone confirmed pending hconfirmed hpending

end PositionCheck

namespace SymbolBook
variable {b : SymbolBook} {v : ValidatorReads} {s : Signal}

/-- The shares that the check adds for the orders it sees. -/
def pendingShares (b : SymbolBook) : ℤ := (b.seen.map fun o => (o.quantity : ℤ)).sum

theorem sum_pages (b : SymbolBook) (f : OpenOrder → ℤ) (status : OrderStatus) :
    (((b.pages status).headD []).map f).sum + ((b.pages status).tail.flatten.map f).sum =
      ((b.pages status).flatten.map f).sum := by
  cases b.pages status with
  | nil => rfl
  | cons page pages =>
    rw [List.headD_cons, List.tail_cons, List.flatten_cons, List.map_append, List.sum_append]

/-- The check counts the position and the surplus. -/
theorem counted_eq (b : SymbolBook) (s : Signal) :
    b.confirmed + b.pendingShares + s.quantity = b.after s + b.overcount s := by
  have hseen : (b.seen.map fun o => (o.quantity : ℤ) - o.remaining).sum +
      (b.seen.map OpenOrder.remaining).sum = b.pendingShares := by
    rw [← List.sum_map_add]
    simp only [sub_add_cancel, pendingShares]
  have horders : (b.orders.map OpenOrder.remaining).sum =
      (b.seen.map OpenOrder.remaining).sum + (b.unseen.map OpenOrder.remaining).sum := by
    have hpages := b.sum_pages OpenOrder.remaining
    simp only [orders, seen, unseen, openStatuses, queriedStatuses, List.flatMap_cons,
      List.flatMap_nil, List.append_nil, List.map_append, List.sum_append, ← hpages]
    ring
  rw [after, overcount, horders, ← hseen]
  ring

/-- What the reads find, if they find anything, is the row and the first pages. -/
theorem ReadBy.confirmed_eq (h : b.ReadBy v) {confirmed : ℤ}
    (hfound : PositionCheck.confirmedPosition v = some confirmed) : confirmed = b.confirmed := by
  by_cases hdynamo : v.dynamo = true
  · rw [PositionCheck.confirmedPosition, v.getItem_eq hdynamo] at hfound
    obtain hrow | ⟨hrow, hzero⟩ | ⟨row, hrow, hquantity⟩ := h.confirmed
    · simp [hrow] at hfound
    · simpa [hrow, hzero] using hfound.symm
    · simpa [hrow, hquantity, intOf_intCast] using hfound.symm
  · simp [PositionCheck.confirmedPosition, ValidatorReads.getItem, hdynamo] at hfound

theorem ReadBy.pending_eq (h : b.ReadBy v) {pending : ℤ}
    (hfound : PositionCheck.pendingQuantity v = some pending) : pending = b.pendingShares := by
  rw [PositionCheck.pendingQuantity] at hfound
  split at hfound
  · generalize hshares : (fun status => (v.inFlight status).bind fun items =>
      (items.mapM intOf).map List.sum) = sharesOf at hfound
    have hstatus : ∀ status ∈ queriedStatuses, ∀ n, sharesOf status.value = some n →
        n = (((b.pages status).headD []).map fun o => (o.quantity : ℤ)).sum := by
      subst hshares
      intro status hmem n hn
      dsimp only at hn
      obtain hread | hread := h.inFlight status hmem
      · simp [hread] at hn
      · rw [hread, Option.bind_some, mapM_intOf] at hn
        exact (Option.some.inj hn).symm
    obtain ⟨_, hall, rfl⟩ := Option.map_eq_some_iff.mp hfound
    simp only [List.mapM_cons, List.mapM_nil, Option.pure_def, Option.bind_eq_bind,
      Option.bind_eq_some_iff, Option.some.injEq] at hall
    obtain ⟨n1, h1, _, ⟨n2, h2, _, ⟨n3, h3, _, rfl, rfl⟩, rfl⟩, rfl⟩ := hall
    rw [hstatus .pending (by decide) n1 h1, hstatus .placed (by decide) n2 h2,
      hstatus .partiallyFilled (by decide) n3 h3]
    simp [pendingShares, seen, queriedStatuses]
  · cases hfound

/-- The response to the query for a status. -/
def response (b : SymbolBook) (status : String) : List OpenOrder :=
  ((queriedStatuses.find? fun st => st.value = status).map fun st => (b.pages st).headD []).getD []

/-- Reads that meet the book and do not fail. -/
def reads (b : SymbolBook) (v : ValidatorReads) : ValidatorReads :=
  { v with
    dynamo := true
    confirmed := .item { quantity := some b.confirmed }
    inFlight := fun status => some ((b.response status).map fun o => some (o.quantity : ℚ)) }

theorem reads_readBy (b : SymbolBook) (v : ValidatorReads) : b.ReadBy (b.reads v) where
  confirmed := .inr (.inr ⟨_, rfl, rfl⟩)
  inFlight status hmem := by
    simp only [queriedStatuses, List.mem_cons, List.not_mem_nil, or_false] at hmem
    obtain rfl | rfl | rfl := hmem <;> exact .inr rfl

theorem pendingQuantity_reads (b : SymbolBook) (v : ValidatorReads) :
    PositionCheck.pendingQuantity (b.reads v) = some b.pendingShares := by
  have hdynamo : (b.reads v).dynamo = true := rfl
  have hseen : b.seen = b.response "PENDING" ++ (b.response "PLACED" ++
      (b.response "PARTIALLY_FILLED" ++ [])) := rfl
  rw [pendingQuantity_eq OpenOrder.quantity hdynamo fun _ => rfl, pendingShares, hseen]
  simp only [List.map_append, List.sum_append, List.map_nil, List.sum_nil, add_zero]

/-- Settings under which a count just passes. -/
def justEnough (s : Signal) (count : ℤ) : RiskConfig where
  limits :=
    { value := fun
        | .maxSingleOrderValue => s.value
        | .maxPositionPerSymbol => (max count 0 : ℤ)
        | .maxPositionSizePct => max (count * s.priceAtSignal * 100) 0
        | .maxTotalExposurePct | .maxDailyLossPct | .maxSectorExposurePct => 0
      portfolioValue := 1 }
  registry := fun _ => none

theorem justEnough_getLimit (s : Signal) (count : ℤ) (key : LimitKey) (market : String) :
    (justEnough s count).limits.getLimit key market = (justEnough s count).limits.value key := by
  simp [RiskLimits.getLimit, justEnough]

theorem admits_justEnough (s : Signal) (count : ℤ) :
    PositionCheck.Admits (justEnough s count) s count := by
  refine ⟨?_, ?_, one_ne_zero, ?_⟩
  · exact (justEnough_getLimit ..).ge
  · rw [justEnough_getLimit]
    have hnonneg : (0 : ℚ) ≤ (max count 0 : ℤ) := by exact_mod_cast le_max_right count 0
    change count ≤ truncated ((max count 0 : ℤ) : ℚ)
    rw [truncated, if_pos hnonneg, Int.floor_intCast]
    exact le_max_left count 0
  · rw [justEnough_getLimit]
    change count * s.priceAtSignal / 1 * 100 ≤ max (count * s.priceAtSignal * 100) 0
    rw [div_one]
    exact le_max_left _ 0

theorem justEnough_sizeLimits (s : Signal) (count : ℤ) :
    SizeLimits (justEnough s count).limits s.market where
  shares := by
    rw [justEnough_getLimit]
    change (0 : ℚ) ≤ (max count 0 : ℤ)
    exact_mod_cast le_max_right count 0
  share := by
    rw [justEnough_getLimit]
    exact le_max_right _ 0
  portfolio := one_pos

/-- A count that is admitted bounds any position that it covers on both sides. -/
theorem withinSize_of_admits {cfg : RiskConfig} {count position : ℤ} (hprice : 0 ≤ s.priceAtSignal)
    (hlimits : SizeLimits cfg.limits s.market) (h : PositionCheck.Admits cfg s count)
    (hcover : |position| ≤ max count 0) : WithinSize cfg.limits s position := by
  obtain ⟨hshares, hshare, hportfolio⟩ := hlimits
  have hcount : (count : ℚ) ≤ cfg.limits.getLimit .maxPositionPerSymbol s.market := by
    have hfloor := h.shares
    rw [truncated, if_pos hshares] at hfloor
    exact Int.le_floor.mp hfloor
  have hvalue : count * s.priceAtSignal ≤
      cfg.limits.getLimit .maxPositionSizePct s.market / 100 * cfg.limits.portfolioValue := by
    have hpct := h.share
    rw [← le_div_iff₀ (by norm_num), div_le_iff₀ hportfolio] at hpct
    exact hpct
  have hcover : |(position : ℚ)| ≤ max (count : ℚ) 0 := by exact_mod_cast hcover
  refine ⟨hcover.trans (max_le hcount hshares), ?_⟩
  rw [abs_mul, abs_of_nonneg hprice]
  calc |(position : ℚ)| * s.priceAtSignal
      ≤ max (count : ℚ) 0 * s.priceAtSignal := mul_le_mul_of_nonneg_right hcover hprice
    _ = max (count * s.priceAtSignal) 0 := by rw [max_mul_of_nonneg _ _ hprice, zero_mul]
    _ ≤ _ := max_le hvalue (by positivity)

/-- Every limit is kept exactly when the count is no less than the position, on either side. -/
theorem soundFor_iff_le (b : SymbolBook) (s : LiveSignal) :
    b.SoundFor s.signal ↔ |b.after s.signal| ≤ max (b.after s.signal + b.overcount s.signal) 0 := by
  obtain ⟨s, hlive, hprice⟩ := s
  dsimp only
  constructor
  · intro hsound
    set count := b.after s + b.overcount s with hcount
    have happroved : (PositionCheck.validate (justEnough s count)
        (b.reads quietReads.validators) s).approved = true := by
      refine (PositionCheck.validate_approved_iff hlive).mpr
        ⟨b.confirmed, b.pendingShares, intOf_intCast b.confirmed, b.pendingQuantity_reads _, ?_⟩
      rw [b.counted_eq, ← hcount]
      exact admits_justEnough s count
    have hwithin := (hsound _ _ (justEnough_sizeLimits s count) (b.reads_readBy _) happroved).1
    rw [justEnough_getLimit] at hwithin
    change |(b.after s : ℚ)| ≤ (max count 0 : ℤ) at hwithin
    exact_mod_cast hwithin
  · intro hcover cfg v hlimits hread happroved
    obtain ⟨confirmed, pending, hconfirmed, hpending, hadmits⟩ :=
      (PositionCheck.validate_approved_iff hlive).mp happroved
    obtain rfl := hread.confirmed_eq hconfirmed
    obtain rfl := hread.pending_eq hpending
    rw [b.counted_eq] at hadmits
    exact withinSize_of_admits hprice hlimits hadmits hcover

/-- The check is sound for a book and a signal, under whatever limits, exactly when the position
ends at zero, or its count has a surplus: any for a long end, twice the shares for a short one. -/
theorem position_check_sound_iff (b : SymbolBook) (s : LiveSignal) :
    b.SoundFor s.signal ↔ b.after s.signal = 0 ∨
      |b.after s.signal| - b.after s.signal ≤ b.overcount s.signal := by
  rw [b.soundFor_iff_le s]
  generalize b.after s.signal = position
  generalize b.overcount s.signal = surplus
  rw [le_max_iff, abs_nonpos_iff, or_comm, sub_le_iff_le_add']

/-- Short by 80 shares, with nothing in flight. -/
def shortBook : SymbolBook where
  confirmed := -80
  pages := fun _ => []

/-- A sale of 60 more under a limit of 100: the check adds them and finds -20. -/
def secondSale : LiveSignal where
  signal :=
    { smallBuy with direction := .sell, quantity := 60, priceAtSignal := 50 }
  live := rfl
  priced := by decide +kernel

/-- The position ends at -140. -/
theorem second_sale_exceeds_limit :
    ¬ ∀ (b : SymbolBook) (s : LiveSignal), b.SoundFor s.signal := by
  intro h
  have hlimits : SizeLimits tinyLive.limits secondSale.signal.market :=
    ⟨by decide +kernel, by decide +kernel, by decide +kernel⟩
  have hwithin := (h shortBook secondSale tinyLive (shortBook.reads quietReads.validators) hlimits
    (shortBook.reads_readBy _) (by decide +kernel)).1
  revert hwithin
  decide +kernel

end SymbolBook

/-- What is held of the symbol, and the other rows of the positions table. -/
structure Portfolio where
  held : ℤ
  lastPrice : Option ℚ
  others : List PositionRow

namespace Portfolio
variable (b : Portfolio)

def row : PositionRow := { quantity := some b.held, lastPrice := b.lastPrice }

/-- The side that takes the holding down. -/
def closing : OrderSide := if 0 < b.held then .sell else .buy

def exposure : ℚ := ExposureCheck.exposureOf (b.row :: b.others)

/-- Nothing is in flight, and the scan comes in pages. -/
structure ReadBy (v : ValidatorReads) : Prop where
  dynamo : v.dynamo = true
  confirmed : v.confirmed = .item b.row
  inFlight : ∀ status, v.inFlight status = some []
  exposureScan : ∃ pages : List (List PositionRow), v.exposureScan = pages.map some ∧
    pages.flatten.Perm (b.row :: b.others)

/-- A signal on the other side of the holding, for no more than there is. -/
structure Reduction where
  signal : Signal
  opposite : signal.direction = b.closing
  shares : 0 < signal.quantity ∧ signal.quantity ≤ |b.held|

/-- The limits leave room for the signal on top of the holding and of all exposure, unless the cap
on one order or a portfolio without value ends the check before. -/
structure RoomFor (l : RiskLimits) (s : Signal) : Prop where
  position : l.getLimit .maxSingleOrderValue s.market < s.value ∨
    (b.held + s.quantity ≤ truncated (l.getLimit .maxPositionPerSymbol s.market) ∧
      (l.portfolioValue ≠ 0 → ((b.held + s.quantity : ℤ) : ℚ) * s.priceAtSignal /
        l.portfolioValue * 100 ≤ l.getLimit .maxPositionSizePct s.market))
  exposure : l.portfolioValue ≠ 0 → b.exposure + |s.value| ≤
    l.portfolioValue * (l.getLimit .maxTotalExposurePct s.market / 100)

end Portfolio

/-- The reasons of the checks on the size of a position and on total exposure. -/
def sizeReasons : List String :=
  ["Effective position exceeds max", "Effective position exceeds its share of the portfolio",
    "Proposed total exposure exceeds max"]

def RiskValidationResult.BlocksBySize (r : RiskValidationResult) : Prop :=
  r.approved = false ∧ r.reason ∈ sizeReasons

def BlockedBySize (cfg : RiskConfig) (v : ValidatorReads) (s : Signal) : Prop :=
  (PositionCheck.validate cfg v s).BlocksBySize ∨ (ExposureCheck.validate cfg v s).BlocksBySize

theorem riskDataUnavailable_not_blocksBySize (s : Signal) (name reason : String)
    (h : reason ∈ ["Position state read failed", "Exposure state read failed"]) :
    ¬ (riskDataUnavailableResult s name reason).BlocksBySize := by
  have htexts : ∀ reason ∈ ["Position state read failed", "Exposure state read failed"],
      "PAPER_WARN_RISK_DATA_UNAVAILABLE: " ++ reason ∉ sizeReasons ∧
        "LIVE_RISK_DATA_UNAVAILABLE: " ++ reason ∉ sizeReasons := by decide
  rintro ⟨-, hreason⟩
  rw [riskDataUnavailableResult] at hreason
  split at hreason
  · exact (htexts reason h).1 hreason
  · exact (htexts reason h).2 hreason

theorem PositionCheck.blocksBySize_iff (cfg : RiskConfig) (s : Signal) (proposed : ℤ) :
    (withinLimits cfg s proposed).BlocksBySize ↔
      ¬ (cfg.limits.getLimit .maxSingleOrderValue s.market < s.value ∨
        (proposed ≤ truncated (cfg.limits.getLimit .maxPositionPerSymbol s.market) ∧
          (cfg.limits.portfolioValue ≠ 0 → proposed * s.priceAtSignal /
            cfg.limits.portfolioValue * 100 ≤
              cfg.limits.getLimit .maxPositionSizePct s.market))) := by
  rw [withinLimits]
  split
  · next horder => exact iff_of_false (fun h => absurd h.2 (by decide)) fun h => h (.inl horder)
  next horder =>
  split
  · next hshares =>
    exact iff_of_true ⟨rfl, by decide⟩ fun h =>
      h.elim horder fun h => absurd h.1 (not_le.mpr hshares)
  next hshares =>
  split
  · next hzero =>
    exact iff_of_false (riskDataUnavailable_not_blocksBySize s _ _ (by decide)) fun h =>
      h (.inr ⟨not_lt.mp hshares, fun hne => absurd hzero hne⟩)
  next hzero =>
  split
  · next hshare =>
    exact iff_of_true ⟨rfl, by decide⟩ fun h =>
      h.elim horder fun h => absurd (h.2 hzero) (not_le.mpr hshare)
  next hshare =>
  exact iff_of_false (fun h => absurd h.1 (by decide)) fun h =>
    h (.inr ⟨not_lt.mp hshares, fun _ => not_lt.mp hshare⟩)

theorem ExposureCheck.blocksBySize_iff (cfg : RiskConfig) (s : Signal) (proposed : ℚ) :
    (withinLimits cfg s proposed).BlocksBySize ↔
      ¬ (cfg.limits.portfolioValue ≠ 0 → proposed ≤ cfg.limits.portfolioValue *
        (cfg.limits.getLimit .maxTotalExposurePct s.market / 100)) := by
  rw [withinLimits]
  split
  · next hzero =>
    exact iff_of_false (riskDataUnavailable_not_blocksBySize s _ _ (by decide)) fun h =>
      h fun hne => absurd hzero hne
  next hzero =>
  split
  · next hover =>
    exact iff_of_true ⟨rfl, by decide⟩ fun h => absurd (h hzero) (not_le.mpr hover)
  next hover =>
  exact iff_of_false (fun h => absurd h.1 (by decide)) fun h => h fun _ => not_lt.mp hover

namespace Portfolio
variable {b : Portfolio} {v : ValidatorReads}

theorem ReadBy.totalExposure (h : b.ReadBy v) :
    ExposureCheck.totalExposure v = some b.exposure := by
  obtain ⟨pages, hscan, hperm⟩ := h.exposureScan
  have hpages : readPages (pages.map some) = some pages.flatten := by
    have hall : ∀ ps : List (List PositionRow), (ps.map some).mapM id = some ps := by
      intro ps
      induction ps with
      | nil => rfl
      | cons p ps ih =>
        rw [List.map_cons, List.mapM_cons, ih]
        rfl
    rw [readPages, hall]
    rfl
  have hsum : ExposureCheck.exposureOf pages.flatten = b.exposure :=
    (hperm.map _).sum_eq
  rw [ExposureCheck.totalExposure, if_pos h.dynamo, hscan, hpages, Option.map_some, hsum]

theorem ReadBy.position (h : b.ReadBy v) : PositionCheck.confirmedPosition v = some b.held ∧
    PositionCheck.pendingQuantity v = some 0 := by
  constructor
  · rw [PositionCheck.confirmedPosition, v.getItem_eq h.dynamo, h.confirmed]
    exact intOf_intCast b.held
  · rw [PositionCheck.pendingQuantity, if_pos h.dynamo]
    simp [h.inFlight]

/-- A signal that reduces the holding gets past the checks on size exactly when there would be
room for it to add to the holding. -/
theorem reduction_unblocked_iff (cfg : RiskConfig) (r : b.Reduction) (h : b.ReadBy v) :
    ¬ BlockedBySize cfg v r.signal ↔ b.RoomFor cfg.limits r.signal := by
  obtain ⟨hheld, hpending⟩ := h.position
  rw [BlockedBySize, PositionCheck.validate, hheld, hpending, ExposureCheck.validate,
    h.totalExposure]
  dsimp only
  rw [add_zero, PositionCheck.blocksBySize_iff, ExposureCheck.blocksBySize_iff, not_or, not_not,
    not_not]
  exact ⟨fun hboth => ⟨hboth.1, hboth.2⟩, fun hroom => ⟨hroom.position, hroom.exposure⟩⟩

/-- A short holding that is bought back is never held up by the limits on the position. -/
theorem cover_fits {l : RiskLimits} (r : b.Reduction) (hshort : b.held < 0)
    (hlimits : SizeLimits l r.signal.market) (hprice : 0 ≤ r.signal.priceAtSignal) :
    b.held + r.signal.quantity ≤ truncated (l.getLimit .maxPositionPerSymbol r.signal.market) ∧
      ((b.held + r.signal.quantity : ℤ) : ℚ) * r.signal.priceAtSignal / l.portfolioValue * 100 ≤
        l.getLimit .maxPositionSizePct r.signal.market := by
  have hcovered : b.held + r.signal.quantity ≤ 0 := by
    have hle := r.shares.2
    rw [abs_of_neg hshort] at hle
    omega
  constructor
  · rw [truncated, if_pos hlimits.shares]
    exact hcovered.trans (Int.floor_nonneg.mpr hlimits.shares)
  · have hshares : ((b.held + r.signal.quantity : ℤ) : ℚ) ≤ 0 := by exact_mod_cast hcovered
    have hvalue := div_nonpos_of_nonpos_of_nonneg (mul_nonpos_of_nonpos_of_nonneg hshares hprice)
      hlimits.portfolio.le
    exact (mul_nonpos_of_nonpos_of_nonneg hvalue (by norm_num)).trans hlimits.share

def holdingOf (held : ℤ) : Portfolio where
  held
  lastPrice := some 50
  others := []

def holdingReads (held : ℤ) : ValidatorReads :=
  { quietReads.validators with
    confirmed := .item (holdingOf held).row
    exposureScan := [some [(holdingOf held).row]] }

theorem holdingReads_readBy (held : ℤ) : (holdingOf held).ReadBy (holdingReads held) where
  dynamo := rfl
  confirmed := rfl
  inFlight _ := rfl
  exposureScan := ⟨[[(holdingOf held).row]], rfl, .refl _⟩

/-- The sale of all that is held. -/
def saleOfAll (held : ℤ) (h : 0 < held) : (holdingOf held).Reduction where
  signal := { smallBuy with direction := .sell, quantity := held, priceAtSignal := 50 }
  opposite := (if_pos h).symm
  shares := ⟨h, le_abs_self held⟩

/-- At the limit of 100 the check counts 200 shares. -/
theorem full_sale_blocked : ¬ ∀ (cfg : RiskConfig) (b : Portfolio) (r : b.Reduction)
    (v : ValidatorReads), b.ReadBy v → ¬ BlockedBySize cfg v r.signal := by
  intro h
  refine h tinyLive _ (saleOfAll 100 (by decide)) _ (holdingReads_readBy 100) (.inl ?_)
  exact ⟨by decide +kernel, by decide +kernel⟩

/-- A holding of 40 can be sold. -/
theorem reduction_unblocked_iff_forty :
    ¬ BlockedBySize tinyLive (holdingReads 40) (saleOfAll 40 (by decide)).signal :=
  (reduction_unblocked_iff tinyLive (saleOfAll 40 (by decide)) (holdingReads_readBy 40)).mpr
    ⟨by decide +kernel, by decide +kernel⟩

end Portfolio

end QuantEmbrace.RiskCheck
