import QuantEmbrace.FillAccounting

/-! The P&L that the kill-switch monitor holds for each strategy: after every fill the total of
the day is recorded under the strategy of the fill. -/
namespace QuantEmbrace
open GuardedRun AverageCost InFlight

/-- A row of the scan of the positions table. -/
structure PositionReading where
  quantity : ℚ
  avgPrice : ℚ
  lastPrice : ℚ
  deriving DecidableEq, Repr

/-- One fill event with what its handling reads; every request succeeds. `mark` values what a
strategy still holds, and no code reads it. -/
structure StrategyFill where
  event : OrderFillEvent
  day : String
  positions : List PositionReading
  ordersRealized : ℚ := 0
  portfolioValue : ℚ := 1000000
  clock : ℚ := 0
  mark : String → ℚ := fun _ => 0

def StrategyFill.strategyId (f : StrategyFill) : String := f.event.strategyId

/-- The fills are told apart by strategy only. -/
def StrategyFill.delivery (f : StrategyFill) : FillDelivery String :=
  ⟨f.strategyId, f.event, f.day, 4, true⟩

/-- `_get_unrealized_pnl` -/
def StrategyMonitor.getUnrealizedPnl (positions : List PositionReading) : ℚ :=
  (positions.map fun p => p.quantity * (p.lastPrice - p.avgPrice)).sum

/-- The ledger, the cached realized P&L and the two dictionaries of the monitor. `ownPnl` is
history: what the strategy's own fills had made when its entry was written. -/
structure StrategyMonitor extends FillLedger String where
  cachedRealizedPnl : ℚ := 0
  pnlCacheDate : Option String := none
  pnlCacheFetchedAt : ℚ := 0
  strategyPnl : String → Option ℚ := fun _ => none
  strategyCapital : String → Option ℚ := fun _ => none
  ownPnl : String → Option ℚ := fun _ => none

/-- What the selected fills of a day have made, realized or not, at the given prices. -/
def pnlOf (log : List (String × RecordCall)) (sel : String → Bool) (day : String)
    (mark : String → ℚ) : ℚ :=
  ((log.filter fun e => sel e.1 && e.2.day = day).map fun e =>
    e.2.fill.signed * (mark e.2.fill.symbol - e.2.fill.price)).sum

namespace StrategyMonitor

def start : StrategyMonitor := { FillLedger.start with }

variable (m : StrategyMonitor) (f : StrategyFill)

/-- The aggregate row of the day, or the orders if nothing has been added to it yet. -/
def fetchRealizedPnl : ℚ :=
  if m.dayLog.any (fun e => e.2.1 = f.day) then m.realizedDay f.day else f.ordersRealized

/-- `_get_realized_pnl` -/
def getRealizedPnl : StrategyMonitor × ℚ :=
  if m.pnlCacheDate ≠ some f.day ∨ f.clock - m.pnlCacheFetchedAt ≥ 30 then
    ({ m with
      cachedRealizedPnl := m.fetchRealizedPnl f
      pnlCacheDate := some f.day
      pnlCacheFetchedAt := f.clock }, m.fetchRealizedPnl f)
  else (m, m.cachedRealizedPnl)

/-- The key of the event is reserved, so that `record_fill` only reads the total. -/
def Duplicate : Prop :=
  f.event.isFill = true ∧ ∃ fill ∈ f.event.recordArgs,
    0 < fill.quantity ∧ 0 < fill.price ∧ fill.eventKey ∈ m.reserved

instance : Decidable (m.Duplicate f) :=
  inferInstanceAs (Decidable (_ ∧ ∃ fill ∈ f.event.recordArgs, _))

/-- The monitor after `record_fill`, and the realized part of the total it returns, if it does. -/
def recordFill : StrategyMonitor × Option ℚ :=
  let m' := { m with toFillLedger := m.toFillLedger.consume f.delivery }
  if f.delivery.Posts m.toRiskTables then
    let realizedToday := m'.realizedDay f.day
    ({ m' with
      cachedRealizedPnl := realizedToday
      pnlCacheDate := some f.day
      pnlCacheFetchedAt := f.clock }, some realizedToday)
  else if m.Duplicate f then
    ((m'.getRealizedPnl f).1, some (m'.getRealizedPnl f).2)
  else (m', none)

/-- `record_strategy_pnl` -/
def recordStrategyPnl (strategyId : String) (pnl startingCapital : ℚ) : StrategyMonitor :=
  { m with
    strategyPnl := Function.update m.strategyPnl strategyId (some pnl)
    strategyCapital := Function.update m.strategyCapital strategyId (some startingCapital) }

/-- `_handle_fill`, as far as the monitor is told of it. -/
def handleFill : StrategyMonitor :=
  match m.recordFill f with
  | (m', none) => m'
  | (m', some realized) =>
    let m' := m'.recordStrategyPnl f.strategyId (realized + getUnrealizedPnl f.positions)
      f.portfolioValue
    let own := pnlOf m'.symbolLog (· = f.strategyId) f.day f.mark
    { m' with ownPnl := Function.update m'.ownPnl f.strategyId (some own) }

/-- Every entry is what the strategy's own fills have made. -/
def Attributed : Prop := ∀ s, m.strategyPnl s = m.ownPnl s

end StrategyMonitor

/-- What is held after the day's fills, at the given prices against average cost. -/
def FillLedger.openValue (w : FillLedger String) (day : String) (mark : String → ℚ) : ℚ :=
  ∑ s ∈ ((w.symbolLog.filter fun e => e.2.day = day).map fun e => e.2.fill.symbol).toFinset,
    (w.symbolRows day s).book.quantity * (mark s - (w.symbolRows day s).book.avg)

namespace StrategyMonitor

/-- When the total is recorded, three amounts add up to nothing: what the fills of other
strategies have made that day, what the positions table shows beyond the day's fills, and for a
repeated event how far the cached realized P&L is behind. -/
def OthersCancel (m : StrategyMonitor) (f : StrategyFill) : Prop :=
  let w := m.toFillLedger.consume f.delivery
  let others := pnlOf w.symbolLog (· ≠ f.strategyId) f.day f.mark
  let beyond := getUnrealizedPnl f.positions - w.openValue f.day f.mark
  (f.delivery.Posts m.toRiskTables → others + beyond = 0) ∧
  (m.Duplicate f → others + beyond + ((m.getRealizedPnl f).2 - m.realizedDay f.day) = 0)

end StrategyMonitor

theorem pnlOf_split (log : List (String × RecordCall)) (s day : String) (mark : String → ℚ) :
    pnlOf log (fun _ => true) day mark =
      pnlOf log (· = s) day mark + pnlOf log (· ≠ s) day mark := by
  induction log with
  | nil => simp [pnlOf]
  | cons e log ih =>
    simp only [pnlOf, Bool.true_and] at ih ⊢
    by_cases hd : e.2.day = day <;> by_cases hs : e.1 = s
    · simp [hd, hs, ih]
      ring
    · simp [hd, hs, ih]
      ring
    · simpa [hd] using ih
    · simpa [hd] using ih

theorem pnlOf_append (log : List (String × RecordCall)) (e : String × RecordCall)
    (sel : String → Bool) (day : String) (mark : String → ℚ) :
    pnlOf (log ++ [e]) sel day mark = pnlOf log sel day mark +
      if sel e.1 = true ∧ e.2.day = day
      then e.2.fill.signed * (mark e.2.fill.symbol - e.2.fill.price) else 0 := by
  by_cases h : sel e.1 = true ∧ e.2.day = day
  · simp [pnlOf, h]
  · rw [if_neg h, add_zero]
    have hf : (sel e.1 && decide (e.2.day = day)) = false := by
      simpa using h
    simp [pnlOf, List.filter_append, hf]

namespace FillLedger
variable {w : FillLedger String} {d : FillDelivery String}

/-- The day's realized P&L and what is held are together what the day's fills have made. -/
def Whole (w : FillLedger String) : Prop := ∀ day mark,
  w.realizedDay day + w.openValue day mark = pnlOf w.symbolLog (fun _ => true) day mark

/-- A symbol without a fill that day has an empty book. -/
theorem Logged.book_flat (h : w.Logged) {day symbol : String}
    (hs : symbol ∉ ((w.symbolLog.filter fun e => e.2.day = day).map
      fun e => e.2.fill.symbol).toFinset) : (w.symbolRows day symbol).book = .flat := by
  have hnil : (w.symbolLog.filter fun e => e.2.day = day ∧ e.2.fill.symbol = symbol) = [] := by
    rw [List.filter_eq_nil_iff]
    intro e he hmatch
    rw [decide_eq_true_eq] at hmatch
    refine hs (List.mem_toFinset.mpr (List.mem_map.mpr ⟨e, ?_, hmatch.2⟩))
    exact List.mem_filter.mpr ⟨he, decide_eq_true hmatch.1⟩
  rw [h.symbol day symbol, hnil]
  rfl

theorem Whole.consume (hw : w.Whole) (hl : w.Logged) (hreach : 3 ≤ d.reach) :
    (w.consume d).Whole := by
  by_cases hp : d.Posts w.toRiskTables
  · obtain ⟨fill, -, row, delta, hv, hs, -, -, hrows, hday, hbook, hdelta⟩ := consume_posts hp
    intro day mark
    rw [if_neg (not_lt.mpr hreach)] at hday
    rw [hs, pnlOf_append, ← hw day mark, hday, openValue, hs, hrows]
    by_cases hd : d.day = day
    · subst hd
      have hworth := (w.symbolRows d.day fill.symbol).book.trade_worth fill.signed fill.price
        (mark fill.symbol) hv.signed_ne_zero
      rw [← hbook, hdelta] at hworth
      have hset : ((((w.symbolLog ++ [(d.fill, (⟨d.day, fill⟩ : RecordCall))]).filter
          fun e => e.2.day = d.day).map fun e => e.2.fill.symbol).toFinset) =
          insert fill.symbol ((w.symbolLog.filter fun e => e.2.day = d.day).map
            fun e => e.2.fill.symbol).toFinset := by
        ext s
        simp
      have hterm : (fun s => (Function.update w.symbolRows d.day
          (Function.update (w.symbolRows d.day) fill.symbol row) d.day s).book.quantity *
            (mark s - (Function.update w.symbolRows d.day
              (Function.update (w.symbolRows d.day) fill.symbol row) d.day s).book.avg)) =
          Function.update (fun s => (w.symbolRows d.day s).book.quantity *
            (mark s - (w.symbolRows d.day s).book.avg)) fill.symbol
            (row.book.quantity * (mark fill.symbol - row.book.avg)) := by
        funext s
        by_cases hsym : s = fill.symbol
        · subst hsym
          simp
        · simp [Function.update_of_ne hsym]
      rw [hset, hterm, sum_insert_update (fun hn => by rw [hl.book_flat hn]; simp [Book.flat]),
        openValue]
      simp only [Function.update_self, true_and, if_true]
      linarith
    · simp [Function.update_of_ne (Ne.symm hd), hd, openValue]
  · obtain ⟨hs, -, -, hrows, hday⟩ := consume_not_posts hp
    intro day mark
    rw [openValue, hs, hrows, hday]
    exact hw day mark

end FillLedger
namespace StrategyMonitor
variable {m : StrategyMonitor} {f : StrategyFill}

theorem Duplicate.not_posts (h : m.Duplicate f) : ¬ f.delivery.Posts m.toRiskTables := by
  obtain ⟨-, fill, hargs, -, -, hkey⟩ := h
  rintro ⟨-, -, fill', hargs', -, hkey'⟩
  have heq : fill = fill' := Option.mem_unique hargs hargs'
  exact hkey' (heq ▸ hkey)

/-- What handling a fill leaves when the total is recorded. -/
structure Records (m m' : StrategyMonitor) (f : StrategyFill) (realized : ℚ) : Prop where
  ledger : m'.toFillLedger = m.toFillLedger.consume f.delivery
  pnl : m'.strategyPnl =
    Function.update m.strategyPnl f.strategyId (some (realized + getUnrealizedPnl f.positions))
  own : m'.ownPnl = Function.update m.ownPnl f.strategyId
    (some (pnlOf (m.toFillLedger.consume f.delivery).symbolLog (· = f.strategyId) f.day f.mark))

theorem handleFill_posts (h : f.delivery.Posts m.toRiskTables) :
    Records m (m.handleFill f) f ((m.toFillLedger.consume f.delivery).realizedDay f.day) := by
  simp only [handleFill, recordFill, if_pos h]
  exact ⟨rfl, rfl, rfl⟩

theorem handleFill_duplicate (h : m.Duplicate f) :
    Records m (m.handleFill f) f (m.getRealizedPnl f).2 := by
  obtain ⟨-, hd, -, -, hday⟩ := FillLedger.consume_not_posts h.not_posts
  simp only [handleFill, recordFill, if_neg h.not_posts, if_pos h, getRealizedPnl, fetchRealizedPnl,
    hd, hday]
  by_cases hc : m.pnlCacheDate ≠ some f.day ∨ f.clock - m.pnlCacheFetchedAt ≥ 30
  · simp only [if_pos hc]
    exact ⟨rfl, rfl, rfl⟩
  · simp only [if_neg hc]
    exact ⟨rfl, rfl, rfl⟩

theorem handleFill_unrecorded (hp : ¬ f.delivery.Posts m.toRiskTables) (hd : ¬ m.Duplicate f) :
    m.handleFill f = { m with toFillLedger := m.toFillLedger.consume f.delivery } := by
  simp only [handleFill, recordFill, if_neg hp, if_neg hd]

theorem handleFill_ledger (m : StrategyMonitor) (f : StrategyFill) :
    (m.handleFill f).toFillLedger = m.toFillLedger.consume f.delivery := by
  by_cases hp : f.delivery.Posts m.toRiskTables
  · exact (handleFill_posts hp).ledger
  · by_cases hd : m.Duplicate f
    · exact (handleFill_duplicate hd).ledger
    · rw [handleFill_unrecorded hp hd]

/-- A fill of one strategy changes no other strategy's entry. -/
theorem handleFill_other (m : StrategyMonitor) {f : StrategyFill} {s : String}
    (hs : s ≠ f.strategyId) : (m.handleFill f).strategyPnl s = m.strategyPnl s := by
  by_cases hp : f.delivery.Posts m.toRiskTables
  · rw [(handleFill_posts hp).pnl, Function.update_of_ne hs]
  · by_cases hd : m.Duplicate f
    · rw [(handleFill_duplicate hd).pnl, Function.update_of_ne hs]
    · rw [handleFill_unrecorded hp hd]

/-- The entries stay attributed exactly when the total recorded is the strategy's own. -/
theorem Records.attributed_iff {m' : StrategyMonitor} {realized : ℚ} (h : Records m m' f realized)
    (hm : m.Attributed) : m'.Attributed ↔ realized + getUnrealizedPnl f.positions =
      pnlOf (m.toFillLedger.consume f.delivery).symbolLog (· = f.strategyId) f.day f.mark := by
  rw [Attributed, h.pnl, h.own]
  constructor
  · intro hall
    simpa using hall f.strategyId
  · intro heq s
    by_cases hs : s = f.strategyId
    · subst hs
      simp [heq]
    · rw [Function.update_of_ne hs, Function.update_of_ne hs]
      exact hm s

theorem attributed_handleFill (hwhole : (m.toFillLedger.consume f.delivery).Whole)
    (hm : m.Attributed) : (m.handleFill f).Attributed ↔ m.OthersCancel f := by
  have hsum := hwhole f.day f.mark
  rw [pnlOf_split _ f.strategyId] at hsum
  by_cases hp : f.delivery.Posts m.toRiskTables
  · have hdup : ¬ m.Duplicate f := fun hd => hd.not_posts hp
    rw [(handleFill_posts hp).attributed_iff hm, OthersCancel]
    simp only [hp, hdup, true_implies, false_implies, and_true]
    constructor <;> intro h <;> linarith
  · by_cases hd : m.Duplicate f
    · obtain ⟨-, -, -, -, hday⟩ := FillLedger.consume_not_posts hp
      rw [hday] at hsum
      rw [(handleFill_duplicate hd).attributed_iff hm, OthersCancel]
      simp only [hp, hd, true_implies, false_implies, true_and]
      constructor <;> intro h <;> linarith
    · rw [handleFill_unrecorded hp hd, OthersCancel]
      simp only [hp, hd, false_implies, and_self, iff_true]
      exact hm

end StrategyMonitor

theorem OrderFillEvent.fillId_ne_empty (e : OrderFillEvent) : e.fillId ≠ "" := by
  intro h
  have := congrArg String.toList h
  simp [OrderFillEvent.fillId] at this

theorem OrderFillEvent.eventKey_of_mem {e : OrderFillEvent} {fill : FillEvent}
    (h : fill ∈ e.recordArgs) : fill.eventKey = .fillId e.fillId := by
  unfold OrderFillEvent.recordArgs at h
  split at h
  · cases h
  · split at h
    · cases h
    · cases h
      rw [FillEvent.eventKey, if_neg e.fillId_ne_empty]

/-- No message about a fill of the strategy has the offset of a message about another's. -/
def KeysApart (s : String) (fs : List StrategyFill) : Prop :=
  ∀ f ∈ fs, ∀ g ∈ fs, f.strategyId = s → g.strategyId ≠ s → f.event.fillId ≠ g.event.fillId

theorem pnlOf_own (log : List (String × RecordCall)) (s day : String) (mark : String → ℚ) :
    pnlOf log (· = s) day mark =
      pnlOf (log.filter fun e => e.1 = s) (fun _ => true) day mark := by
  simp [pnlOf, List.filter_filter, Bool.and_comm]

namespace StrategyMonitor

/-- Two monitors that know the same of one strategy, and of the keys of its messages. -/
structure Alike (s : String) (fs : List StrategyFill) (m m' : StrategyMonitor) : Prop where
  own : m.ownPnl s = m'.ownPnl s
  log : (m.symbolLog.filter fun e => e.1 = s) = m'.symbolLog.filter fun e => e.1 = s
  reserved : ∀ f ∈ fs, f.strategyId = s →
    (.fillId f.event.fillId ∈ m.reserved ↔ .fillId f.event.fillId ∈ m'.reserved)

variable {s : String} {fs : List StrategyFill} {m m' : StrategyMonitor} {f : StrategyFill}

theorem posts_congr (h : .fillId f.event.fillId ∈ m.reserved ↔
    .fillId f.event.fillId ∈ m'.reserved) :
    f.delivery.Posts m.toRiskTables ↔ f.delivery.Posts m'.toRiskTables := by
  unfold FillDelivery.Posts
  refine and_congr_right fun _ => and_congr_right fun _ => ?_
  refine exists_congr fun fill => and_congr_right fun hargs => and_congr_right fun _ => ?_
  rw [OrderFillEvent.eventKey_of_mem hargs]
  exact not_congr h

theorem duplicate_congr (h : .fillId f.event.fillId ∈ m.reserved ↔
    .fillId f.event.fillId ∈ m'.reserved) : m.Duplicate f ↔ m'.Duplicate f := by
  unfold Duplicate
  refine and_congr_right fun _ => exists_congr fun fill => and_congr_right fun hargs => ?_
  rw [OrderFillEvent.eventKey_of_mem hargs, h]

/-- What a fill does to the log of a strategy, in terms of the fill alone. -/
theorem log_handleFill (m : StrategyMonitor) (f : StrategyFill) (s : String) :
    ((m.handleFill f).symbolLog.filter fun e => e.1 = s) =
      (m.symbolLog.filter fun e => e.1 = s) ++
        if f.strategyId = s ∧ f.delivery.Posts m.toRiskTables
        then (f.event.recordArgs.map fun fill =>
          (f.strategyId, (⟨f.day, fill⟩ : RecordCall))).toList
        else [] := by
  rw [m.handleFill_ledger f]
  by_cases hp : f.delivery.Posts m.toRiskTables
  · obtain ⟨fill, hargs, row, delta, -, hs, -⟩ := FillLedger.consume_posts hp
    have hlog : (m.toFillLedger.consume f.delivery).symbolLog =
        m.symbolLog ++ [(f.strategyId, ⟨f.day, fill⟩)] := hs
    have hsome : f.event.recordArgs = some fill := hargs
    by_cases hf : f.strategyId = s <;> simp [hlog, hsome, hp, hf]
  · obtain ⟨hs, -⟩ := FillLedger.consume_not_posts hp
    simp [hs, hp]

theorem ownPnl_handleFill_other (m : StrategyMonitor) {f : StrategyFill} {s : String}
    (hs : s ≠ f.strategyId) : (m.handleFill f).ownPnl s = m.ownPnl s := by
  by_cases hp : f.delivery.Posts m.toRiskTables
  · rw [(handleFill_posts hp).own, Function.update_of_ne hs]
  · by_cases hd : m.Duplicate f
    · rw [(handleFill_duplicate hd).own, Function.update_of_ne hs]
    · rw [handleFill_unrecorded hp hd]

theorem Records.ownPnl_eq {m₁ : StrategyMonitor} {realized : ℚ} (h : Records m m₁ f realized) :
    m₁.ownPnl f.strategyId =
      some (pnlOf (m₁.symbolLog.filter fun e => e.1 = f.strategyId) (fun _ => true) f.day
        f.mark) := by
  rw [h.own, Function.update_self, h.ledger, pnlOf_own]

/-- A fill of the strategy, handled by both. -/
theorem Alike.own_fill (h : Alike s fs m m') (hf : f ∈ fs) (hs : f.strategyId = s) :
    Alike s fs (m.handleFill f) (m'.handleFill f) := by
  have hkey := h.reserved f hf hs
  have hposts := posts_congr hkey
  have hdup := duplicate_congr hkey
  have hlog : ((m.handleFill f).symbolLog.filter fun e => e.1 = s) =
      (m'.handleFill f).symbolLog.filter fun e => e.1 = s := by
    rw [log_handleFill, log_handleFill, h.log]
    simp only [hposts]
  refine ⟨?_, hlog, fun g hg hgs => ?_⟩
  · subst hs
    by_cases hp : f.delivery.Posts m.toRiskTables
    · rw [(handleFill_posts hp).ownPnl_eq, (handleFill_posts (hposts.mp hp)).ownPnl_eq, hlog]
    · by_cases hd : m.Duplicate f
      · rw [(handleFill_duplicate hd).ownPnl_eq, (handleFill_duplicate (hdup.mp hd)).ownPnl_eq,
          hlog]
      · rw [handleFill_unrecorded hp hd,
          handleFill_unrecorded (mt hposts.mpr hp) (mt hdup.mpr hd)]
        exact h.own
  · rw [handleFill_ledger, handleFill_ledger, FillLedger.mem_reserved_consume,
      FillLedger.mem_reserved_consume, h.reserved g hg hgs]

/-- A fill of another strategy, handled by the first only. -/
theorem Alike.other_fill (h : Alike s fs m m') (hkeys : KeysApart s fs) (hf : f ∈ fs)
    (hs : f.strategyId ≠ s) : Alike s fs (m.handleFill f) m' := by
  refine ⟨?_, ?_, fun g hg hgs => ?_⟩
  · rw [ownPnl_handleFill_other m (Ne.symm hs), h.own]
  · rw [log_handleFill, if_neg (fun hc => hs hc.1), List.append_nil, h.log]
  · rw [handleFill_ledger, FillLedger.mem_reserved_consume, ← h.reserved g hg hgs]
    constructor
    · rintro (hmem | ⟨fill, hargs, -, hkey⟩)
      · exact hmem
      · rw [OrderFillEvent.eventKey_of_mem hargs, EventKey.fillId.injEq] at hkey
        exact absurd hkey.symm (hkeys g hg f hf hgs hs)
    · exact .inl

/-- What is known of one strategy does not depend on the fills of others. -/
theorem Alike.run (hkeys : KeysApart s fs) (gs : List StrategyFill) (hgs : gs ⊆ fs)
    (h : Alike s fs m m') :
    Alike s fs (gs.foldl handleFill m)
      ((gs.filter fun f => f.strategyId = s).foldl handleFill m') := by
  induction gs generalizing m m' with
  | nil => exact h
  | cons g gs ih =>
    have hg : g ∈ fs := hgs List.mem_cons_self
    have hrest : gs ⊆ fs := fun a ha => hgs (List.mem_cons_of_mem g ha)
    by_cases hs : g.strategyId = s
    · rw [List.filter_cons_of_pos (by simp [hs])]
      exact ih hrest (h.own_fill hg hs)
    · rw [List.filter_cons_of_neg (by simp [hs])]
      exact ih hrest (h.other_fill hkeys hg hs)

theorem ownPnl_run (hkeys : KeysApart s fs) : (fs.foldl handleFill start).ownPnl s =
    ((fs.filter fun f => f.strategyId = s).foldl handleFill start).ownPnl s :=
  (Alike.run hkeys fs (List.Subset.refl fs) ⟨rfl, rfl, fun _ _ _ => Iff.rfl⟩).own

theorem attributed_run (fs : List StrategyFill) :
    AlongRun handleFill Attributed start fs ↔ StepsMeet handleFill OthersCancel start fs := by
  refine alongRun_iff (I := fun m => m.Logged ∧ m.Whole) (D := fun _ => True) ?_ ?_ fs
    (fun _ _ => trivial) start ?_ (fun _ => rfl)
  · intro m f _ ⟨hl, hw⟩
    have hledger := m.handleFill_ledger f
    refine ⟨?_, ?_⟩
    · rw [hledger]
      exact hl.consume f.delivery
    · rw [hledger]
      exact hw.consume hl (Nat.le_succ 3)
  · intro m f _ ⟨hl, hw⟩ hm
    exact attributed_handleFill (hw.consume hl (Nat.le_succ 3)) hm
  · exact ⟨⟨fun _ _ => rfl, fun _ => rfl⟩, fun _ _ => by simp [FillLedger.openValue, pnlOf, start,
      FillLedger.start]⟩

/-- Along a run every entry of the monitor is what the strategy's own fills have made, exactly
when at every recording the fills of the others and all else in the total cancel out. Two such
runs with the same fills of a strategy then hold the same entry for it. -/
theorem strategy_pnl_attributed (fs : List StrategyFill) :
    (AlongRun handleFill Attributed start fs ↔ StepsMeet handleFill OthersCancel start fs) ∧
    ∀ (gs : List StrategyFill) (s : String), KeysApart s fs → KeysApart s gs →
      (fs.filter fun f => f.strategyId = s) = (gs.filter fun f => f.strategyId = s) →
      StepsMeet handleFill OthersCancel start fs → StepsMeet handleFill OthersCancel start gs →
      (fs.foldl handleFill start).strategyPnl s = (gs.foldl handleFill start).strategyPnl s := by
  refine ⟨attributed_run fs, fun gs s hfs hgs hsame hf hg => ?_⟩
  calc (fs.foldl handleFill start).strategyPnl s
      = (fs.foldl handleFill start).ownPnl s := ((attributed_run fs).mpr hf).last s
    _ = ((fs.filter fun f => f.strategyId = s).foldl handleFill start).ownPnl s := ownPnl_run hfs
    _ = ((gs.filter fun f => f.strategyId = s).foldl handleFill start).ownPnl s := by rw [hsame]
    _ = (gs.foldl handleFill start).ownPnl s := (ownPnl_run hgs).symm
    _ = (gs.foldl handleFill start).strategyPnl s := (((attributed_run gs).mpr hg).last s).symm

/-- A fill of strategy `s` in INFY, at the given offset; the scan shows nothing unrealized. -/
def infyFill (s direction : String) (quantity : ℤ) (price : ℚ) (offset : ℕ) : StrategyFill where
  event := ⟨"ORDER_FILLED", "o", s, "INFY", direction, quantity, some price, "orders.events", 0,
    offset⟩
  day := "2026-05-11"
  positions := []
  mark := fun _ => 50

/-- Strategy B has lost 100 on a round trip; strategy A buys one share at 50 and is charged with
the loss. -/
theorem other_loss_recorded :
    ¬ ∀ (fs gs : List StrategyFill) (s : String),
      (fs.filter fun f => f.strategyId = s) = (gs.filter fun f => f.strategyId = s) →
      (fs.foldl handleFill start).strategyPnl s = (gs.foldl handleFill start).strategyPnl s := by
  intro h
  have hsame := h
    [infyFill "B" "BUY" 10 100 0, infyFill "B" "SELL" 10 90 1, infyFill "A" "BUY" 1 50 2]
    [infyFill "A" "BUY" 1 50 2] "A" (by simp [infyFill, StrategyFill.strategyId])
  revert hsame
  decide +kernel

end StrategyMonitor

end QuantEmbrace
