import QuantEmbrace.ConcurrentRecord

/-! The risk engine's consumer of `orders.events`: what each delivery of a fill puts into the rows
of its symbol and its day, however the requests, the commits and the offsets turn out. -/
namespace QuantEmbrace
open GuardedRun AverageCost

/-- The fields of an order event that its handling reads. -/
structure OrderFillEvent where
  eventType : String
  orderId : String
  strategyId : String
  symbol : String
  direction : String
  quantityFilled : ℤ
  avgFillPrice : Option ℚ
  rawTopic : String
  rawPartition : ℕ
  rawOffset : ℕ
  deriving DecidableEq, Repr

namespace OrderFillEvent
variable (e : OrderFillEvent)

def isFill : Bool := e.eventType = "ORDER_FILLED" || e.eventType = "ORDER_PARTIAL"

def fillId : String :=
  e.rawTopic ++ ":" ++ toString e.rawPartition ++ ":" ++ toString e.rawOffset

/-- The arguments of `record_fill`; without a price or a quantity there is no call. -/
def recordArgs : Option FillEvent :=
  match e.avgFillPrice with
  | none => none
  | some price =>
    if e.quantityFilled = 0 then none
    else some ⟨e.orderId, e.symbol, e.direction, e.quantityFilled, price, e.fillId⟩

end OrderFillEvent

/-- One delivery of a message about the broker fill `fill`. Of the requests of its handling the
first `reach` are carried out: the marker, the row of the symbol, the row of the day, the NAV
item. A message is committed also when handling it raised. -/
structure FillDelivery (φ : Type*) where
  fill : φ
  event : OrderFillEvent
  day : String
  reach : ℕ
  committed : Bool
  deriving DecidableEq, Repr

/-- The tables; and as history the fills put into rows of symbols and added to rows of days, in
order, and the fills of which a message was committed. -/
structure FillLedger (φ : Type*) extends RiskTables where
  symbolLog : List (φ × RecordCall) := []
  dayLog : List (φ × String × ℚ) := []
  consumed : List φ := []

namespace FillLedger
variable {φ : Type*}

def start : FillLedger φ where
  reserved := []
  symbolRows := fun _ _ => {}
  realizedDay := fun _ => 0

variable (w : FillLedger φ)

def reserve (k : EventKey) : FillLedger φ := { w with reserved := k :: w.reserved }

def putRow (f : φ) (c : RecordCall) (row : SymbolPnlRow) : FillLedger φ :=
  { w with
    symbolRows := Function.update w.symbolRows c.day
      (Function.update (w.symbolRows c.day) c.fill.symbol row)
    symbolLog := w.symbolLog ++ [(f, c)] }

/-- `ADD realized_pnl :delta` -/
def addDay (f : φ) (day : String) (realizedDelta : ℚ) : FillLedger φ :=
  { w with
    realizedDay := Function.update w.realizedDay day (w.realizedDay day + realizedDelta)
    dayLog := w.dayLog ++ [(f, day, realizedDelta)] }

/-- What follows the marker. -/
def applyFill (d : FillDelivery φ) (c : RecordCall) : FillLedger φ :=
  match c.applyTo (w.symbolRows c.day c.fill.symbol) with
  | .error _ => w
  | .ok (row, realizedDelta) =>
    if d.reach < 2 then w
    else if d.reach < 3 then w.putRow d.fill c row
    else (w.putRow d.fill c row).addDay d.fill c.day realizedDelta

def recordFill (d : FillDelivery φ) (fill : FillEvent) : FillLedger φ :=
  if fill.quantity ≤ 0 ∨ fill.price ≤ 0 then w
  else if d.reach < 1 ∨ fill.eventKey ∈ w.reserved then w
  else (w.reserve fill.eventKey).applyFill d ⟨d.day, fill⟩

/-- `_handle_fill` swallows whatever `record_fill` raises. -/
def handleFill (d : FillDelivery φ) : FillLedger φ :=
  match d.event.recordArgs with
  | none => w
  | some fill => w.recordFill d fill

/-- One turn of `_orders_event_loop`. -/
def consume (d : FillDelivery φ) : FillLedger φ :=
  let w := if d.event.isFill then w.handleFill d else w
  if d.committed then { w with consumed := d.fill :: w.consumed } else w

variable [DecidableEq φ]

def symbolCount (f : φ) : ℕ := (w.symbolLog.map Prod.fst).count f

def dayCount (f : φ) : ℕ := (w.dayLog.map Prod.fst).count f

/-- No fill is in the rows of symbols or days twice, or in the one and not in the other; and a
fill that is consumed is in both. -/
def AccountedOnce : Prop :=
  ∀ f, w.symbolCount f = w.dayCount f ∧ w.dayCount f ≤ 1 ∧ (f ∈ w.consumed → w.dayCount f = 1)

end FillLedger

instance (e : FillEvent) : Decidable e.Valid :=
  decidable_of_iff ((e.direction.toUpper = "BUY" ∨ e.direction.toUpper = "SELL") ∧
    0 < e.quantity ∧ 0 < e.price)
    ⟨fun h => ⟨h.1, h.2.1, h.2.2⟩, fun h => ⟨h.direction, h.quantity, h.price⟩⟩

namespace FillDelivery
variable {φ : Type*} (d : FillDelivery φ)

/-- The delivery puts the row of its symbol: it is a fill with usable figures, under a key that
nothing has reserved, and the requests get that far. -/
def Posts (t : RiskTables) : Prop :=
  d.event.isFill = true ∧ 2 ≤ d.reach ∧
    ∃ fill ∈ d.event.recordArgs, fill.Valid ∧ fill.eventKey ∉ t.reserved

instance (t : RiskTables) : Decidable (d.Posts t) :=
  inferInstanceAs (Decidable (_ ∧ _ ∧ ∃ fill ∈ d.event.recordArgs, _))

/-- A delivery that puts the row of its symbol is the first of its fill to do so, and gets to the
row of the day; one that does not, when it is committed, is of a fill that is in the rows. -/
def AccountsOnce [DecidableEq φ] (w : FillLedger φ) : Prop :=
  if d.Posts w.toRiskTables then 3 ≤ d.reach ∧ d.fill ∉ w.symbolLog.map Prod.fst
  else d.committed = true → d.fill ∈ w.symbolLog.map Prod.fst

instance [DecidableEq φ] (w : FillLedger φ) : Decidable (d.AccountsOnce w) :=
  inferInstanceAs (Decidable (if d.Posts w.toRiskTables
    then 3 ≤ d.reach ∧ d.fill ∉ w.symbolLog.map Prod.fst
    else d.committed = true → d.fill ∈ w.symbolLog.map Prod.fst))

end FillDelivery

namespace FillLedger
variable {φ : Type*} {w : FillLedger φ} {d : FillDelivery φ}

/-- What a delivery does that puts the row of its symbol: one trade on that row, and the delta of
the trade added to the day if the requests get there. -/
theorem consume_posts (h : d.Posts w.toRiskTables) :
    ∃ fill ∈ d.event.recordArgs, ∃ row delta, fill.Valid ∧
      (w.consume d).symbolLog = w.symbolLog ++ [(d.fill, ⟨d.day, fill⟩)] ∧
      (w.consume d).dayLog = w.dayLog ++ (if d.reach < 3 then [] else [(d.fill, d.day, delta)]) ∧
      (w.consume d).consumed = (if d.committed then [d.fill] else []) ++ w.consumed ∧
      (w.consume d).symbolRows = Function.update w.symbolRows d.day
        (Function.update (w.symbolRows d.day) fill.symbol row) ∧
      (w.consume d).realizedDay = (if d.reach < 3 then w.realizedDay
        else Function.update w.realizedDay d.day (w.realizedDay d.day + delta)) ∧
      row.book = (w.symbolRows d.day fill.symbol).book.trade fill.signed fill.price ∧
      row.book.realized = (w.symbolRows d.day fill.symbol).book.realized + delta := by
  obtain ⟨hfill, hreach, fill, hargs, hv, hkey⟩ := h
  obtain ⟨row, delta, happly, hbook, hdelta⟩ :=
    applyFillRaising_valid (w.symbolRows d.day fill.symbol) hv
  refine ⟨fill, hargs, row, delta, hv, ?_⟩
  have hpos : ¬ (fill.quantity ≤ 0 ∨ fill.price ≤ 0) := by
    rw [not_or, not_le, not_le]
    exact ⟨hv.quantity, hv.price⟩
  have hmark : ¬ (d.reach < 1 ∨ fill.eventKey ∈ w.reserved) := by
    rw [not_or]
    exact ⟨by omega, hkey⟩
  have hcall : (⟨d.day, fill⟩ : RecordCall).applyTo (w.symbolRows d.day fill.symbol) =
      .ok (row, delta) := happly
  have hhandle : w.handleFill d =
      if d.reach < 3 then (w.reserve fill.eventKey).putRow d.fill ⟨d.day, fill⟩ row
      else
        ((w.reserve fill.eventKey).putRow d.fill ⟨d.day, fill⟩ row).addDay d.fill d.day delta := by
    rw [handleFill, Option.mem_def.mp hargs]
    dsimp only
    rw [FillLedger.recordFill, if_neg hpos, if_neg hmark, applyFill]
    simp only [reserve, hcall, if_neg (not_lt.mpr hreach)]
  refine ⟨?_, ?_, ?_, ?_, ?_, hbook, hdelta⟩ <;>
    by_cases h3 : d.reach < 3 <;> by_cases hc : d.committed = true <;>
      simp [consume, hfill, hhandle, h3, hc, putRow, addDay, reserve]

theorem applyFill_of_not_posts {fill : FillEvent} (hn : ¬ (2 ≤ d.reach ∧ fill.Valid))
    (hpos : 0 < fill.quantity ∧ 0 < fill.price) : w.applyFill d ⟨d.day, fill⟩ = w := by
  unfold applyFill
  by_cases hd : fill.direction.toUpper = "BUY" ∨ fill.direction.toUpper = "SELL"
  · have hreach : d.reach < 2 := by
      by_contra hr
      exact hn ⟨not_lt.mp hr, hd, hpos.1, hpos.2⟩
    split
    · rfl
    · rw [if_pos hreach]
  · obtain ⟨hb, hs⟩ := not_or.mp hd
    have herr : (⟨d.day, fill⟩ : RecordCall).applyTo (w.symbolRows d.day fill.symbol) =
        .error (.unsupportedDirection fill.direction.toUpper) := by
      have hdiv : averageDivisor (w.symbolRows d.day fill.symbol).book.quantity
          fill.direction.toUpper fill.quantity ≠ some 0 :=
        averageDivisor_ne_zero _ _ hpos.1
      simp [RecordCall.applyTo, applyFillRaising, hdiv, applyFillToDailySymbolPnl, hb, hs]
    rw [herr]

/-- Any other delivery leaves rows and logs as they are. -/
theorem consume_not_posts (h : ¬ d.Posts w.toRiskTables) :
    (w.consume d).symbolLog = w.symbolLog ∧ (w.consume d).dayLog = w.dayLog ∧
      (w.consume d).consumed = (if d.committed then [d.fill] else []) ++ w.consumed ∧
      (w.consume d).symbolRows = w.symbolRows ∧ (w.consume d).realizedDay = w.realizedDay := by
  have hkeep : ∃ ks, (if d.event.isFill then w.handleFill d else w) =
      { w with reserved := ks } := by
    by_cases hf : d.event.isFill = true
    · rw [if_pos hf, handleFill]
      rcases hargs : d.event.recordArgs with _ | fill
      · exact ⟨w.reserved, rfl⟩
      · dsimp only
        unfold FillLedger.recordFill
        split_ifs with hpos hmark
        · exact ⟨w.reserved, rfl⟩
        · exact ⟨w.reserved, rfl⟩
        · rw [not_or, not_le, not_le] at hpos
          rw [not_or] at hmark
          have hn : ¬ (2 ≤ d.reach ∧ fill.Valid) := fun ⟨hr, hv⟩ =>
            h ⟨hf, hr, fill, hargs, hv, hmark.2⟩
          rw [applyFill_of_not_posts hn hpos]
          exact ⟨fill.eventKey :: w.reserved, rfl⟩
    · rw [if_neg hf]
      exact ⟨w.reserved, rfl⟩
  obtain ⟨ks, hks⟩ := hkeep
  by_cases hc : d.committed = true <;> simp [consume, hks, hc]

theorem applyFill_reserved (w : FillLedger φ) (d : FillDelivery φ) (c : RecordCall) :
    (w.applyFill d c).reserved = w.reserved := by
  unfold applyFill
  split
  · rfl
  · split_ifs <;> rfl

/-- The delivery comes to the point of reserving its key, as far as its own figures go. -/
def Reserves (d : FillDelivery φ) (fill : FillEvent) : Prop :=
  d.event.isFill = true ∧ 1 ≤ d.reach ∧ 0 < fill.quantity ∧ 0 < fill.price

instance (d : FillDelivery φ) (fill : FillEvent) : Decidable (Reserves d fill) :=
  inferInstanceAs (Decidable (_ ∧ _ ∧ _ ∧ _))

theorem mem_reserved_consume (k : EventKey) : k ∈ (w.consume d).reserved ↔
    k ∈ w.reserved ∨ ∃ fill ∈ d.event.recordArgs, Reserves d fill ∧ fill.eventKey = k := by
  have hcons : (w.consume d).reserved =
      (if d.event.isFill then w.handleFill d else w).reserved := by
    by_cases hc : d.committed = true <;> simp [consume, hc]
  rw [hcons]
  by_cases hf : d.event.isFill = true
  · rw [if_pos hf, handleFill]
    rcases hargs : d.event.recordArgs with _ | fill
    · simp
    · dsimp only
      unfold FillLedger.recordFill
      split_ifs with hpos hmark
      · have hn : ¬ Reserves d fill := fun hr => by
          obtain hq | hp := hpos
          · exact absurd hr.2.2.1 (not_lt.mpr hq)
          · exact absurd hr.2.2.2 (not_lt.mpr hp)
        simp [hn]
      · constructor
        · exact .inl
        · rintro (h | ⟨fill', heq, hr, rfl⟩)
          · exact h
          · obtain rfl := Option.some.inj heq
            obtain hreach | hkey := hmark
            · exact absurd hr.2.1 (by omega)
            · exact hkey
      · rw [not_or, not_le, not_le] at hpos
        have hr : Reserves d fill := ⟨hf, by omega, hpos.1, hpos.2⟩
        rw [applyFill_reserved]
        simp only [reserve, List.mem_cons]
        constructor
        · rintro (rfl | h)
          · exact .inr ⟨fill, rfl, hr, rfl⟩
          · exact .inl h
        · rintro (h | ⟨fill', heq, -, rfl⟩)
          · exact .inr h
          · obtain rfl := Option.some.inj heq
            exact .inl rfl
  · rw [if_neg hf]
    constructor
    · exact .inl
    · rintro (h | ⟨fill, -, hr, -⟩)
      · exact h
      · exact absurd hr.1 hf

theorem mem_consumed (f : φ) :
    f ∈ (w.consume d).consumed ↔ (d.committed = true ∧ f = d.fill) ∨ f ∈ w.consumed := by
  have hc : (w.consume d).consumed = (if d.committed then [d.fill] else []) ++ w.consumed := by
    by_cases h : d.Posts w.toRiskTables
    · obtain ⟨_, -, _, _, -, -, -, hc, -⟩ := consume_posts h
      exact hc
    · exact (consume_not_posts h).2.2.1
  rw [hc, List.mem_append]
  by_cases h : d.committed = true <;> simp [h]

section Counts
variable [DecidableEq φ]

/-- How a delivery that puts the row of its symbol changes the counts of a fill. -/
theorem counts_posts (h : d.Posts w.toRiskTables) (f : φ) :
    (w.consume d).symbolCount f = w.symbolCount f + (if d.fill = f then 1 else 0) ∧
      (w.consume d).dayCount f = w.dayCount f + (if 3 ≤ d.reach ∧ d.fill = f then 1 else 0) := by
  obtain ⟨fill, -, row, delta, -, hs, hd, -⟩ := consume_posts h
  have hday : d.reach < 3 ↔ ¬ 3 ≤ d.reach := not_le.symm
  by_cases h3 : 3 ≤ d.reach <;> by_cases hf : d.fill = f <;>
    simp [symbolCount, dayCount, hs, hd, hday, h3, hf]

theorem counts_not_posts (h : ¬ d.Posts w.toRiskTables) (f : φ) :
    (w.consume d).symbolCount f = w.symbolCount f ∧ (w.consume d).dayCount f = w.dayCount f := by
  obtain ⟨hs, hd, -⟩ := consume_not_posts h
  rw [symbolCount, dayCount, hs, hd]
  exact ⟨rfl, rfl⟩

theorem mem_symbolLog (f : φ) : f ∈ w.symbolLog.map Prod.fst ↔ 0 < w.symbolCount f :=
  List.count_pos_iff.symm

/-- A delivery keeps every fill accounted once exactly when it accounts once. -/
theorem accountedOnce_consume (h : w.AccountedOnce) :
    (w.consume d).AccountedOnce ↔ d.AccountsOnce w := by
  have hfill := h d.fill
  by_cases hp : d.Posts w.toRiskTables
  · rw [FillDelivery.AccountsOnce, if_pos hp, mem_symbolLog]
    constructor
    · intro h'
      obtain ⟨hcount, hle, -⟩ := h' d.fill
      obtain ⟨hs, hd⟩ := counts_posts hp d.fill
      by_cases h3 : 3 ≤ d.reach
      · rw [if_pos ⟨h3, rfl⟩] at hd
        exact ⟨h3, by omega⟩
      · rw [if_pos rfl] at hs
        rw [if_neg (fun hc => h3 hc.1)] at hd
        omega
    · intro ⟨h3, hnew⟩ f
      obtain ⟨hs, hd⟩ := counts_posts hp f
      rw [hs, hd, mem_consumed]
      by_cases hf : d.fill = f
      · subst hf
        rw [if_pos rfl, if_pos ⟨h3, rfl⟩]
        omega
      · rw [if_neg hf, if_neg (fun hc => hf hc.2)]
        obtain ⟨hcount, hle, hcons⟩ := h f
        refine ⟨by omega, by omega, ?_⟩
        rintro (⟨-, rfl⟩ | hmem)
        · exact absurd rfl hf
        · exact hcons hmem
  · rw [FillDelivery.AccountsOnce, if_neg hp, mem_symbolLog]
    constructor
    · intro h' hc
      obtain ⟨hs, hd⟩ := counts_not_posts hp d.fill
      obtain ⟨hcount, -, hcons⟩ := h' d.fill
      have hone := hcons ((mem_consumed d.fill).mpr (.inl ⟨hc, rfl⟩))
      omega
    · intro hc f
      obtain ⟨hs, hd⟩ := counts_not_posts hp f
      rw [hs, hd, mem_consumed]
      obtain ⟨hcount, hle, hcons⟩ := h f
      refine ⟨hcount, hle, ?_⟩
      rintro (⟨hcommitted, rfl⟩ | hmem)
      · have := hc hcommitted
        omega
      · exact hcons hmem

end Counts

/-- The rows hold what the logs say: the trades of a symbol in their order, the deltas of a day. -/
structure Logged (w : FillLedger φ) : Prop where
  symbol : ∀ day symbol, (w.symbolRows day symbol).book =
    (w.symbolLog.filter fun e => e.2.day = day ∧ e.2.fill.symbol = symbol).foldl
      (fun b e => b.trade e.2.fill.signed e.2.fill.price) .flat
  day : ∀ day, w.realizedDay day =
    ((w.dayLog.filter fun e => e.2.1 = day).map fun e => e.2.2).sum

theorem Logged.consume (h : w.Logged) (d : FillDelivery φ) : (w.consume d).Logged := by
  by_cases hp : d.Posts w.toRiskTables
  · obtain ⟨fill, -, row, delta, -, hs, hd, -, hrows, hday, hbook, -⟩ := consume_posts hp
    constructor
    · intro day symbol
      rw [hs, hrows, List.filter_append, List.foldl_append, ← h.symbol day symbol]
      by_cases hday : d.day = day
      · subst hday
        rw [Function.update_self]
        by_cases hsym : fill.symbol = symbol
        · subst hsym
          simp [hbook]
        · simp [Function.update_of_ne (Ne.symm hsym), hsym]
      · simp [Function.update_of_ne (Ne.symm hday), hday]
    · intro day
      rw [hd, hday, List.filter_append, List.map_append, List.sum_append, ← h.day day]
      by_cases h3 : d.reach < 3
      · simp [h3]
      · by_cases hday : d.day = day
        · subst hday
          simp [h3]
        · simp [h3, Function.update_of_ne (Ne.symm hday), hday]
  · obtain ⟨hs, hd, -, hrows, hday⟩ := consume_not_posts hp
    exact ⟨by rw [hs, hrows]; exact h.symbol, by rw [hd, hday]; exact h.day⟩

theorem logged_run (ds : List (FillDelivery φ)) :
    AlongRun consume Logged (start : FillLedger φ) ds :=
  AlongRun.of_keep (fun _ d h => h.consume d) ⟨fun _ _ => rfl, fun _ => rfl⟩ ds

end FillLedger

open FillLedger

/-- Along a run no fill is ever counted twice, in one row only, or consumed without being counted,
exactly when every delivery accounts once. -/
theorem fills_accounted_once {φ : Type*} [DecidableEq φ] (ds : List (FillDelivery φ)) :
    AlongRun consume (fun w => w.AccountedOnce) (start : FillLedger φ) ds ↔
      StepsMeet consume (fun w d => d.AccountsOnce w) (start : FillLedger φ) ds := by
  have hstart : (start : FillLedger φ).AccountedOnce :=
    fun _ => ⟨rfl, Nat.zero_le 1, fun h => absurd h List.not_mem_nil⟩
  have hexact : ∀ (w : FillLedger φ) (d : FillDelivery φ), True → True → w.AccountedOnce →
      ((w.consume d).AccountedOnce ↔ d.AccountsOnce w) :=
    fun _ _ _ _ h => accountedOnce_consume h
  exact alongRun_iff (P := fun w : FillLedger φ => w.AccountedOnce) (I := fun _ => True)
    (fun _ _ _ _ => trivial) hexact ds (fun _ _ => trivial) start trivial hstart

/-- A fill of 10 at 100, at an offset of `orders.events`. -/
def boughtTen (offset reach : ℕ) (committed : Bool) : FillDelivery ℕ where
  fill := 0
  event := ⟨"ORDER_FILLED", "o1", "s1", "INFY", "BUY", 10, some 100, "orders.events", 0, offset⟩
  day := "2026-05-11"
  reach := reach
  committed := committed

/-- The row of the symbol cannot be written; the exception is swallowed and the offset
committed. -/
theorem swallowed_failure_loses_fill :
    ¬ ∀ ds : List (FillDelivery ℕ), (∀ d ∈ ds, d.fill ∈ (ds.foldl consume start).consumed) →
      ∀ d ∈ ds, (ds.foldl consume start).symbolCount d.fill = 1 ∧
        (ds.foldl consume start).dayCount d.fill = 1 := by
  intro h
  exact absurd (h [boughtTen 7 1 true]) (by decide +kernel)

end QuantEmbrace
