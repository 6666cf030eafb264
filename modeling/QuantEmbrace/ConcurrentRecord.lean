import QuantEmbrace.RecordFill
import QuantEmbrace.Lib.GuardedRun
import QuantEmbrace.Lib.InFlight
import QuantEmbrace.Lib.Role

/-! Concurrent `record_fill` calls of one process, each step one request: the rows of the
symbols are read and put under the lock of the symbol, the rows of the days are added to. -/
namespace QuantEmbrace
open GuardedRun InFlight
variable {ι : Type*}

/-- A call with the trading day it has read off the clock. -/
structure RecordCall where
  day : String
  fill : FillEvent

/-- `_apply_fill_to_daily_symbol_pnl` for one call, given the row. -/
def RecordCall.applyTo (c : RecordCall) (row : SymbolPnlRow) :
    Except RecordError (SymbolPnlRow × ℚ) :=
  applyFillRaising row c.fill.direction.toUpper c.fill.quantity c.fill.price

/-- The rows of all days. -/
structure RiskTables where
  reserved : List EventKey
  symbolRows : String → String → SymbolPnlRow
  realizedDay : String → ℚ

/- What follows the ADD to the row of the day touches neither row. -/
inductive RecordStage where
  | idle
  | reserved
  | locked
  | read (item : SymbolPnlRow)
  | applied (realizedDelta : ℚ)
  | done
  | duplicate
  | failed
  deriving DecidableEq, Repr

inductive RecordStep where
  | reserve
  | duplicate
  | acquire
  | read
  | put
  | add
  | raise
  deriving DecidableEq, Repr

/-- The tables, the locks of the symbols, the calls, and the calls whose row was put, in
this order. -/
structure RecordWorld (ι : Type*) extends RiskTables where
  lock : String → Option ι
  stage : ι → RecordStage
  order : List ι

namespace RecordWorld

def start (t : RiskTables) : RecordWorld ι := ⟨t, fun _ => none, fun _ => .idle, []⟩

variable [DecidableEq ι]

def setStage (w : RecordWorld ι) (i : ι) (s : RecordStage) : RecordWorld ι :=
  { w with stage := Function.update w.stage i s }

/-- `async with` ends. -/
def release (w : RecordWorld ι) (symbol : String) : RecordWorld ι :=
  { w with lock := Function.update w.lock symbol none }

def putRow (w : RecordWorld ι) (i : ι) (c : RecordCall) (row : SymbolPnlRow) : RecordWorld ι :=
  { w with
      symbolRows := Function.update w.symbolRows c.day
        (Function.update (w.symbolRows c.day) c.fill.symbol row)
      order := w.order ++ [i] }

/-- `ADD realized_pnl :delta` -/
def addDay (w : RecordWorld ι) (day : String) (realizedDelta : ℚ) : RecordWorld ι :=
  { w with realizedDay := Function.update w.realizedDay day (w.realizedDay day + realizedDelta) }

/- A request that raises may have been carried out all the same: what the tables hold after
   it is left open. -/
inductive Step (calls : ι → RecordCall) : RecordWorld ι → ι × RecordStep → RecordWorld ι → Prop
  | reserve {w : RecordWorld ι} {i : ι} : w.stage i = .idle →
      ¬ ((calls i).fill.quantity ≤ 0 ∨ (calls i).fill.price ≤ 0) →
      (calls i).fill.eventKey ∉ w.reserved →
      Step calls w (i, .reserve)
        ({ w with reserved := (calls i).fill.eventKey :: w.reserved }.setStage i .reserved)
  | duplicate {w : RecordWorld ι} {i : ι} : w.stage i = .idle →
      ¬ ((calls i).fill.quantity ≤ 0 ∨ (calls i).fill.price ≤ 0) →
      (calls i).fill.eventKey ∈ w.reserved → Step calls w (i, .duplicate) (w.setStage i .duplicate)
  | acquire {w : RecordWorld ι} {i : ι} : w.stage i = .reserved →
      w.lock (calls i).fill.symbol = none →
      Step calls w (i, .acquire)
        ({ w with lock := Function.update w.lock (calls i).fill.symbol (some i) }.setStage i
          .locked)
  | read {w : RecordWorld ι} {i : ι} : w.stage i = .locked →
      Step calls w (i, .read)
        (w.setStage i (.read (w.symbolRows (calls i).day (calls i).fill.symbol)))
  | put {w : RecordWorld ι} {i : ι} {item row : SymbolPnlRow} {realizedDelta : ℚ} :
      w.stage i = .read item →
      (calls i).applyTo item = .ok (row, realizedDelta) →
      Step calls w (i, .put)
        (((w.putRow i (calls i) row).release (calls i).fill.symbol).setStage i
          (.applied realizedDelta))
  | add {w : RecordWorld ι} {i : ι} {realizedDelta : ℚ} : w.stage i = .applied realizedDelta →
      Step calls w (i, .add) ((w.addDay (calls i).day realizedDelta).setStage i .done)
  | raise {w : RecordWorld ι} {i : ι} {t : RiskTables} :
      w.stage i ≠ .done → w.stage i ≠ .duplicate →
      Step calls w (i, .raise)
        ((if w.lock (calls i).fill.symbol = some i
          then { w with toRiskTables := t }.release (calls i).fill.symbol
          else { w with toRiskTables := t }).setStage i .failed)

omit [DecidableEq ι]

/-- The call has returned, unless it was never made. -/
def Completed (w : RecordWorld ι) (i : ι) : Prop := w.stage i = .done ∨ w.stage i = .duplicate

def AllCompleted (w : RecordWorld ι) : Prop := ∀ i, w.stage i = .idle ∨ w.Completed i

end RecordWorld

/-- The row of a symbol after the calls of the list that move it, one after the other. -/
def serialRow (calls : ι → RecordCall) (row : SymbolPnlRow) (day symbol : String)
    (order : List ι) : Except RecordError SymbolPnlRow :=
  (order.filter fun i => (calls i).day = day ∧ (calls i).fill.symbol = symbol).foldlM
    (fun row i => Prod.fst <$> (calls i).applyTo row) row

/-- The row of each day holds what the rows of its symbols have realized together. -/
def RiskTables.Balanced (t : RiskTables) : Prop :=
  ∀ day, Total (fun symbol => (t.symbolRows day symbol).book.realized) (t.realizedDay day)

/-- Whatever the side and the figures, the row realizes the delta that is returned. -/
theorem applyFillRaising_realized {row row' : SymbolPnlRow} {direction : String}
    {quantity price realizedDelta : ℚ}
    (h : applyFillRaising row direction quantity price = .ok (row', realizedDelta)) :
    row'.book.realized = row.book.realized + realizedDelta := by
  unfold applyFillRaising at h
  split at h
  · cases h
  · unfold applyFillToDailySymbolPnl at h
    by_cases hb : direction = "BUY"
    · simp only [if_pos hb, Except.ok.injEq, Prod.mk.injEq] at h
      obtain ⟨rfl, rfl⟩ := h
      rfl
    · by_cases hs : direction = "SELL"
      · simp only [if_neg hb, if_pos hs, Except.ok.injEq, Prod.mk.injEq] at h
        obtain ⟨rfl, rfl⟩ := h
        rfl
      · simp only [if_neg hb, if_neg hs] at h
        cases h

theorem serialRow_append (calls : ι → RecordCall) (row : SymbolPnlRow) (day symbol : String)
    (order : List ι) (i : ι) :
    serialRow calls row day symbol (order ++ [i]) =
      (serialRow calls row day symbol order).bind fun row =>
        if (calls i).day = day ∧ (calls i).fill.symbol = symbol
        then Prod.fst <$> (calls i).applyTo row else .ok row := by
  unfold serialRow
  rw [List.filter_append, List.foldlM_append]
  by_cases h : (calls i).day = day ∧ (calls i).fill.symbol = symbol
  · simp only [List.filter_cons, h, and_self, decide_true, if_true, List.filter_nil]
    simp only [List.foldlM_cons, List.foldlM_nil, bind_pure]
    rfl
  · simp only [List.filter_cons, h, decide_false, if_false, List.filter_nil]
    rfl

namespace RecordStage

/-- The call holds the lock of its symbol. -/
def Inside : RecordStage → Prop
  | .locked | .read _ => True
  | _ => False

/-- The row of the symbol was put. -/
def Counted : RecordStage → Prop
  | .applied _ | .done => True
  | _ => False

/-- The event key was reserved by this call. -/
def Reserving : RecordStage → Prop
  | .reserved | .locked | .read _ | .applied _ | .done => True
  | _ => False

/-- What the row of the symbol holds and the row of the day lacks. -/
def inTransit (on : Prop) [Decidable on] : RecordStage → Option ℚ
  | .applied realizedDelta => if on then some realizedDelta else none
  | _ => none

end RecordStage

section Invariant
variable (calls : ι → RecordCall) (t : RiskTables)

/-- The reserved keys are those of the calls that went past the reservation. -/
structure Keyed (reserved : List EventKey) (stage : ι → RecordStage) : Prop where
  mem : ∀ k, k ∈ reserved ↔
    k ∈ t.reserved ∨ ∃ i, (stage i).Reserving ∧ (calls i).fill.eventKey = k
  fresh : ∀ i, (stage i).Reserving → (calls i).fill.eventKey ∉ t.reserved
  distinct : ∀ i j, (stage i).Reserving → (stage j).Reserving →
    (calls i).fill.eventKey = (calls j).fill.eventKey → i = j
  duplicate : ∀ i, stage i = .duplicate → (calls i).fill.eventKey ∈ reserved

/-- Each row is what the calls in `order` make of it, and a row read is current until put. -/
structure Serial (symbolRows : String → String → SymbolPnlRow) (lock : String → Option ι)
    (stage : ι → RecordStage) (order : List ι) : Prop where
  rows : ∀ day symbol, serialRow calls (t.symbolRows day symbol) day symbol order =
    .ok (symbolRows day symbol)
  item : ∀ i item, stage i = .read item →
    symbolRows (calls i).day (calls i).fill.symbol = item
  lock : ∀ i, (stage i).Inside → lock (calls i).fill.symbol = some i
  nodup : order.Nodup
  mem : ∀ i, i ∈ order ↔ (stage i).Counted

def transit (stage : ι → RecordStage) (day : String) (i : ι) : Option ℚ :=
  (stage i).inTransit ((calls i).day = day)

/-- The row of the day lags behind by what the calls carry to it. -/
def DayBooked (symbolRows : String → String → SymbolPnlRow) (realizedDay : String → ℚ)
    (stage : ι → RecordStage) : Prop :=
  ∀ day, ∃ total, Total (fun symbol => (symbolRows day symbol).book.realized) total ∧
    Carried (transit calls stage day) (total - realizedDay day)

structure RecordWorld.Sound (w : RecordWorld ι) : Prop where
  keyed : Keyed calls t w.reserved w.stage
  serial : Serial calls t w.symbolRows w.lock w.stage w.order
  booked : DayBooked calls w.symbolRows w.realizedDay w.stage

end Invariant

section Steps
variable {calls : ι → RecordCall} {t : RiskTables} {reserved : List EventKey}
  {symbolRows : String → String → SymbolPnlRow} {realizedDay : String → ℚ}
  {lock : String → Option ι} {stage : ι → RecordStage} {order : List ι} {i : ι} {s : RecordStage}

theorem RecordWorld.sound_start (ht : t.Balanced) :
    (RecordWorld.start t : RecordWorld ι).Sound calls t where
  keyed :=
    { mem := fun k => ⟨Or.inl, fun h => h.elim id fun ⟨_, hi, _⟩ => hi.elim⟩
      fresh := fun _ hi => hi.elim
      distinct := fun _ _ hi => hi.elim
      duplicate := fun _ hi => nomatch hi }
  serial :=
    { rows := fun _ _ => rfl
      item := fun _ _ hi => nomatch hi
      lock := fun _ hi => hi.elim
      nodup := List.nodup_nil
      mem := fun i => ⟨fun h => absurd h List.not_mem_nil, fun h => h.elim⟩ }
  booked day := by
    refine ⟨_, ht day, ?_⟩
    rw [RecordWorld.start, sub_self]
    exact carried_of_none fun _ => rfl

variable [DecidableEq ι]

theorem Keyed.setStage (h : Keyed calls t reserved stage)
    (hr : s.Reserving ↔ (stage i).Reserving)
    (hd : s = .duplicate → (calls i).fill.eventKey ∈ reserved) :
    Keyed calls t reserved (Function.update stage i s) := by
  have hall : ∀ j, (Function.update stage i s j).Reserving ↔ (stage j).Reserving := by
    intro j
    by_cases hj : j = i
    · rw [hj, Function.update_self, hr]
    · rw [Function.update_of_ne hj]
  refine ⟨fun k => ?_, fun j hj => h.fresh j ((hall j).mp hj),
    fun j k hj hk => h.distinct j k ((hall j).mp hj) ((hall k).mp hk), fun j hj => ?_⟩
  · simp only [hall]
    exact h.mem k
  · by_cases hji : j = i
    · rw [hji, Function.update_self] at hj
      rw [hji]
      exact hd hj
    · rw [Function.update_of_ne hji] at hj
      exact h.duplicate j hj

theorem Keyed.reserve (h : Keyed calls t reserved stage) (hi : stage i = .idle)
    (hk : (calls i).fill.eventKey ∉ reserved) :
    Keyed calls t ((calls i).fill.eventKey :: reserved) (Function.update stage i .reserved) := by
  have hkeys : ∀ j, (stage j).Reserving → (calls j).fill.eventKey ≠ (calls i).fill.eventKey :=
    fun j hj he => hk ((h.mem _).mpr (Or.inr ⟨j, hj, he⟩))
  have hall : ∀ j, (Function.update stage i .reserved j).Reserving ↔
      j = i ∨ (stage j).Reserving := by
    intro j
    by_cases hj : j = i
    · simp [hj, RecordStage.Reserving]
    · rw [Function.update_of_ne hj]
      exact ⟨Or.inr, fun h => h.resolve_left hj⟩
  refine ⟨fun k => ?_, fun j hj => ?_, fun j l hj hl he => ?_, fun j hj => ?_⟩
  · rw [List.mem_cons, h.mem k]
    constructor
    · rintro (rfl | hk | ⟨j, hj, he⟩)
      · exact Or.inr ⟨i, (hall i).mpr (Or.inl rfl), rfl⟩
      · exact Or.inl hk
      · exact Or.inr ⟨j, (hall j).mpr (Or.inr hj), he⟩
    · rintro (hk | ⟨j, hj, rfl⟩)
      · exact Or.inr (Or.inl hk)
      · obtain rfl | hj := (hall j).mp hj
        · exact Or.inl rfl
        · exact Or.inr (Or.inr ⟨j, hj, rfl⟩)
  · obtain rfl | hj := (hall j).mp hj
    · exact fun hin => hk ((h.mem _).mpr (Or.inl hin))
    · exact h.fresh j hj
  · obtain rfl | hj := (hall j).mp hj <;> obtain rfl | hl := (hall l).mp hl
    · rfl
    · exact absurd he.symm (hkeys l ‹_›)
    · exact absurd he (hkeys j ‹_›)
    · exact h.distinct j l ‹_› ‹_› he
  · obtain ⟨_, hj⟩ := Role.of_update_eq hj nofun
    exact List.mem_cons_of_mem _ (h.duplicate j hj)

theorem Serial.setStage (h : Serial calls t symbolRows lock stage order)
    (hread : ∀ item, s = .read item → symbolRows (calls i).day (calls i).fill.symbol = item)
    (hin : s.Inside → lock (calls i).fill.symbol = some i)
    (hc : s.Counted ↔ (stage i).Counted) :
    Serial calls t symbolRows lock (Function.update stage i s) order := by
  refine ⟨h.rows, fun j item hj => ?_, fun j hj => ?_, h.nodup, fun j => ?_⟩
  all_goals
    by_cases hji : j = i
  · subst hji
    exact hread item (by rwa [Function.update_self] at hj)
  · exact h.item j item (by rwa [Function.update_of_ne hji] at hj)
  · subst hji
    exact hin (by rwa [Function.update_self] at hj)
  · exact h.lock j (by rwa [Function.update_of_ne hji] at hj)
  · rw [hji, Function.update_self, hc]
    exact h.mem i
  · rw [Function.update_of_ne hji]
    exact h.mem j

/-- Whoever is inside holds a lock, so a free lock can be handed out. -/
theorem Serial.acquire (h : Serial calls t symbolRows lock stage order)
    (hi : stage i = .reserved) (hfree : lock (calls i).fill.symbol = none) :
    Serial calls t symbolRows (Function.update lock (calls i).fill.symbol (some i))
      (Function.update stage i .locked) order := by
  have hlock : Serial calls t symbolRows (Function.update lock (calls i).fill.symbol (some i))
      stage order := by
    refine ⟨h.rows, h.item, fun j hj => ?_, h.nodup, h.mem⟩
    have hne : (calls j).fill.symbol ≠ (calls i).fill.symbol := by
      intro he
      have := h.lock j hj
      rw [he, hfree] at this
      exact nomatch this
    rw [Function.update_of_ne hne]
    exact h.lock j hj
  refine hlock.setStage nofun (fun _ => Function.update_self _ _ _) ?_
  rw [hi]
  exact Iff.rfl

/-- The row a call puts follows the row it read, which nobody has put since. -/
theorem Serial.put (h : Serial calls t symbolRows lock stage order) {item row : SymbolPnlRow}
    {realizedDelta : ℚ} (hi : stage i = .read item)
    (happly : (calls i).applyTo item = .ok (row, realizedDelta)) :
    Serial calls t
      (Function.update symbolRows (calls i).day
        (Function.update (symbolRows (calls i).day) (calls i).fill.symbol row))
      (Function.update lock (calls i).fill.symbol none)
      (Function.update stage i (.applied realizedDelta)) (order ++ [i]) := by
  have hin : (stage i).Inside := by
    rw [hi]
    trivial
  have hnot : i ∉ order := by
    rw [h.mem, hi]
    exact id
  have hothers : ∀ j, j ≠ i → (stage j).Inside →
      (calls j).fill.symbol ≠ (calls i).fill.symbol := by
    intro j hji hj he
    have hj := h.lock j hj
    rw [he, h.lock i hin] at hj
    exact hji (Option.some.inj hj).symm
  have hrow : ∀ day symbol, Function.update symbolRows (calls i).day
      (Function.update (symbolRows (calls i).day) (calls i).fill.symbol row) day symbol =
      if (calls i).day = day ∧ (calls i).fill.symbol = symbol then row
      else symbolRows day symbol := by
    intro day symbol
    by_cases hd : day = (calls i).day
    · subst hd
      rw [Function.update_self, Function.update_apply]
      simp only [true_and, eq_comm]
    · rw [Function.update_of_ne hd, if_neg fun h => hd h.1.symm]
  refine ⟨fun day symbol => ?_, fun j old hj => ?_, fun j hj => ?_, ?_, fun j => ?_⟩
  · rw [serialRow_append, h.rows, hrow]
    change (if _ then _ else _) = _
    split_ifs with hm
    · obtain ⟨rfl, rfl⟩ := hm
      rw [h.item i item hi, happly]
      rfl
    · rfl
  · obtain ⟨hji, hj⟩ := Role.of_update_eq hj nofun
    have hne := hothers j hji (by rw [hj]; trivial)
    rw [hrow, if_neg fun h => hne h.2.symm]
    exact h.item j old hj
  · obtain ⟨hji, hj⟩ := Role.of_update (Q := RecordStage.Inside) hj id
    rw [Function.update_of_ne (hothers j hji hj)]
    exact h.lock j hj
  · exact h.nodup.append (List.nodup_singleton i) (by simpa using hnot)
  · rw [List.mem_append, List.mem_singleton]
    by_cases hji : j = i
    · rw [hji, Function.update_self]
      exact ⟨fun _ => trivial, fun _ => Or.inr rfl⟩
    · rw [Function.update_of_ne hji, ← h.mem j]
      exact ⟨fun h => h.resolve_right hji, Or.inl⟩

theorem transit_setStage (day : String) :
    transit calls (Function.update stage i s) day =
      Function.update (transit calls stage day) i (s.inTransit ((calls i).day = day)) := by
  funext j
  by_cases hj : j = i
  · subst hj
    simp [transit]
  · simp [transit, hj]

/-- A call that carries nothing before and after. -/
theorem DayBooked.setStage (h : DayBooked calls symbolRows realizedDay stage)
    (hi : ∀ day, (stage i).inTransit ((calls i).day = day) = none)
    (hs : ∀ day, s.inTransit ((calls i).day = day) = none) :
    DayBooked calls symbolRows realizedDay (Function.update stage i s) := by
  intro day
  obtain ⟨total, htotal, hc⟩ := h day
  refine ⟨total, htotal, ?_⟩
  rw [transit_setStage, hs]
  exact hc.rest (hi day)

/-- A put leaves the delta of the row with the call. -/
theorem DayBooked.put (h : DayBooked calls symbolRows realizedDay stage) {item row : SymbolPnlRow}
    {realizedDelta : ℚ} (hi : stage i = .read item)
    (hitem : symbolRows (calls i).day (calls i).fill.symbol = item)
    (happly : (calls i).applyTo item = .ok (row, realizedDelta)) :
    DayBooked calls
      (Function.update symbolRows (calls i).day
        (Function.update (symbolRows (calls i).day) (calls i).fill.symbol row))
      realizedDay (Function.update stage i (.applied realizedDelta)) := by
  have hnone : ∀ day, transit calls stage day i = none := fun day => by rw [transit, hi]; rfl
  intro day
  obtain ⟨total, htotal, hc⟩ := h day
  rw [transit_setStage]
  by_cases hd : (calls i).day = day
  · subst hd
    refine ⟨total + realizedDelta, ?_, ?_⟩
    · have hup := htotal.update (calls i).fill.symbol row.book.realized
      rw [hitem, applyFillRaising_realized happly, add_sub_cancel_left] at hup
      rw [Function.update_self]
      convert hup using 1
      funext symbol
      by_cases hs : symbol = (calls i).fill.symbol
      · rw [hs, Function.update_self, Function.update_self, applyFillRaising_realized happly]
      · rw [Function.update_of_ne hs, Function.update_of_ne hs]
    · rw [RecordStage.inTransit, if_pos rfl, add_sub_right_comm]
      exact hc.pick (hnone _)
  · rw [RecordStage.inTransit, if_neg hd, Function.update_of_ne (Ne.symm hd)]
    exact ⟨total, htotal, hc.rest (hnone day)⟩

/-- The ADD puts down what the call carried. -/
theorem DayBooked.add (h : DayBooked calls symbolRows realizedDay stage) {realizedDelta : ℚ}
    (hi : stage i = .applied realizedDelta) :
    DayBooked calls symbolRows
      (Function.update realizedDay (calls i).day (realizedDay (calls i).day + realizedDelta))
      (Function.update stage i .done) := by
  intro day
  obtain ⟨total, htotal, hc⟩ := h day
  refine ⟨total, htotal, ?_⟩
  rw [transit_setStage]
  by_cases hd : (calls i).day = day
  · subst hd
    rw [Function.update_self, ← sub_sub]
    exact hc.drop (by rw [transit, hi, RecordStage.inTransit, if_pos rfl])
  · rw [Function.update_of_ne (Ne.symm hd)]
    exact hc.rest (by rw [transit, hi, RecordStage.inTransit, if_neg hd])

end Steps

namespace RecordWorld
variable {calls : ι → RecordCall} {t : RiskTables} [DecidableEq ι]

/-- A step keeps the invariant, or a call has raised. -/
theorem Sound.step {w w' : RecordWorld ι} {e : ι × RecordStep} (h : w.Sound calls t)
    (hs : Step calls w e w') : w'.Sound calls t ∨ ∃ i, w'.stage i = .failed := by
  cases hs with
  | reserve hi _ hk =>
    refine Or.inl ⟨h.keyed.reserve hi hk, h.serial.setStage nofun nofun ?_,
      h.booked.setStage ?_ fun _ => rfl⟩
    · rw [hi]
      exact Iff.rfl
    · rw [hi]
      exact fun _ => rfl
  | duplicate hi _ hk =>
    refine Or.inl ⟨h.keyed.setStage ?_ fun _ => hk, h.serial.setStage nofun nofun ?_,
      h.booked.setStage ?_ fun _ => rfl⟩
    · rw [hi]
      exact Iff.rfl
    · rw [hi]
      exact Iff.rfl
    · rw [hi]
      exact fun _ => rfl
  | acquire hi hfree =>
    refine Or.inl ⟨h.keyed.setStage ?_ nofun, h.serial.acquire hi hfree,
      h.booked.setStage ?_ fun _ => rfl⟩
    · rw [hi]
      exact Iff.rfl
    · rw [hi]
      exact fun _ => rfl
  | read hi =>
    refine Or.inl ⟨h.keyed.setStage ?_ nofun,
      h.serial.setStage (fun _ he => RecordStage.read.inj he) (fun _ => h.serial.lock _ ?_) ?_,
      h.booked.setStage ?_ fun _ => rfl⟩
    · rw [hi]
      exact Iff.rfl
    · rw [hi]
      trivial
    · rw [hi]
      exact Iff.rfl
    · rw [hi]
      exact fun _ => rfl
  | put hi happly =>
    refine Or.inl ⟨h.keyed.setStage ?_ nofun, h.serial.put hi happly,
      h.booked.put hi (h.serial.item _ _ hi) happly⟩
    rw [hi]
    exact Iff.rfl
  | add hi =>
    refine Or.inl ⟨h.keyed.setStage ?_ nofun, h.serial.setStage nofun nofun ?_, h.booked.add hi⟩
    · rw [hi]
      exact Iff.rfl
    · rw [hi]
      exact Iff.rfl
  | @raise i => exact Or.inr ⟨i, Function.update_self _ _ _⟩

/-- A call that has raised stays so. -/
theorem failed_step {w w' : RecordWorld ι} {e : ι × RecordStep} {i : ι}
    (hi : w.stage i = .failed) (hs : Step calls w e w') : w'.stage i = .failed := by
  cases hs with
  | reserve hj | duplicate hj | acquire hj | read hj | put hj | add hj =>
    refine (Function.update_of_ne ?_ _ _).trans hi
    rintro rfl
    rw [hi] at hj
    exact nomatch hj
  | @raise j =>
    by_cases hij : i = j
    · rw [hij]
      exact Function.update_self _ _ _
    · refine (Function.update_of_ne hij _ _).trans ?_
      split <;> exact hi

theorem Reaches.sound {w : RecordWorld ι} (ht : t.Balanced)
    (h : Reaches (Step calls) (fun _ _ => True) (start t) w) :
    w.Sound calls t ∨ ∃ i, w.stage i = .failed :=
  h.invariant (I := fun w => w.Sound calls t ∨ ∃ i, w.stage i = .failed)
    (fun _ _ _ hi _ hs => hi.elim (fun hi => hi.step hs)
      fun ⟨i, hi⟩ => Or.inr ⟨i, failed_step hi hs⟩)
    (Or.inl (sound_start ht))

end RecordWorld

/-- A buy and a sale of one symbol on one day. -/
def sampleCalls : Bool → RecordCall
  | true => ⟨"2026-01-05", ⟨"o1", "INFY", "BUY", 10, 100, "f1"⟩⟩
  | false => ⟨"2026-01-05", ⟨"o2", "INFY", "SELL", 4, 110, "f2"⟩⟩

def emptyTables : RiskTables := ⟨[], fun _ _ => {}, fun _ => 0⟩

theorem emptyTables_balanced : emptyTables.Balanced := fun _ => ⟨∅, fun _ _ => rfl, rfl⟩

end QuantEmbrace
