import QuantEmbrace.TickPublisher
import QuantEmbrace.Lib.GuardedRun
import QuantEmbrace.Lib.KeyedTable
import QuantEmbrace.Lib.UnderWay
import Mathlib.Data.List.Flatten

/-! The table of latest prices. The buffer has one item for a key, the last that arrived; every
flush empties the buffer and writes what it took in a thread of its own. -/
namespace QuantEmbrace.DataIngestion
open GuardedRun UnderWay

/-- A row of the table. -/
structure PriceItem where
  symbol : String
  lastPrice : ℚ
  bid : ℚ
  ask : ℚ
  volume : ℤ
  timestamp : ℚ
  broker : String
  market : String
  rawSymbol : String
  deriving DecidableEq, Repr

/-- `Decimal` raises an error on a bid or an ask that is missing. -/
def priceItem (tick : BrokerTick) : Option PriceItem := do
  let bid ← tick.bid
  let ask ← tick.ask
  return {
    symbol := tick.instrumentId
    lastPrice := tick.lastPrice
    bid := bid
    ask := ask
    volume := tick.volume
    timestamp := tick.timestamp
    broker := tick.broker
    market := tick.market.value
    rawSymbol := tick.symbol }

theorem fields_of_priceItem {tick : BrokerTick} {item : PriceItem}
    (h : priceItem tick = some item) :
    item.symbol = tick.instrumentId ∧ item.timestamp = tick.timestamp := by
  simp only [priceItem, Option.bind_eq_bind, Option.bind_eq_some_iff, Option.pure_def,
    Option.some.injEq] at h
  obtain ⟨bid, -, ask, -, rfl⟩ := h
  exact ⟨rfl, rfl⟩

/-- An item that waits to be written. `ticks` is a record for the statements: the tick that it is
made of, and before it those that it took the place of. -/
structure PendingWrite where
  item : PriceItem
  ticks : List BrokerTick
  deriving DecidableEq, Repr

def PendingWrite.key (p : PendingWrite) : String := p.item.symbol

/-- An item stands for ticks of its own key, and is made of one of them. -/
structure PendingWrite.Sound (p : PendingWrite) : Prop where
  made : ∃ tick ∈ p.ticks, priceItem tick = some p.item
  keyed : ∀ tick ∈ p.ticks, tick.instrumentId = p.key

abbrev PriceTable := String → Option PriceItem

/-- The writer, its batches under way and the table. `kept` and `lost` are records for the
statements: the ticks that the items written stand for, and those of the items dropped. -/
structure DynamoWriter where
  table : PriceTable
  pendingWrites : KeyedTable PendingWrite.key := .empty
  flushes : List (List PendingWrite) := []
  kept : List BrokerTick := []
  lost : List BrokerTick := []

/-- What happens next: a call of the writer, an item of a batch is written, a batch has nothing
left to write, or it fails and the items left in it are dropped. -/
inductive PriceStep where
  | writeTick (tick : BrokerTick)
  | flush
  | put (i j : ℕ)
  | finish (i : ℕ)
  | fail (i : ℕ)
  deriving DecidableEq, Repr

namespace DynamoWriter

/-- What takes the place of the item that waits for the same key. -/
def renewed (tick : BrokerTick) (item : PriceItem) (s : DynamoWriter) : PendingWrite where
  item := item
  ticks := (s.pendingWrites.get item.symbol).elim [] PendingWrite.ticks ++ [tick]

def writeTick (tick : BrokerTick) (s : DynamoWriter) : DynamoWriter :=
  match priceItem tick with
  | none => s
  | some item => { s with pendingWrites := s.pendingWrites.put (s.renewed tick item) }

def flush (s : DynamoWriter) : DynamoWriter :=
  if s.pendingWrites.rows = [] then s
  else
    { s with
      pendingWrites := .empty
      flushes := s.flushes ++ [s.pendingWrites.rows] }

/-- `put_item` of the batch writer, which has no condition. -/
def putItem (item : PriceItem) (table : PriceTable) : PriceTable :=
  Function.update table item.symbol (some item)

/-- The item at `j` among those left in the batch at `i`. -/
def entry (i j : ℕ) (s : DynamoWriter) : Option PendingWrite :=
  s.flushes[i]?.bind fun batch => batch[j]?

def put (i j : ℕ) (s : DynamoWriter) : DynamoWriter :=
  match s.flushes[i]?, s.entry i j with
  | some batch, some p =>
    { s with
      table := putItem p.item s.table
      flushes := s.flushes.set i (batch.eraseIdx j)
      kept := s.kept ++ p.ticks }
  | _, _ => s

def finish (i : ℕ) (s : DynamoWriter) : DynamoWriter :=
  if s.flushes[i]? = some [] then { s with flushes := s.flushes.eraseIdx i } else s

def fail (i : ℕ) (s : DynamoWriter) : DynamoWriter :=
  match s.flushes[i]? with
  | none => s
  | some batch =>
    { s with
      flushes := s.flushes.eraseIdx i
      lost := s.lost ++ batch.flatMap PendingWrite.ticks }

def step (s : DynamoWriter) : PriceStep → DynamoWriter
  | .writeTick tick => s.writeTick tick
  | .flush => s.flush
  | .put i j => s.put i j
  | .finish i => s.finish i
  | .fail i => s.fail i

def run (table : PriceTable) (steps : List PriceStep) : DynamoWriter :=
  steps.foldl step { table := table }

/-- Everything that waits to be written. -/
def waiting (s : DynamoWriter) : List PendingWrite := s.pendingWrites.rows ++ s.flushes.flatten

/-- No item waits. -/
def Quiet (s : DynamoWriter) : Prop := s.pendingWrites.rows = [] ∧ s.flushes = []

/-- The table has a price of `key` that is from `time` or later. -/
def UpTo (table : PriceTable) (key : String) (time : ℚ) : Prop :=
  ∃ row, table key = some row ∧ time ≤ row.timestamp

/-- The time of the first row of `key`, or of a tick that was written or took its part in an item
that was. -/
def Written (table : PriceTable) (s : DynamoWriter) (key : String) (time : ℚ) : Prop :=
  (∃ row, table key = some row ∧ row.timestamp = time) ∨
    ∃ tick ∈ s.kept, tick.instrumentId = key ∧ tick.timestamp = time

structure Sourced (table : PriceTable) (s : DynamoWriter) : Prop where
  waiting : ∀ p ∈ s.waiting, p.Sound
  rows : ∀ key row, s.table key = some row →
    table key = some row ∨ ∃ tick ∈ s.kept, priceItem tick = some row ∧ tick.instrumentId = key

/-- The ticks that a step puts into the buffer. -/
def taken : PriceStep → List BrokerTick
  | .writeTick tick => if (priceItem tick).isSome then [tick] else []
  | _ => []

def accounts (s : DynamoWriter) : List BrokerTick :=
  s.waiting.flatMap PendingWrite.ticks ++ s.kept ++ s.lost

/-- The put writes an item that is no older than the row it replaces, as the condition of
`_conditional_put` has it, nor than the ticks that the item took the place of. -/
def Admits (s : DynamoWriter) : PriceStep → Prop
  | .put i j => ∀ p, s.entry i j = some p →
      (∀ row, s.table p.key = some row → row.timestamp ≤ p.item.timestamp) ∧
        ∀ tick ∈ p.ticks, tick.timestamp ≤ p.item.timestamp
  | _ => True

variable {s : DynamoWriter} {table : PriceTable} {tick : BrokerTick} {item : PriceItem}
  {batch : List PendingWrite} {p : PendingWrite} {i j : ℕ} {key : String} {time : ℚ}

theorem entry_eq_some (h : s.entry i j = some p) :
    ∃ batch, s.flushes[i]? = some batch ∧ batch[j]? = some p :=
  Option.bind_eq_some_iff.mp h

theorem writeTick_eq (h : priceItem tick = some item) : s.writeTick tick =
    { s with pendingWrites := s.pendingWrites.put (s.renewed tick item) } := by
  rw [writeTick, h]

theorem writeTick_of_none (h : priceItem tick = none) : s.writeTick tick = s := by
  rw [writeTick, h]

theorem put_of_none (h : s.entry i j = none) : s.put i j = s := by
  rw [put, h]
  cases s.flushes[i]? <;> rfl

theorem put_eq (hbatch : s.flushes[i]? = some batch) (h : batch[j]? = some p) :
    s.put i j = { s with
      table := putItem p.item s.table
      flushes := s.flushes.set i (batch.eraseIdx j)
      kept := s.kept ++ p.ticks } := by
  have hentry : s.entry i j = some p := Option.bind_eq_some_iff.mpr ⟨batch, hbatch, h⟩
  rw [put, hbatch, hentry]

theorem fail_eq (h : s.flushes[i]? = some batch) : s.fail i = { s with
    flushes := s.flushes.eraseIdx i
    lost := s.lost ++ batch.flatMap PendingWrite.ticks } := by
  rw [fail, h]

@[simp] theorem putItem_key (p : PendingWrite) (table : PriceTable) :
    putItem p.item table p.key = some p.item :=
  Function.update_self ..

theorem putItem_of_ne (h : key ≠ p.key) (table : PriceTable) :
    putItem p.item table key = table key :=
  Function.update_of_ne h ..

/-- What waits for a key goes, with the item that it stood for, into the new item. -/
theorem waiting_writeTick (h : priceItem tick = some item) :
    (s.writeTick tick).waiting.Perm
      (s.renewed tick item ::
        ((s.pendingWrites.erase item.symbol).rows ++ s.flushes.flatten)) := by
  have hrows : (s.pendingWrites.put (s.renewed tick item)).rows =
      (s.pendingWrites.erase item.symbol).rows ++ [s.renewed tick item] :=
    KeyedTable.rows_putNew (KeyedTable.get_erase_self s.pendingWrites item.symbol)
  rw [writeTick_eq h, waiting, hrows, List.append_assoc]
  exact List.perm_middle

theorem waiting_flush (s : DynamoWriter) : s.flush.waiting.Perm s.waiting := by
  rw [flush]
  split
  · exact .refl _
  · have hrows : (KeyedTable.empty : KeyedTable PendingWrite.key).rows = [] := rfl
    rw [waiting, waiting, hrows, List.nil_append, List.flatten_append, List.flatten_singleton]
    exact List.perm_append_comm

theorem waiting_put (hbatch : s.flushes[i]? = some batch) (h : batch[j]? = some p) :
    s.waiting.Perm (p :: (s.put i j).waiting) := by
  rw [put_eq hbatch h]
  exact ((flatten_perm_erase hbatch h).append_left _).trans List.perm_middle

theorem waiting_finish (s : DynamoWriter) (i : ℕ) : (s.finish i).waiting.Perm s.waiting := by
  rw [finish]
  split
  · next h => exact (flatten_perm h).symm.append_left _
  · exact .refl _

theorem waiting_fail (h : s.flushes[i]? = some batch) :
    s.waiting.Perm (batch ++ (s.fail i).waiting) := by
  rw [fail_eq h]
  refine ((flatten_perm h).append_left _).trans ?_
  rw [waiting, ← List.append_assoc, ← List.append_assoc]
  exact List.perm_append_comm.append_right _

theorem waiting_erase (s : DynamoWriter) (key : String) :
    s.waiting.Perm ((s.pendingWrites.get key).toList ++
      ((s.pendingWrites.erase key).rows ++ s.flushes.flatten)) := by
  rw [← List.append_assoc]
  refine List.Perm.append_right _ ?_
  cases h : s.pendingWrites.get key with
  | some p => exact KeyedTable.rows_perm_erase h
  | none =>
    have hkeep : ∀ p ∈ s.pendingWrites.rows, decide (p.key ≠ key) = true := by
      intro p hp
      exact decide_eq_true fun hk =>
        KeyedTable.get_eq_none_iff.mp h (List.mem_map.mpr ⟨p, hp, hk⟩)
    rw [KeyedTable.rows_erase, List.filter_eq_self.mpr hkeep]
    exact .refl _

/-- A tick adds one item to those that wait, and takes at most one out. -/
theorem mem_waiting_writeTick (h : priceItem tick = some item)
    (hp : p ∈ (s.writeTick tick).waiting) : p = s.renewed tick item ∨ p ∈ s.waiting := by
  refine (List.mem_cons.mp ((waiting_writeTick h).mem_iff.mp hp)).imp_right fun hp => ?_
  exact (s.waiting_erase item.symbol).mem_iff.mpr (List.mem_append_right _ hp)

theorem kept_flush (s : DynamoWriter) :
    s.flush.table = s.table ∧ s.flush.kept = s.kept ∧ s.flush.lost = s.lost := by
  rw [flush]
  split <;> exact ⟨rfl, rfl, rfl⟩

theorem kept_finish (s : DynamoWriter) (i : ℕ) : (s.finish i).table = s.table ∧
    (s.finish i).kept = s.kept ∧ (s.finish i).lost = s.lost := by
  rw [finish]
  split <;> exact ⟨rfl, rfl, rfl⟩

theorem accounts_perm {t : DynamoWriter} (hwait : t.waiting.Perm s.waiting)
    (hkept : t.kept = s.kept) (hlost : t.lost = s.lost) : t.accounts.Perm s.accounts := by
  rw [accounts, accounts, hkept, hlost]
  exact ((hwait.flatMap_right PendingWrite.ticks).append_right _).append_right _

theorem accounts_writeTick (h : priceItem tick = some item) :
    (s.writeTick tick).accounts.Perm (tick :: s.accounts) := by
  have hnew := (waiting_writeTick (s := s) h).flatMap_right PendingWrite.ticks
  have hold := (s.waiting_erase item.symbol).flatMap_right PendingWrite.ticks
  have helim : (s.pendingWrites.get item.symbol).toList.flatMap PendingWrite.ticks =
      (s.pendingWrites.get item.symbol).elim [] PendingWrite.ticks := by
    cases s.pendingWrites.get item.symbol with
    | none => rfl
    | some p => exact List.flatMap_singleton PendingWrite.ticks p
  rw [List.flatMap_append, helim] at hold
  rw [List.flatMap_cons, renewed, List.append_assoc] at hnew
  have hticks := hnew.trans (List.perm_middle.trans (hold.symm.cons tick))
  have hkept : (s.writeTick tick).kept = s.kept ∧ (s.writeTick tick).lost = s.lost := by
    rw [writeTick_eq h]
    exact ⟨rfl, rfl⟩
  rw [accounts, accounts, hkept.1, hkept.2]
  exact (hticks.append_right _).append_right _

theorem accounts_put (hbatch : s.flushes[i]? = some batch) (h : batch[j]? = some p) :
    (s.put i j).accounts.Perm s.accounts := by
  have hwait := (waiting_put hbatch h).flatMap_right PendingWrite.ticks
  rw [List.flatMap_cons] at hwait
  have hkept : (s.put i j).kept = s.kept ++ p.ticks ∧ (s.put i j).lost = s.lost := by
    rw [put_eq hbatch h]
    exact ⟨rfl, rfl⟩
  rw [accounts, accounts, hkept.1, hkept.2]
  refine List.Perm.append_right _ (.trans ?_ (hwait.symm.append_right _))
  rw [← List.append_assoc, List.append_assoc p.ticks]
  exact List.perm_append_comm

theorem accounts_fail (h : s.flushes[i]? = some batch) : (s.fail i).accounts.Perm s.accounts := by
  have hwait := (waiting_fail h).flatMap_right PendingWrite.ticks
  rw [List.flatMap_append] at hwait
  have hkept : (s.fail i).kept = s.kept ∧
      (s.fail i).lost = s.lost ++ batch.flatMap PendingWrite.ticks := by
    rw [fail_eq h]
    exact ⟨rfl, rfl⟩
  rw [accounts, accounts, hkept.1, hkept.2, ← List.append_assoc]
  refine List.perm_append_comm.trans ?_
  rw [← List.append_assoc, ← List.append_assoc]
  exact (hwait.symm.append_right _).append_right _

/-- No step loses a tick from the accounts or enters one twice. -/
theorem accounts_step (s : DynamoWriter) (e : PriceStep) :
    (s.step e).accounts.Perm (taken e ++ s.accounts) := by
  cases e with
  | writeTick tick =>
    cases h : priceItem tick with
    | none =>
      rw [step, writeTick_of_none h, taken, h]
      exact .refl _
    | some item =>
      rw [taken, h]
      exact accounts_writeTick h
  | flush => exact accounts_perm s.waiting_flush s.kept_flush.2.1 s.kept_flush.2.2
  | put i j =>
    cases h : s.entry i j with
    | none =>
      rw [step, put_of_none h]
      exact .refl _
    | some p =>
      obtain ⟨batch, hbatch, hp⟩ := entry_eq_some h
      exact accounts_put hbatch hp
  | finish i =>
    exact accounts_perm (s.waiting_finish i) (s.kept_finish i).2.1 (s.kept_finish i).2.2
  | fail i =>
    cases h : s.flushes[i]? with
    | none =>
      rw [step, fail, h]
      exact .refl _
    | some batch => exact accounts_fail h

theorem accounts_run (table : PriceTable) (steps : List PriceStep) :
    (run table steps).accounts.Perm (steps.flatMap taken) := by
  induction steps using List.reverseRecOn with
  | nil => exact .refl _
  | append_singleton steps e ih =>
    rw [run, List.foldl_append, List.flatMap_append, List.flatMap_singleton]
    exact (accounts_step _ e).trans ((ih.append_left _).trans List.perm_append_comm)

/-- Only a put changes the table and the record of what it stands for. -/
theorem frame (s : DynamoWriter) {e : PriceStep} (h : ∀ i j, e = .put i j → s.entry i j = none) :
    (s.step e).table = s.table ∧ (s.step e).kept = s.kept := by
  cases e with
  | writeTick tick =>
    cases hitem : priceItem tick with
    | none => rw [step, writeTick_of_none hitem]; exact ⟨rfl, rfl⟩
    | some item => rw [step, writeTick_eq hitem]; exact ⟨rfl, rfl⟩
  | flush => exact ⟨s.kept_flush.1, s.kept_flush.2.1⟩
  | put i j => rw [step, put_of_none (h i j rfl)]; exact ⟨rfl, rfl⟩
  | finish i => exact ⟨(s.kept_finish i).1, (s.kept_finish i).2.1⟩
  | fail i =>
    cases hbatch : s.flushes[i]? with
    | none => rw [step, fail, hbatch]; exact ⟨rfl, rfl⟩
    | some batch => rw [step, fail_eq hbatch]; exact ⟨rfl, rfl⟩

/-- The ticks of a renewed item are those of the one that waited, and the new one. -/
theorem mem_renewed {t : BrokerTick} (ht : t ∈ (s.renewed tick item).ticks) :
    t = tick ∨ ∃ p ∈ s.waiting, p.key = item.symbol ∧ t ∈ p.ticks := by
  obtain ht | ht := List.mem_append.mp ht
  · cases hget : s.pendingWrites.get item.symbol with
    | none =>
      rw [hget] at ht
      cases ht
    | some p =>
      rw [hget] at ht
      obtain ⟨hp, hkey⟩ := KeyedTable.get_eq_some_iff.mp hget
      exact .inr ⟨p, List.mem_append_left _ hp, hkey, ht⟩
  · exact .inl (List.mem_singleton.mp ht)

theorem renewed_sound (hs : ∀ p ∈ s.waiting, p.Sound) (h : priceItem tick = some item) :
    (s.renewed tick item).Sound := by
  refine ⟨⟨tick, List.mem_append_right _ (List.mem_singleton_self tick), h⟩, fun t ht => ?_⟩
  obtain rfl | ⟨p, hp, hkey, ht⟩ := mem_renewed ht
  · exact (fields_of_priceItem h).1.symm
  · exact ((hs p hp).keyed t ht).trans hkey

theorem waiting_sound (hs : ∀ p ∈ s.waiting, p.Sound) (e : PriceStep) :
    ∀ p ∈ (s.step e).waiting, p.Sound := by
  cases e with
  | writeTick tick =>
    cases h : priceItem tick with
    | none => rwa [step, writeTick_of_none h]
    | some item =>
      intro p hp
      obtain rfl | hp := mem_waiting_writeTick h hp
      · exact renewed_sound hs h
      · exact hs p hp
  | flush => exact fun p hp => hs p (s.waiting_flush.mem_iff.mp hp)
  | put i j =>
    cases h : s.entry i j with
    | none => rwa [step, put_of_none h]
    | some q =>
      obtain ⟨batch, hbatch, hq⟩ := entry_eq_some h
      exact fun p hp => hs p ((waiting_put hbatch hq).mem_iff.mpr (List.mem_cons_of_mem q hp))
  | finish i => exact fun p hp => hs p ((s.waiting_finish i).mem_iff.mp hp)
  | fail i =>
    cases h : s.flushes[i]? with
    | none => rwa [step, fail, h]
    | some batch =>
      exact fun p hp => hs p ((waiting_fail h).mem_iff.mpr (List.mem_append_right batch hp))

theorem mem_waiting_of_entry (h : s.entry i j = some p) : p ∈ s.waiting := by
  obtain ⟨batch, hbatch, hp⟩ := entry_eq_some h
  exact (waiting_put hbatch hp).mem_iff.mpr List.mem_cons_self

/-- What a put leaves. -/
theorem put_fields (h : s.entry i j = some p) :
    (s.put i j).table = putItem p.item s.table ∧ (s.put i j).kept = s.kept ++ p.ticks := by
  obtain ⟨batch, hbatch, hp⟩ := entry_eq_some h
  rw [put_eq hbatch hp]
  exact ⟨rfl, rfl⟩

theorem Sourced.step (hs : Sourced table s) (e : PriceStep) : Sourced table (s.step e) := by
  refine ⟨waiting_sound hs.waiting e, ?_⟩
  by_cases hput : ∀ i j, e = .put i j → s.entry i j = none
  · rw [(s.frame hput).1, (s.frame hput).2]
    exact hs.rows
  · push Not at hput
    obtain ⟨i, j, rfl, hentry⟩ := hput
    obtain ⟨p, hp⟩ := Option.ne_none_iff_exists'.mp hentry
    have hfields : (s.step (.put i j)).table = putItem p.item s.table ∧
        (s.step (.put i j)).kept = s.kept ++ p.ticks := put_fields hp
    have hsound := hs.waiting p (mem_waiting_of_entry hp)
    intro key row hrow
    rw [hfields.1] at hrow
    rw [hfields.2]
    by_cases hkey : key = p.key
    · rw [hkey, putItem_key] at hrow
      obtain ⟨tick, htick, hmade⟩ := hsound.made
      rw [hkey]
      exact .inr ⟨tick, List.mem_append_right _ htick, hmade.trans hrow, hsound.keyed tick htick⟩
    · rw [putItem_of_ne hkey] at hrow
      refine (hs.rows key row hrow).imp_right ?_
      rintro ⟨tick, htick, hmade⟩
      exact ⟨tick, List.mem_append_left _ htick, hmade⟩

theorem Sourced.written (hs : Sourced table s) {row : PriceItem} (h : s.table key = some row) :
    Written table s key row.timestamp := by
  obtain hinit | ⟨tick, htick, hmade, hkey⟩ := hs.rows key row h
  · exact .inl ⟨row, hinit, rfl⟩
  · exact .inr ⟨tick, htick, hkey, (fields_of_priceItem hmade).2.symm⟩

/-- Everything written is from the time of its row or from before. -/
def Current (table : PriceTable) (s : DynamoWriter) : Prop :=
  ∀ key time, Written table s key time → UpTo s.table key time

theorem Written.frame {t : DynamoWriter} (hkept : t.kept = s.kept) :
    Written table t key time ↔ Written table s key time := by
  rw [Written, Written, hkept]

theorem written_put (h : s.entry i j = some p) : Written table (s.put i j) key time ↔
    Written table s key time ∨
      ∃ tick ∈ p.ticks, tick.instrumentId = key ∧ tick.timestamp = time := by
  rw [Written, Written, (put_fields h).2, or_assoc]
  refine or_congr_right ?_
  simp only [List.mem_append, or_and_right, exists_or]

/-- A put that is admitted keeps the table current, and no other does. -/
theorem current_put_iff (hs : Sourced table s) (hc : Current table s) (h : s.entry i j = some p) :
    Current table (s.put i j) ↔
      (∀ row, s.table p.key = some row → row.timestamp ≤ p.item.timestamp) ∧
        ∀ tick ∈ p.ticks, tick.timestamp ≤ p.item.timestamp := by
  have hsound := hs.waiting p (mem_waiting_of_entry h)
  have hself : (s.put i j).table p.key = some p.item := by
    rw [(put_fields h).1, putItem_key]
  constructor
  · intro hnext
    have upTo {time : ℚ} (hw : Written table (s.put i j) p.key time) :
        time ≤ p.item.timestamp := by
      obtain ⟨row, hrow, hle⟩ := hnext p.key time hw
      rw [hself] at hrow
      cases hrow
      exact hle
    refine ⟨fun row hrow => upTo ((written_put h).mpr (.inl (hs.written hrow))), ?_⟩
    intro tick htick
    exact upTo ((written_put h).mpr (.inr ⟨tick, htick, hsound.keyed tick htick, rfl⟩))
  · rintro ⟨hstored, hticks⟩ key time hw
    by_cases hkey : key = p.key
    · refine ⟨p.item, by rw [hkey, hself], ?_⟩
      obtain hold | ⟨tick, htick, -, rfl⟩ := (written_put h).mp hw
      · obtain ⟨row, hrow, hle⟩ := hc key time hold
        exact hle.trans (hstored row (by rwa [← hkey]))
      · exact hticks tick htick
    · have hsame : (s.put i j).table key = s.table key := by
        rw [(put_fields h).1, putItem_of_ne hkey]
      rw [UpTo, hsame]
      obtain hold | ⟨tick, htick, htickKey, -⟩ := (written_put h).mp hw
      · exact hc key time hold
      · exact absurd (htickKey.symm.trans (hsound.keyed tick htick)) hkey

theorem current_step_iff (hs : Sourced table s) (hc : Current table s) (e : PriceStep) :
    Current table (s.step e) ↔ s.Admits e := by
  by_cases hput : ∀ i j, e = .put i j → s.entry i j = none
  · have hframe := s.frame hput
    have hnext : Current table (s.step e) := by
      intro key time hw
      rw [UpTo, hframe.1]
      exact hc key time ((Written.frame hframe.2).mp hw)
    refine iff_of_true hnext ?_
    cases e with
    | put i j =>
      intro p hp
      rw [hput i j rfl] at hp
      cases hp
    | _ => trivial
  · push Not at hput
    obtain ⟨i, j, rfl, hentry⟩ := hput
    obtain ⟨p, hp⟩ := Option.ne_none_iff_exists'.mp hentry
    refine (current_put_iff hs hc hp).trans ⟨fun h q hq => ?_, fun h => h p hp⟩
    rw [hp] at hq
    cases hq
    exact h

/-- A tick is no older than what the table and the writer have of its key, and a flush takes no
key that an earlier one has still to write. -/
def Orderly (s : DynamoWriter) : PriceStep → Prop
  | .writeTick tick =>
      (∀ row, s.table tick.instrumentId = some row → row.timestamp ≤ tick.timestamp) ∧
        ∀ p ∈ s.waiting, p.key = tick.instrumentId → p.item.timestamp ≤ tick.timestamp
  | .flush => ∀ p ∈ s.pendingWrites.rows, ∀ q ∈ s.flushes.flatten, p.key ≠ q.key
  | _ => True

/-- Times ascend from the table over the batches under way to the buffer. -/
structure Ascending (s : DynamoWriter) : Prop where
  stands : ∀ p ∈ s.waiting, ∀ tick ∈ p.ticks, tick.timestamp ≤ p.item.timestamp
  stored : ∀ p ∈ s.waiting, ∀ row, s.table p.key = some row → row.timestamp ≤ p.item.timestamp
  behind : ∀ q ∈ s.flushes.flatten, ∀ p ∈ s.pendingWrites.rows, p.key = q.key →
    q.item.timestamp ≤ p.item.timestamp
  alone : (s.flushes.flatten.map PendingWrite.key).Nodup

/-- Items leave, and neither the table nor the buffer changes. -/
theorem Ascending.fewer {t : DynamoWriter} (hs : Ascending s) (htable : t.table = s.table)
    (hbuffer : t.pendingWrites = s.pendingWrites) {gone : List PendingWrite}
    (hflushes : s.flushes.flatten.Perm (gone ++ t.flushes.flatten)) : Ascending t := by
  have hsub {p : PendingWrite} (hp : p ∈ t.flushes.flatten) : p ∈ s.flushes.flatten :=
    hflushes.mem_iff.mpr (List.mem_append_right gone hp)
  have hwait {p : PendingWrite} (hp : p ∈ t.waiting) : p ∈ s.waiting := by
    rw [waiting, hbuffer] at hp
    exact List.mem_append.mpr ((List.mem_append.mp hp).imp_right hsub)
  refine ⟨fun p hp => hs.stands p (hwait hp), fun p hp => ?_, fun q hq p hp => ?_, ?_⟩
  · rw [htable]
    exact hs.stored p (hwait hp)
  · rw [hbuffer] at hp
    exact hs.behind q (hsub hq) p hp
  · have hnodup := (hflushes.map PendingWrite.key).nodup_iff.mp hs.alone
    rw [List.map_append] at hnodup
    exact hnodup.of_append_right

theorem mem_pending_writeTick (h : priceItem tick = some item)
    (hp : p ∈ (s.writeTick tick).pendingWrites.rows) :
    p = s.renewed tick item ∨ p ∈ s.pendingWrites.rows := by
  rw [writeTick_eq h] at hp
  obtain hp | hp := KeyedTable.mem_putNew hp
  · exact .inr (KeyedTable.mem_erase.mp hp).1
  · exact .inl hp

theorem Ascending.writeTick (hs : Ascending s) (h : priceItem tick = some item)
    (hstored : ∀ row, s.table tick.instrumentId = some row → row.timestamp ≤ tick.timestamp)
    (hwait : ∀ p ∈ s.waiting, p.key = tick.instrumentId → p.item.timestamp ≤ tick.timestamp) :
    Ascending (s.writeTick tick) := by
  obtain ⟨hkey, htime⟩ := fields_of_priceItem h
  have htable : (s.writeTick tick).table = s.table := by rw [writeTick_eq h]
  have hflushes : (s.writeTick tick).flushes = s.flushes := by rw [writeTick_eq h]
  have hnew : (s.renewed tick item).item.timestamp = tick.timestamp := htime
  refine ⟨fun p hp t ht => ?_, fun p hp row hrow => ?_, fun q hq p hp hsame => ?_, ?_⟩
  · obtain rfl | hp := mem_waiting_writeTick h hp
    · rw [hnew]
      obtain rfl | ⟨p, hp, hpk, ht⟩ := mem_renewed ht
      · rfl
      · exact (hs.stands p hp t ht).trans (hwait p hp (hpk.trans hkey))
    · exact hs.stands p hp t ht
  · rw [htable] at hrow
    obtain rfl | hp := mem_waiting_writeTick h hp
    · rw [hnew]
      exact hstored row (hkey ▸ hrow)
    · exact hs.stored p hp row hrow
  · rw [hflushes] at hq
    obtain rfl | hp := mem_pending_writeTick h hp
    · rw [hnew]
      exact hwait q (List.mem_append_right _ hq) (hsame.symm.trans hkey)
    · exact hs.behind q hq p hp hsame
  · rw [hflushes]
    exact hs.alone

theorem Ascending.flush (hs : Ascending s)
    (h : ∀ p ∈ s.pendingWrites.rows, ∀ q ∈ s.flushes.flatten, p.key ≠ q.key) :
    Ascending s.flush := by
  have hwait {p : PendingWrite} (hp : p ∈ s.flush.waiting) : p ∈ s.waiting :=
    s.waiting_flush.mem_iff.mp hp
  refine ⟨fun p hp => hs.stands p (hwait hp), fun p hp => ?_, ?_, ?_⟩
  · rw [s.kept_flush.1]
    exact hs.stored p (hwait hp)
  · rw [DynamoWriter.flush]
    split
    · exact hs.behind
    · exact fun q _ p hp => absurd hp List.not_mem_nil
  · rw [DynamoWriter.flush]
    split
    · exact hs.alone
    · rw [List.flatten_append, List.flatten_singleton, List.map_append]
      refine hs.alone.append s.pendingWrites.nodup fun key hold hnew => ?_
      obtain ⟨q, hq, rfl⟩ := List.mem_map.mp hold
      obtain ⟨p, hp, hkey⟩ := List.mem_map.mp hnew
      exact h p hp q hq hkey

theorem Ascending.put (hs : Ascending s) (h : s.entry i j = some p) :
    Ascending (s.put i j) := by
  obtain ⟨batch, hbatch, hp⟩ := entry_eq_some h
  have hflushes : s.flushes.flatten.Perm (p :: (s.put i j).flushes.flatten) := by
    rw [put_eq hbatch hp]
    exact flatten_perm_erase hbatch hp
  have hbuffer : (s.put i j).pendingWrites = s.pendingWrites := by
    rw [put_eq hbatch hp]
  have hmem : p ∈ s.flushes.flatten := hflushes.mem_iff.mpr List.mem_cons_self
  have hnodup := (hflushes.map PendingWrite.key).nodup_iff.mp hs.alone
  rw [List.map_cons, List.nodup_cons] at hnodup
  have hsub {q : PendingWrite} (hq : q ∈ (s.put i j).flushes.flatten) : q ∈ s.flushes.flatten :=
    hflushes.mem_iff.mpr (List.mem_cons_of_mem p hq)
  have hwait {q : PendingWrite} (hq : q ∈ (s.put i j).waiting) : q ∈ s.waiting :=
    (waiting_put hbatch hp).mem_iff.mpr (List.mem_cons_of_mem p hq)
  refine ⟨fun q hq => hs.stands q (hwait hq), fun q hq row hrow => ?_, fun q hq r hr => ?_,
    hnodup.2⟩
  · rw [(put_fields h).1] at hrow
    by_cases hkey : q.key = p.key
    · -- the other batches have no item of this key, so `q` is in the buffer
      rw [hkey, putItem_key] at hrow
      cases hrow
      obtain hq | hq := List.mem_append.mp hq
      · rw [hbuffer] at hq
        exact hs.behind p hmem q hq hkey
      · exact absurd (List.mem_map.mpr ⟨q, hq, hkey⟩) hnodup.1
    · rw [putItem_of_ne hkey] at hrow
      exact hs.stored q (hwait hq) row hrow
  · rw [hbuffer] at hr
    exact hs.behind q (hsub hq) r hr

theorem Ascending.step (hs : Ascending s) (e : PriceStep) (h : s.Orderly e) :
    Ascending (s.step e) := by
  cases e with
  | writeTick tick =>
    cases hitem : priceItem tick with
    | none => rwa [DynamoWriter.step, writeTick_of_none hitem]
    | some item => exact hs.writeTick hitem h.1 h.2
  | flush => exact hs.flush h
  | put i j =>
    cases hentry : s.entry i j with
    | none => rwa [DynamoWriter.step, put_of_none hentry]
    | some p => exact hs.put hentry
  | finish i =>
    rw [DynamoWriter.step, finish]
    split
    · next hbatch => exact hs.fewer rfl rfl (flatten_perm hbatch)
    · exact hs
  | fail i =>
    cases hbatch : s.flushes[i]? with
    | none => rwa [DynamoWriter.step, fail, hbatch]
    | some batch =>
      rw [DynamoWriter.step, fail_eq hbatch]
      exact hs.fewer rfl rfl (flatten_perm hbatch)

theorem Ascending.admits (hs : Ascending s) (e : PriceStep) : s.Admits e := by
  cases e with
  | put i j =>
    intro p hp
    have hmem := mem_waiting_of_entry hp
    exact ⟨hs.stored p hmem, hs.stands p hmem⟩
  | _ => trivial

theorem ascending_start (table : PriceTable) : Ascending { table := table } where
  stands _ hp := absurd hp List.not_mem_nil
  stored _ hp := absurd hp List.not_mem_nil
  behind _ hq := absurd hq List.not_mem_nil
  alone := List.nodup_nil

theorem admits_of_orderly {steps : List PriceStep}
    (h : StepsMeet step Orderly { table := table } steps) :
    StepsMeet step Admits { table := table } steps := by
  have hrun := h.invariant (fun s e hs ho => Ascending.step hs e ho) (ascending_start table)
  refine stepsMeet_iff_prefix.mpr fun pre e hpre => ?_
  exact (hrun pre ((List.prefix_append pre [e]).trans hpre)).admits e

theorem sourced_start (table : PriceTable) : Sourced table { table := table } :=
  ⟨fun _ hp => absurd hp List.not_mem_nil, fun _ _ hrow => .inl hrow⟩

theorem current_start (table : PriceTable) : Current table { table := table } := by
  intro key time hw
  obtain ⟨row, hrow, rfl⟩ | ⟨tick, htick, -⟩ := hw
  · exact ⟨row, hrow, le_rfl⟩
  · cases htick

theorem current_iff (table : PriceTable) (steps : List PriceStep) :
    AlongRun step (Current table) { table := table } steps ↔
      StepsMeet step Admits { table := table } steps :=
  alongRun_iff (D := fun _ => True) (fun _ e _ hs => hs.step e)
    (fun _ e _ hs hc => current_step_iff hs hc e) steps (fun _ _ => trivial) _
    (sourced_start table) (current_start table)

theorem mem_kept_step (s : DynamoWriter) (e : PriceStep) (h : tick ∈ s.kept) :
    tick ∈ (s.step e).kept := by
  by_cases hput : ∀ i j, e = .put i j → s.entry i j = none
  · rwa [(s.frame hput).2]
  · push Not at hput
    obtain ⟨i, j, rfl, hentry⟩ := hput
    obtain ⟨p, hp⟩ := Option.ne_none_iff_exists'.mp hentry
    change tick ∈ (s.put i j).kept
    rw [(put_fields hp).2]
    exact List.mem_append_left p.ticks h

theorem mem_kept_run {pre : List PriceStep} (h : tick ∈ (run table pre).kept)
    (mid : List PriceStep) : tick ∈ (run table (pre ++ mid)).kept := by
  induction mid using List.reverseRecOn with
  | nil => rwa [List.append_nil]
  | append_singleton mid e ih =>
    rw [← List.append_assoc, run, List.foldl_append]
    exact mem_kept_step _ e ih

theorem sourced_run (table : PriceTable) (steps : List PriceStep) :
    Sourced table (run table steps) := by
  have hrun : AlongRun step (Sourced table) { table := table } steps :=
    .of_keep (fun _ e hs => hs.step e) (sourced_start table) steps
  exact hrun.last

/-- No stored time goes back from one moment of the run to a later one. -/
def NeverBack (table : PriceTable) (steps : List PriceStep) : Prop :=
  ∀ pre mid, pre ++ mid <+: steps → ∀ key row, (run table pre).table key = some row →
    UpTo (run table (pre ++ mid)).table key row.timestamp

/-- At every moment, the stored price of a key is no older than any tick of it that was written
or took its part in an item that was. -/
def NewestStored (table : PriceTable) (steps : List PriceStep) : Prop :=
  ∀ pre, pre <+: steps → ∀ tick ∈ (run table pre).kept,
    UpTo (run table pre).table tick.instrumentId tick.timestamp

theorem alongRun_current_iff (table : PriceTable) (steps : List PriceStep) :
    AlongRun step (Current table) { table := table } steps ↔
      NeverBack table steps ∧ NewestStored table steps := by
  constructor
  · intro h
    refine ⟨fun pre mid hpre key row hrow => ?_, fun pre hpre tick htick => ?_⟩
    · refine h (pre ++ mid) hpre key _ ?_
      obtain hinit | ⟨tick, htick, hkey, htime⟩ := (sourced_run table pre).written hrow
      · exact .inl hinit
      · exact .inr ⟨tick, mem_kept_run htick mid, hkey, htime⟩
    · exact h pre hpre _ _ (.inr ⟨tick, htick, rfl, rfl⟩)
  · rintro ⟨hback, hnewest⟩ pre hpre key time hw
    obtain ⟨row, hrow, rfl⟩ | ⟨tick, htick, rfl, rfl⟩ := hw
    · exact hback [] pre hpre key row hrow
    · exact hnewest pre hpre tick htick

/-- When nothing waits, every tick taken is accounted for as kept or as lost, and every row is the
first one of its key or made of a kept tick. -/
def Settled (table : PriceTable) (pre : List PriceStep) : Prop :=
  ((run table pre).kept ++ (run table pre).lost).Perm (pre.flatMap taken) ∧
    ∀ key row, (run table pre).table key = some row → table key = some row ∨
      ∃ tick ∈ (run table pre).kept, priceItem tick = some row ∧ tick.instrumentId = key

theorem settled_of_quiet {pre : List PriceStep} (h : (run table pre).Quiet) :
    Settled table pre := by
  refine ⟨?_, (sourced_run table pre).rows⟩
  have hperm := accounts_run table pre
  rwa [accounts, waiting, h.1, h.2] at hperm

/-- Stored prices go on in time, and come to rest at the newest tick that was not lost, in the runs
in which no put writes an older item; among these are all runs whose ticks come in order and whose
flushes do not overlap in a key. -/
theorem latest_prices_iff (table : PriceTable) (steps : List PriceStep) :
    (NeverBack table steps ∧ NewestStored table steps ↔
      StepsMeet step Admits { table := table } steps) ∧
    (∀ pre, pre <+: steps → (run table pre).Quiet → Settled table pre) ∧
    (StepsMeet step Orderly { table := table } steps →
      StepsMeet step Admits { table := table } steps) :=
  ⟨(alongRun_current_iff table steps).symm.trans (current_iff table steps),
    fun _ _ => settled_of_quiet, admits_of_orderly⟩

def quoteAt (price time : ℚ) : BrokerTick where
  symbol := "INFY"
  market := .nse
  lastPrice := price
  bid := some price
  ask := some price
  volume := 100
  timestamp := time
  broker := "zerodha"

def lateTick : List PriceStep :=
  [.writeTick (quoteAt 1500 20), .flush, .put 0 0, .finish 0,
    .writeTick (quoteAt 1490 10), .flush, .put 0 0, .finish 0]

/-- A tick that comes after a newer one takes its place in the table. -/
theorem late_tick_goes_back : ¬ NeverBack (fun _ => none) lateTick := by
  intro h
  have hstored : ((run (fun _ => none) (lateTick.take 4)).table "NSE:INFY").map
      PriceItem.timestamp = some 20 := by decide +kernel
  have hlast : ((run (fun _ => none) (lateTick.take 4 ++ lateTick.drop 4)).table
      "NSE:INFY").map PriceItem.timestamp = some 10 := by decide +kernel
  obtain ⟨row, hrow, htime⟩ := Option.map_eq_some_iff.mp hstored
  obtain ⟨row', hrow', hle⟩ := h (lateTick.take 4) (lateTick.drop 4) (by simp) _ row hrow
  rw [hrow', Option.map_some, Option.some.injEq] at hlast
  rw [htime, hlast] at hle
  exact absurd hle (by decide)

end DynamoWriter
end QuantEmbrace.DataIngestion
