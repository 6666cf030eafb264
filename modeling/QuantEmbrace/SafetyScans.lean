import QuantEmbrace.ManagedPosition
import QuantEmbrace.MisSquareOff
import QuantEmbrace.Lib.Paging

/-! The scans of the positions table behind the safety checks, on a table that the store
splits into pages. -/
namespace QuantEmbrace
open Paging

/-- An item with its partition key. -/
structure PositionItem where
  key : String
  row : ManagedRow
  deriving DecidableEq, Repr

/-- `#dir <> :flat AND attribute_exists(stop_price)` -/
def PositionItem.managedFilter (item : PositionItem) : Bool :=
  item.row.notFlat && item.row.stopPrice.isSome

/-- `#dir <> :flat AND attribute_not_exists(stop_price)` -/
def PositionItem.unmanagedFilter (item : PositionItem) : Bool :=
  item.row.notFlat && item.row.stopPrice.isNone

/-- `begins_with(PK, :prefix)` -/
def PositionItem.positionFilter (item : PositionItem) : Bool := item.key.startsWith "POSITION#"

/- Each component asks once and reads the items of the answer; the key is kept beside what
   it makes of an item. -/
section Components
variable (scan : Scan PositionItem)

def getOpenManagedPositions : List (String × ManagedPosition) :=
  (scan PositionItem.managedFilter none).items.filterMap fun item =>
    item.row.parsePosition.map (item.key, ·)

def alertUnmanagedPositions : List String :=
  (scan PositionItem.unmanagedFilter none).items.map (·.key)

def scanOpenMisPositions (stored : String → Option OrderStatus) : List (String × MisPosition) :=
  let items := (scan (·.row.misFilter) none).items
  let validExitIds := buildValidExitIds stored (items.map (·.row.toPositionRow))
  items.filterMap fun item =>
    (resolvePosition item.row.toPositionRow validExitIds).map (item.key, ·)

def scanAllPositions : List PositionItem := (scan (fun _ => true) none).items

/-- `_get_unrealized_pnl`, the one that goes on until there is no key. -/
def getUnrealizedPnl (fuel : ℕ) : Option ℚ :=
  (followed scan PositionItem.positionFilter fuel none).map fun items =>
    (items.map fun item =>
      item.row.quantity.getD 0 * (item.row.lastPrice.getD 0 - item.row.avgPrice.getD 0)).sum

end Components

/-- A table in pages; no two items share a key. -/
structure PagedTable where
  pages : List (List PositionItem)
  keys : (pages.flatten.map (·.key)).Nodup

namespace PagedTable

def split (t : PagedTable) : Scan PositionItem := serve t.pages

def unsplit (t : PagedTable) : Scan PositionItem := serve [t.pages.flatten]

/-- The items that only a later request would return. -/
def later (t : PagedTable) : List PositionItem := t.pages.tail.flatten

structure ScansCover (t : PagedTable) (stored : String → Option OrderStatus) : Prop where
  evaluated : SameSet (getOpenManagedPositions t.split) (getOpenManagedPositions t.unsplit)
  alerted : SameSet (alertUnmanagedPositions t.split) (alertUnmanagedPositions t.unsplit)
  closed : SameSet (scanOpenMisPositions t.split stored) (scanOpenMisPositions t.unsplit stored)
  inspected : SameSet (scanAllPositions t.split) (scanAllPositions t.unsplit)

variable (t : PagedTable) (stored : String → Option OrderStatus)

theorem nodup : t.pages.flatten.Nodup := t.keys.of_map _

theorem eq_of_key {a b : PositionItem} (ha : a ∈ t.pages.flatten) (hb : b ∈ t.pages.flatten)
    (h : a.key = b.key) : a = b :=
  List.inj_on_of_nodup_map t.keys ha hb h

/-- What a component keeps under the key of the item tells the item. -/
theorem eq_of_keyed {β : Type*} {f : PositionItem → Option β} :
    ∀ a ∈ t.pages.flatten, ∀ b ∈ t.pages.flatten, ∀ x,
      (f a).map (a.key, ·) = some x → (f b).map (b.key, ·) = some x → a = b := by
  intro a ha b hb x hx hy
  obtain ⟨_, _, rfl⟩ := Option.map_eq_some_iff.mp hx
  obtain ⟨_, _, hxy⟩ := Option.map_eq_some_iff.mp hy
  exact t.eq_of_key ha hb (congrArg Prod.fst hxy).symm

theorem evaluated_iff :
    SameSet (getOpenManagedPositions t.split) (getOpenManagedPositions t.unsplit) ↔
      ∀ item ∈ t.later, item.managedFilter = true → item.row.parsePosition = none := by
  refine (first_page_covers_iff t.nodup t.eq_of_keyed).trans ?_
  simp only [Option.map_eq_none_iff]
  rfl

theorem alerted_iff :
    SameSet (alertUnmanagedPositions t.split) (alertUnmanagedPositions t.unsplit) ↔
      ∀ item ∈ t.later, item.unmanagedFilter = false := by
  unfold alertUnmanagedPositions
  simp only [← List.filterMap_eq_map]
  refine (first_page_covers_iff t.nodup ?_).trans ?_
  · intro a ha b hb x hx hy
    exact t.eq_of_key ha hb (Option.some.inj (hx.trans hy.symm))
  · simp only [Function.comp_apply, reduceCtorEq, imp_false, Bool.not_eq_true]
    rfl

theorem inspected_iff :
    SameSet (scanAllPositions t.split) (scanAllPositions t.unsplit) ↔ t.later = [] := by
  have h := @first_page_covers_iff _ _ t.pages (fun _ => true) some t.nodup
    fun a _ b _ x hx hy => (Option.some.inj hx).trans (Option.some.inj hy).symm
  rw [List.filterMap_some, List.filterMap_some] at h
  refine h.trans ?_
  simp only [forall_const, reduceCtorEq, imp_false, later]
  exact List.eq_nil_iff_forall_not_mem.symm

/-- Whether an exit is in flight does not depend on the other items of the answer. -/
theorem mem_buildValidExitIds {items : List PositionRow} {item : PositionRow} {eid : String}
    (hitem : item ∈ items) (heid : item.exitOrderId = some eid) :
    eid ∈ buildValidExitIds stored items ↔ exitInFlight stored eid = true := by
  unfold buildValidExitIds
  rw [List.mem_filter]
  exact ⟨And.right, fun h => ⟨List.mem_filterMap.mpr ⟨item, hitem, heid⟩, h⟩⟩

theorem resolvePosition_own {items : List PositionRow} {item : PositionRow}
    (hitem : item ∈ items) :
    resolvePosition item (buildValidExitIds stored items) =
      resolvePosition item (buildValidExitIds stored [item]) := by
  unfold resolvePosition
  cases heid : item.exitOrderId with
  | none => rfl
  | some eid =>
    simp only [mem_buildValidExitIds stored hitem heid,
      mem_buildValidExitIds stored (List.mem_singleton_self item) heid]

/-- What MIS square-off makes of one item. -/
def toClose (item : PositionItem) : Option MisPosition :=
  resolvePosition item.row.toPositionRow (buildValidExitIds stored [item.row.toPositionRow])

theorem scanOpenMisPositions_eq (scan : Scan PositionItem) :
    scanOpenMisPositions scan stored = (scan (·.row.misFilter) none).items.filterMap fun item =>
      (toClose stored item).map (item.key, ·) := by
  refine List.filterMap_congr fun item hitem => ?_
  have hrow := List.mem_map_of_mem (f := fun item => item.row.toPositionRow) hitem
  rw [resolvePosition_own stored hrow, toClose]

theorem closed_iff :
    SameSet (scanOpenMisPositions t.split stored) (scanOpenMisPositions t.unsplit stored) ↔
      ∀ item ∈ t.later, item.row.misFilter = true → toClose stored item = none := by
  rw [scanOpenMisPositions_eq, scanOpenMisPositions_eq]
  refine (first_page_covers_iff t.nodup t.eq_of_keyed).trans ?_
  simp only [Option.map_eq_none_iff]
  rfl

/-- The loop on the continuation key gives the answer of the unsplit table. -/
theorem unrealized_split {fuel : ℕ} (hfuel : t.pages.length < fuel) :
    getUnrealizedPnl t.split fuel = getUnrealizedPnl t.unsplit 2 := by
  have hone := followed_serve [t.pages.flatten] PositionItem.positionFilter
    (show [t.pages.flatten].length < 2 by simp)
  rw [List.flatten_singleton] at hone
  unfold getUnrealizedPnl split unsplit
  rw [followed_serve _ _ hfuel, hone]

/-- All four scans see the whole table exactly when the later pages are empty; each of them
does exactly when the later pages hold nothing for it. The loop always does. -/
theorem safety_scans_cover_iff :
    (t.ScansCover stored ↔ t.later = []) ∧
    (SameSet (getOpenManagedPositions t.split) (getOpenManagedPositions t.unsplit) ↔
      ∀ item ∈ t.later, item.managedFilter = true → item.row.parsePosition = none) ∧
    (SameSet (alertUnmanagedPositions t.split) (alertUnmanagedPositions t.unsplit) ↔
      ∀ item ∈ t.later, item.unmanagedFilter = false) ∧
    (SameSet (scanOpenMisPositions t.split stored) (scanOpenMisPositions t.unsplit stored) ↔
      ∀ item ∈ t.later, item.row.misFilter = true → toClose stored item = none) ∧
    (SameSet (scanAllPositions t.split) (scanAllPositions t.unsplit) ↔ t.later = []) ∧
    ∀ fuel > t.pages.length, getUnrealizedPnl t.split fuel = getUnrealizedPnl t.unsplit 2 := by
  refine ⟨⟨fun h => t.inspected_iff.mp h.inspected, fun h => ?_⟩, t.evaluated_iff, t.alerted_iff,
    t.closed_iff stored, t.inspected_iff, fun _ => t.unrealized_split⟩
  have hnone : ∀ item, item ∉ t.later := List.eq_nil_iff_forall_not_mem.mp h
  exact
    { evaluated := t.evaluated_iff.mpr fun item hitem => absurd hitem (hnone item)
      alerted := t.alerted_iff.mpr fun item hitem => absurd hitem (hnone item)
      closed := (t.closed_iff stored).mpr fun item hitem => absurd hitem (hnone item)
      inspected := t.inspected_iff.mpr h }

end PagedTable

/-- Two pages, with an open long whose stop no component will see. -/
def secondPageLong : PagedTable where
  pages := [[⟨"POSITION#FLAT", { direction := some .flat, quantity := some 0 }⟩],
    [⟨"POSITION#INFY", { toPositionRow := openLong, stopPrice := some 95 }⟩]]
  keys := by decide

theorem second_page_not_scanned :
    getOpenManagedPositions secondPageLong.split = [] ∧
      scanOpenMisPositions secondPageLong.split (fun _ => none) = [] ∧
      ¬ secondPageLong.ScansCover fun _ => none := by
  refine ⟨by decide +kernel, by decide +kernel, fun h => ?_⟩
  have hin : secondPageLong.later = [] := (PagedTable.inspected_iff _).mp h.inspected
  cases hin

end QuantEmbrace
