import QuantEmbrace.SafetyScans
import QuantEmbrace.Lib.GuardedRun
import Mathlib.Algebra.Order.BigOperators.Group.List

/-! The cycles of `RiskAnalyticsEngine`: the positions scan, the sums by sector made of it and
the one snapshot item that every cycle puts over the last. -/
namespace QuantEmbrace.Analytics
open Paging GuardedRun

/-- `round(v, 2)`, ties to even. -/
def round2 (v : ℚ) : ℚ :=
  let down := (v * 100).floor
  let rest := v * 100 - down
  let units := if rest < 1 / 2 then down
    else if 1 / 2 < rest then down + 1
    else if down % 2 = 0 then down else down + 1
  units / 100

structure FillItem where
  direction : Option String := none
  notionalValue : Option ℚ := none
  deriving DecidableEq, Repr

/-- What the reads and the put of one cycle meet; a read of none has raised, and a page is
what a request for it would show when it is made. -/
structure Cycle where
  pages : List (List PositionItem)
  pageFails : ℕ → Bool := fun _ => false
  fills : Option (List FillItem) := none
  dailyPnl : Option (List ℚ) := none
  putLands : Bool := true
  now : ℕ := 0

/-- `registry` has no sector where `get` finds no config, or raises, or there is none. -/
structure Engine where
  dynamo : Bool
  registry : String → Option String

structure Snapshot where
  sectorExposures : String → Option ℚ
  totalExposure : ℚ
  portfolioPnlToday : ℚ
  portfolioVar2pct : ℚ
  computedAt : ℕ

def symbol (item : PositionItem) : String :=
  if item.key.startsWith "POSITION#" then item.key.replace "POSITION#" "" else item.key

def qty (item : PositionItem) : ℚ := item.row.quantity.getD 0

def lastPrice (item : PositionItem) : ℚ := item.row.lastPrice.getD 0

def exposure (item : PositionItem) : ℚ := |qty item * lastPrice item|

namespace Engine
variable (e : Engine)

def sectorOf (item : PositionItem) : String := (e.registry (symbol item)).getD "UNKNOWN"

/-- `_fetch_all_positions`: what the pages gave until one of them raised. -/
def fetchAllPositions (c : Cycle) : List PositionItem :=
  if e.dynamo then
    (collected (serveUnless c.pageFails c.pages) PositionItem.positionFilter
      (c.pages.length + 1) none).getD []
  else []

/-- `_fetch_fills_today`: one request, and no fill when it raises. -/
def fetchFillsToday (c : Cycle) : List FillItem :=
  if e.dynamo then c.fills.getD [] else []

/-- The body of the loop of `_compute_sector_exposures`. -/
def addPosition (totals : String → Option ℚ) (item : PositionItem) : String → Option ℚ :=
  Function.update totals (e.sectorOf item)
    (some ((totals (e.sectorOf item)).getD 0 + exposure item))

def computeSectorExposures (positions : List PositionItem) : String → Option ℚ :=
  positions.foldl e.addPosition fun _ => none

def computePnlToday (fills : List FillItem) : ℚ :=
  (fills.map fun fill =>
    if fill.direction.getD "BUY" = "SELL" then fill.notionalValue.getD 0
    else -fill.notionalValue.getD 0).sum

/-- `_compute_var`, of at most seven records; zero for fewer than five, or when the query
raises. -/
def computeVar (c : Cycle) : ℚ :=
  match if e.dynamo then c.dailyPnl else none with
  | none => 0
  | some records =>
    if records.length < 5 then 0
    else |(records.mergeSort (· ≤ ·)).getD (2 * records.length / 100) 0|

def computeSnapshot (c : Cycle) : Snapshot where
  sectorExposures := e.computeSectorExposures (e.fetchAllPositions c)
  totalExposure := ((e.fetchAllPositions c).map exposure).sum
  portfolioPnlToday := computePnlToday (e.fetchFillsToday c)
  portfolioVar2pct := e.computeVar c
  computedAt := c.now

end Engine

/-- The numbers of the item `ANALYTICS#SNAPSHOT`. -/
def Snapshot.item (s : Snapshot) : Snapshot where
  sectorExposures sector := (s.sectorExposures sector).map round2
  totalExposure := round2 s.totalExposure
  portfolioPnlToday := round2 s.portfolioPnlToday
  portfolioVar2pct := round2 s.portfolioVar2pct
  computedAt := s.computedAt

/-- A snapshot with the cycle it comes from. -/
structure Persisted where
  snapshot : Snapshot
  cycle : Cycle

/-- The stored item, and the snapshots whose put has landed, the last one first. -/
structure World where
  row : Option Snapshot
  persisted : List Persisted

def World.start (row : Option Snapshot) : World := ⟨row, []⟩

namespace Engine
variable (e : Engine)

def persistSnapshot (w : World) (c : Cycle) (s : Snapshot) : World :=
  if e.dynamo && c.putLands then ⟨some s.item, ⟨s, c⟩ :: w.persisted⟩ else w

/-- One pass of `_analytics_loop`. -/
def pass (w : World) (c : Cycle) : World := e.persistSnapshot w c (e.computeSnapshot c)

end Engine

/-- The positions of the table at the scan. -/
def Cycle.positions (c : Cycle) : List PositionItem :=
  c.pages.flatten.filter PositionItem.positionFilter

/-- The positions on the pages from the first one that raised. -/
def Cycle.unread (c : Cycle) : List PositionItem :=
  (pagesUnread c.pageFails 0 c.pages).flatten.filter PositionItem.positionFilter

namespace Engine
variable (e : Engine)

def sectorSum (positions : List PositionItem) (sector : String) : ℚ :=
  ((positions.filter fun item => e.sectorOf item = sector).map exposure).sum

/-- Each sector has the sum over all positions at the scan. -/
def Complete (p : Persisted) : Prop :=
  ∀ sector, (p.snapshot.sectorExposures sector).getD 0 = e.sectorSum p.cycle.positions sector

/-- A scan with an unread page has put less than the positions add up to in the place of a
complete snapshot. -/
def Shrunk (w : World) : Prop :=
  ∃ new old, [new, old] <:+: w.persisted ∧
    (∃ k, k < new.cycle.pages.length ∧ new.cycle.pageFails k = true) ∧ e.Complete old ∧
    ∃ sector, (new.snapshot.sectorExposures sector).getD 0 <
      e.sectorSum new.cycle.positions sector

structure SnapshotsComplete (w : World) : Prop where
  complete : ∀ p ∈ w.persisted, e.Complete p
  notShrunk : ¬e.Shrunk w

/-- When the put lands, the positions that the scan has not reached are worth nothing. -/
def UnreadWorthless (_ : World) (c : Cycle) : Prop :=
  e.dynamo = true → c.putLands = true → ∀ item ∈ c.unread, exposure item = 0

theorem sectorSum_nil (sector : String) : e.sectorSum [] sector = 0 := rfl

theorem sectorSum_append (xs ys : List PositionItem) (sector : String) :
    e.sectorSum (xs ++ ys) sector = e.sectorSum xs sector + e.sectorSum ys sector := by
  rw [sectorSum, List.filter_append, List.map_append, List.sum_append]
  rfl

theorem exposure_le_sectorSum {positions : List PositionItem} {item : PositionItem}
    (h : item ∈ positions) : exposure item ≤ e.sectorSum positions (e.sectorOf item) := by
  refine List.single_le_sum ?_ _ (List.mem_map_of_mem (List.mem_filter.mpr ⟨h, ?_⟩))
  · intro x hx
    obtain ⟨a, -, rfl⟩ := List.mem_map.mp hx
    exact abs_nonneg _
  · exact decide_eq_true rfl

/-- No sector has a sum exactly when no position is worth anything. -/
theorem sectorSum_eq_zero_iff (positions : List PositionItem) :
    (∀ sector, e.sectorSum positions sector = 0) ↔ ∀ item ∈ positions, exposure item = 0 := by
  constructor
  · intro h item hitem
    have hle := e.exposure_le_sectorSum hitem
    rw [h] at hle
    exact le_antisymm hle (abs_nonneg _)
  · intro h sector
    refine List.sum_eq_zero fun x hx => ?_
    obtain ⟨item, hitem, rfl⟩ := List.mem_map.mp hx
    exact h item (List.mem_of_mem_filter hitem)

theorem addPosition_getD (totals : String → Option ℚ) (item : PositionItem) (sector : String) :
    (e.addPosition totals item sector).getD 0 =
      (totals sector).getD 0 + e.sectorSum [item] sector := by
  unfold addPosition sectorSum
  by_cases h : sector = e.sectorOf item
  · subst h
    simp
  · simp [Function.update_of_ne h, Ne.symm h]

theorem computeSectorExposures_getD (positions : List PositionItem) (sector : String) :
    (e.computeSectorExposures positions sector).getD 0 = e.sectorSum positions sector := by
  have hfold : ∀ totals : String → Option ℚ, (positions.foldl e.addPosition totals sector).getD 0 =
      (totals sector).getD 0 + e.sectorSum positions sector := by
    induction positions with
    | nil => intro totals; rw [List.foldl_nil, sectorSum_nil, add_zero]
    | cons item positions ih =>
      intro totals
      rw [List.foldl_cons, ih, addPosition_getD, add_assoc, ← sectorSum_append,
        List.singleton_append]
  rw [computeSectorExposures, hfold, Option.getD_none, zero_add]

/-- The scan has what the read pages show, so all positions are these and the unread ones. -/
theorem fetchAllPositions_append_unread (hd : e.dynamo = true) (c : Cycle) :
    e.fetchAllPositions c ++ c.unread = c.positions := by
  rw [fetchAllPositions, if_pos hd, collected_serveUnless _ _ _ (Nat.lt_succ_self _),
    Option.getD_some]
  exact (filter_read_append_unread _ _ _).symm

/-- A snapshot is complete exactly when nothing of worth was left unread. -/
theorem complete_computeSnapshot_iff (hd : e.dynamo = true) (c : Cycle) :
    e.Complete ⟨e.computeSnapshot c, c⟩ ↔ ∀ item ∈ c.unread, exposure item = 0 := by
  rw [← sectorSum_eq_zero_iff]
  refine forall_congr' fun sector => ?_
  rw [computeSnapshot, computeSectorExposures_getD, ← e.fetchAllPositions_append_unread hd,
    sectorSum_append]
  exact left_eq_add

/-- A scan whose pages were all read leaves nothing. -/
theorem UnreadWorthless.of_all_read {w : World} {c : Cycle}
    (h : ∀ k, k < c.pages.length → c.pageFails k = false) : e.UnreadWorthless w c := by
  intro _ _ item hitem
  rw [Cycle.unread, pagesUnread_eq_nil fun j _ hj => h j (by omega)] at hitem
  exact (List.not_mem_nil hitem).elim

variable {e}

/-- Complete snapshots fall short of nothing. -/
theorem SnapshotsComplete.of_complete {w : World} (h : ∀ p ∈ w.persisted, e.Complete p) :
    e.SnapshotsComplete w := by
  refine ⟨h, ?_⟩
  rintro ⟨new, old, hpart, -, -, sector, hlt⟩
  exact (h new (hpart.subset List.mem_cons_self) sector).not_lt hlt

/-- One pass keeps the snapshots complete exactly when its scan leaves nothing of worth. -/
theorem snapshotsComplete_pass_iff {w : World} (c : Cycle) (hw : e.SnapshotsComplete w) :
    e.SnapshotsComplete (e.pass w c) ↔ e.UnreadWorthless w c := by
  unfold pass persistSnapshot UnreadWorthless
  cases hd : e.dynamo with
  | false => simpa using hw
  | true =>
    cases hput : c.putLands with
    | false => simpa using hw
    | true =>
      simp only [Bool.and_self, if_true, forall_const]
      rw [← e.complete_computeSnapshot_iff hd]
      constructor
      · intro h
        exact h.complete _ List.mem_cons_self
      · intro h
        refine .of_complete fun p hp => ?_
        obtain rfl | hp := List.mem_cons.mp hp
        · exact h
        · exact hw.complete p hp

theorem snapshotsComplete_start (row : Option Snapshot) : e.SnapshotsComplete (.start row) :=
  .of_complete fun _ hp => (List.not_mem_nil hp).elim

/-- In every run, the persisted snapshots are complete in every state reached exactly when
each pass leaves unread only positions that are worth nothing, or does not get to put. -/
theorem sector_snapshots_complete (e : Engine) (row : Option Snapshot) (cs : List Cycle) :
    AlongRun e.pass e.SnapshotsComplete (.start row) cs ↔
      StepsMeet e.pass e.UnreadWorthless (.start row) cs :=
  alongRun_iff (I := fun _ => True) (D := fun _ => True) (fun _ _ _ _ => trivial)
    (fun _ c _ _ hw => snapshotsComplete_pass_iff c hw) cs (fun _ _ => trivial) _ trivial
    (snapshotsComplete_start row)

/-- The stored item is the last snapshot that was put, rounded. -/
theorem row_eq_last_persisted (e : Engine) (row : Option Snapshot) (cs : List Cycle) :
    AlongRun e.pass (fun w => w.row = (w.persisted.head?.map (·.snapshot.item)).or row)
      (.start row) cs := by
  refine AlongRun.of_keep
    (I := fun w : World => w.row = (w.persisted.head?.map (·.snapshot.item)).or row) ?_ rfl cs
  intro w c hw
  unfold pass persistSnapshot
  split
  · rfl
  · exact hw

section FailedPage

private def twoSectors : Engine := ⟨true, fun _ => some "IT"⟩

private def heldPages : List (List PositionItem) :=
  [[⟨"POSITION#INFY", { quantity := some 10, lastPrice := some 1500 }⟩],
    [⟨"POSITION#TCS", { quantity := some 5, lastPrice := some 3000 }⟩]]

private def wholeScan : Cycle := { pages := heldPages }

private def brokenScan : Cycle := { pages := heldPages, pageFails := fun k => k == 1, now := 60 }

/-- The second page raises: half of the exposure is put over the whole, with a new time. -/
theorem failed_page_persists_half :
    ¬(∀ (e : Engine) (row : Option Snapshot) (cs : List Cycle),
      AlongRun e.pass e.SnapshotsComplete (.start row) cs) := by
  intro h
  have hlast := (h twoSectors none [wholeScan, brokenScan]).last.complete _ List.mem_cons_self
  have hsums := hlast "IT"
  revert hsums
  decide +kernel

end FailedPage

end Engine

end QuantEmbrace.Analytics
