import QuantEmbrace.Order
import QuantEmbrace.Lib.AverageCost
import QuantEmbrace.Lib.GuardedRun
import Mathlib.Algebra.Order.Field.Rat
import Mathlib.Tactic.NormNum

/-! The position row of one symbol and `apply_fill_to_position`: what one fill
computes from the row it read, the condition of its write, and the row it leaves.
Quantities and prices are exact rationals. -/
namespace QuantEmbrace
open AverageCost GuardedRun

inductive Direction where
  | long | short | flat
  deriving DecidableEq, Repr

/-- Attributes of the positions-table item; `none` is an absent attribute, and
the row with every attribute absent is the missing item. -/
structure PositionRow where
  quantity : Option ℚ := none
  confirmedQuantity : Option ℚ := none
  avgPrice : Option ℚ := none
  avgEntryPrice : Option ℚ := none
  costBasis : Option ℚ := none
  lastPrice : Option ℚ := none
  realizedPnl : Option ℚ := none
  unrealizedPnl : Option ℚ := none
  symbol : Option String := none
  direction : Option Direction := none
  product : Option ProductType := none
  updatedAt : Option String := none
  exitOrderId : Option String := none
  exitTrigger : Option String := none
  exitState : Option String := none
  deriving DecidableEq, Repr

/-- Arguments of one `apply_fill_to_position` call, with its `utc_iso()` reading. -/
structure Fill where
  symbol : String
  side : OrderSide
  quantity : ℚ
  price : ℚ
  lastPrice : ℚ
  market : Option Market
  now : String
  deriving DecidableEq, Repr

/-- `abs(new_qty) > 1e-9` decides that a position is not flat. -/
def flatTolerance : ℚ := 1 / 1000000000

structure Figures where
  qty : ℚ
  avg : ℚ
  cost : ℚ
  realized : ℚ
  deriving DecidableEq, Repr

namespace PositionRow

def oldQty (r : PositionRow) : ℚ := r.quantity.getD (r.confirmedQuantity.getD 0)
def oldAvg (r : PositionRow) : ℚ := r.avgPrice.getD (r.avgEntryPrice.getD 0)
def oldCost (r : PositionRow) : ℚ := r.costBasis.getD (r.oldQty * r.oldAvg)
def oldRealized (r : PositionRow) : ℚ := r.realizedPnl.getD 0

def figures (r : PositionRow) : Figures := ⟨r.oldQty, r.oldAvg, r.oldCost, r.oldRealized⟩

/-- `ConditionExpression`: the stored stamp is the one read, or still absent.
An empty stamp is falsy and asks for an absent one. -/
def admits (read stored : PositionRow) : Bool :=
  match read.updatedAt with
  | some ts => if ts = "" then stored.updatedAt = none else stored.updatedAt = some ts
  | none => stored.updatedAt = none

end PositionRow

def buyFigures (old : Figures) (q p : ℚ) : Figures :=
  let newQty := old.qty + q
  let newCost := old.cost + q * p
  { qty := newQty
    avg := if |newQty| > flatTolerance then newCost / newQty else 0
    cost := newCost
    realized :=
      if old.qty < 0 then old.realized + (old.avg - p) * min q |old.qty| else old.realized }

def sellFigures (old : Figures) (q p : ℚ) : Figures :=
  let closingQty := min q (max old.qty 0)
  let realized := old.realized + (p - old.avg) * closingQty
  let newQty := old.qty - q
  if newQty > flatTolerance then ⟨newQty, old.avg, old.avg * newQty, realized⟩
  else if newQty < -flatTolerance then ⟨newQty, p, newQty * p, realized⟩
  else ⟨0, 0, 0, realized⟩

def fillFigures (old : Figures) (side : OrderSide) (q p : ℚ) : Figures :=
  match side with
  | .buy => buyFigures old q p
  | .sell => sellFigures old q p

/-- `ExpressionAttributeValues` of the position write. -/
structure PositionSet where
  figures : Figures
  last : ℚ
  unrealized : ℚ
  symbol : String
  direction : Direction
  product : ProductType
  ts : String

def directionOf (qty : ℚ) : Direction :=
  if qty > 0 then .long else if qty < 0 then .short else .flat

def unrealizedPnl (new : Figures) (last : ℚ) : ℚ :=
  if new.qty > 0 then new.qty * (last - new.avg)
  else if new.qty < 0 then |new.qty| * (new.avg - last) else 0

def positionSet (row : PositionRow) (f : Fill) : PositionSet :=
  let new := fillFigures row.figures f.side f.quantity f.price
  { figures := new
    last := f.lastPrice
    unrealized := unrealizedPnl new f.lastPrice
    symbol := f.symbol
    direction := directionOf new.qty
    product := if f.market = some .nse then .mis else .day
    ts := f.now }

/- `UpdateExpression`: an open position drops the exit attributes of an earlier
   exit, a flat one keeps them. -/
def PositionSet.write (s : PositionSet) (stored : PositionRow) : PositionRow :=
  let keep := fun (a : Option String) => if s.direction = .flat then a else none
  { quantity := some s.figures.qty
    confirmedQuantity := some s.figures.qty
    avgPrice := some s.figures.avg
    avgEntryPrice := some s.figures.avg
    costBasis := some s.figures.cost
    lastPrice := some s.last
    realizedPnl := some s.figures.realized
    unrealizedPnl := some s.unrealized
    symbol := some s.symbol
    direction := some s.direction
    product := some s.product
    updatedAt := some s.ts
    exitOrderId := keep stored.exitOrderId
    exitTrigger := keep stored.exitTrigger
    exitState := keep stored.exitState }

/-- One undisturbed call: read, compute, write. -/
def applyFillToPosition (row : PositionRow) (f : Fill) : PositionRow :=
  (positionSet row f).write row

@[simp] theorem applyFill_figures (row : PositionRow) (f : Fill) :
    (applyFillToPosition row f).figures =
      fillFigures row.figures f.side f.quantity f.price := rfl

/-- A fill of a positive whole number of shares at a positive price. -/
structure Fill.Whole (f : Fill) : Prop where
  shares : ∃ n : ℕ, 0 < n ∧ f.quantity = n
  price : 0 < f.price

theorem Fill.Whole.quantity_pos {f : Fill} (h : f.Whole) : 0 < f.quantity := by
  obtain ⟨n, hn, hq⟩ := h.shares
  rw [hq]
  exact_mod_cast hn

def OrderSide.signed (side : OrderSide) (q : ℚ) : ℚ :=
  match side with
  | .buy => q
  | .sell => -q

/-- The position as the average-cost book the ledger is meant to keep. -/
def Figures.book (x : Figures) : Book ℚ := ⟨x.qty, x.avg, x.realized⟩

def IsWhole (x : ℚ) : Prop := ∃ n : ℤ, x = n

theorem IsWhole.zero_or_gt {x : ℚ} (h : IsWhole x) : x = 0 ∨ |x| > flatTolerance := by
  obtain ⟨n, rfl⟩ := h
  by_cases hn : n = 0
  · simp [hn]
  · right
    have h1 : (1 : ℚ) ≤ |(n : ℚ)| := by exact_mod_cast Int.one_le_abs hn
    have h2 : flatTolerance < 1 := by norm_num [flatTolerance]
    linarith

theorem IsWhole.add_fill {x : ℚ} (h : IsWhole x) {f : Fill} (hf : f.Whole) (side : OrderSide) :
    IsWhole (x + side.signed f.quantity) := by
  obtain ⟨n, rfl⟩ := h
  obtain ⟨k, _, hk⟩ := hf.shares
  cases side with
  | buy => exact ⟨n + k, by simp [OrderSide.signed, hk]⟩
  | sell => exact ⟨n - k, by simp [OrderSide.signed, hk, sub_eq_add_neg]⟩

end QuantEmbrace
