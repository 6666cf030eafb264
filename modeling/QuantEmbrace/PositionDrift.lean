import QuantEmbrace.Reconciliation
import QuantEmbrace.BrokerPositions
import Mathlib.Data.List.Dedup

/-! `PositionMonitor`: one poll cycle after a successful read compares the positions the
broker reports with what the order manager takes for the open positions. -/
namespace QuantEmbrace

/-- `_OPEN_STATUSES`, each of which is queried on its own. -/
def openStatuses : List OrderStatus := [.pending, .ackUnknown, .placed, .partiallyFilled]

def getOpenOrders (orders : List StoredOrder) : List StoredOrder :=
  openStatuses.flatMap fun status => orders.filter (·.row.status = status)

/-- Alias of `get_open_orders`. -/
def getAllOpenPositions (orders : List StoredOrder) : List StoredOrder := getOpenOrders orders

/-- The value a dict comprehension leaves under a key: the last one. -/
def dictGet (entries : List (String × ℚ)) (key : String) : Option ℚ := entries.reverse.lookup key

def dictKeys (entries : List (String × ℚ)) : List String := (entries.map Prod.fst).dedup

/-- The `symbol` of a record is the `tradingsymbol` of the position. -/
def brokerMap (net : List KitePosition) : List (String × ℚ) :=
  net.map fun pos => (pos.tradingsymbol, pos.quantity)

def dynamoMap (orders : List StoredOrder) : List (String × ℚ) :=
  (getAllOpenPositions orders).map fun pos => (pos.symbol, pos.quantity)

/-- A call of `_handle_drift`, which activates the kill switch for the symbol. -/
structure Drift where
  symbol : String
  brokerQty : ℚ
  dynamoQty : ℚ
  source : String
  deriving DecidableEq, Repr

def driftTolerance : ℚ := 1 / 1000

/-- `_poll_cycle` from the broker's answer on. -/
def pollPositions (net : List KitePosition) (orders : List StoredOrder) : List Drift :=
  if net = [] then
    (getAllOpenPositions orders).map fun pos =>
      ⟨pos.symbol, 0, pos.quantity, "broker_empty_dynamo_open"⟩
  else
    let broker := brokerMap net
    let dynamo := dynamoMap orders
    ((dictKeys broker).filterMap fun symbol =>
      let brokerQty := (dictGet broker symbol).getD 0
      let dynamoQty := (dictGet dynamo symbol).getD 0
      if |brokerQty - dynamoQty| > driftTolerance then
        some ⟨symbol, brokerQty, dynamoQty, "broker_vs_dynamo"⟩
      else none) ++
    (dictKeys dynamo).filterMap fun symbol =>
      let dynamoQty := (dictGet dynamo symbol).getD 0
      if symbol ∉ dictKeys broker ∧ |dynamoQty| > driftTolerance then
        some ⟨symbol, 0, dynamoQty, "dynamo_only"⟩
      else none

def DriftFlagged (net : List KitePosition) (orders : List StoredOrder) (symbol : String) : Prop :=
  ∃ drift ∈ pollPositions net orders, drift.symbol = symbol

/-- The broker holds what the positions table says. -/
def PositionMatches (net : List KitePosition) (positions : String → PositionRow)
    (symbol : String) : Prop :=
  |brokerNet net symbol - (positions symbol).quantity.getD 0| ≤ driftTolerance

/-- The open orders of the symbol look like what the broker holds: none is open while nothing
is reported at all, else the last of them is for the quantity of the last row. -/
def OrdersMatch (net : List KitePosition) (orders : List StoredOrder) (symbol : String) : Prop :=
  if net = [] then ∀ order ∈ getOpenOrders orders, order.symbol ≠ symbol
  else |(dictGet (brokerMap net) symbol).getD 0 - (dictGet (dynamoMap orders) symbol).getD 0| ≤
    driftTolerance

/-- Flagged exactly where the stored position differs from the broker's. -/
def DriftExact (net : List KitePosition) (orders : List StoredOrder)
    (positions : String → PositionRow) : Prop :=
  ∀ symbol, DriftFlagged net orders symbol ↔ ¬ PositionMatches net positions symbol

section Dict
variable {entries : List (String × ℚ)} {key : String}

theorem mem_dictKeys : key ∈ dictKeys entries ↔ ∃ value, (key, value) ∈ entries := by
  simp [dictKeys]

theorem dictGet_eq_none (h : key ∉ dictKeys entries) : dictGet entries key = none := by
  rw [dictGet, List.lookup_eq_none_iff]
  intro p hp
  rw [bne_iff_ne]
  rintro rfl
  exact h (mem_dictKeys.mpr ⟨p.2, List.mem_reverse.mp hp⟩)

end Dict

section Poll
variable (net : List KitePosition) (orders : List StoredOrder) (positions : String → PositionRow)
  (symbol : String)

theorem driftFlagged_empty :
    DriftFlagged [] orders symbol ↔ ¬ OrdersMatch [] orders symbol := by
  simp only [DriftFlagged, pollPositions, OrdersMatch, if_true, List.mem_map, getAllOpenPositions,
    not_forall, not_not]
  constructor
  · rintro ⟨_, ⟨order, horder, rfl⟩, hsym⟩
    exact ⟨order, horder, hsym⟩
  · rintro ⟨order, horder, hsym⟩
    exact ⟨_, ⟨order, horder, rfl⟩, hsym⟩

/-- A symbol that only one of the two dicts has is compared with zero. -/
theorem driftFlagged_reported (hnet : net ≠ []) :
    DriftFlagged net orders symbol ↔ ¬ OrdersMatch net orders symbol := by
  rw [OrdersMatch, if_neg hnet, not_le, DriftFlagged, pollPositions, if_neg hnet]
  simp only [List.mem_append, List.mem_filterMap]
  constructor
  · rintro ⟨drift, ⟨key, hkey, hdrift⟩ | ⟨key, hkey, hdrift⟩, rfl⟩
    · obtain ⟨hlt, hdrift⟩ := Option.ite_none_right_eq_some.mp hdrift
      obtain rfl := Option.some.inj hdrift
      exact hlt
    · obtain ⟨⟨hbroker, hlt⟩, hdrift⟩ := Option.ite_none_right_eq_some.mp hdrift
      obtain rfl := Option.some.inj hdrift
      rw [dictGet_eq_none hbroker, Option.getD_none, zero_sub, abs_neg]
      exact hlt
  · intro hlt
    by_cases hbroker : symbol ∈ dictKeys (brokerMap net)
    · exact ⟨_, Or.inl ⟨symbol, hbroker, if_pos hlt⟩, rfl⟩
    · rw [dictGet_eq_none hbroker, Option.getD_none, zero_sub, abs_neg] at hlt
      have hdynamo : symbol ∈ dictKeys (dynamoMap orders) := by
        by_contra hout
        rw [dictGet_eq_none hout, Option.getD_none, abs_zero] at hlt
        exact absurd hlt (by norm_num [driftTolerance])
      exact ⟨_, Or.inr ⟨symbol, hdynamo, if_pos ⟨hbroker, hlt⟩⟩, rfl⟩

/-- A poll never looks at the stored positions. -/
theorem driftFlagged_iff : DriftFlagged net orders symbol ↔ ¬ OrdersMatch net orders symbol := by
  by_cases hnet : net = []
  · subst hnet
    exact driftFlagged_empty orders symbol
  · exact driftFlagged_reported net orders symbol hnet

/-- The position is right and the open orders look otherwise. -/
def FalseAlarm : Prop :=
  PositionMatches net positions symbol ∧ ¬ OrdersMatch net orders symbol

/-- The position is wrong and the open orders look like the broker's. -/
def MissedDrift : Prop :=
  ¬ PositionMatches net positions symbol ∧ OrdersMatch net orders symbol

theorem position_drift_exact_iff :
    DriftExact net orders positions ↔
      ∀ symbol, ¬ FalseAlarm net orders positions symbol ∧
        ¬ MissedDrift net orders positions symbol := by
  refine forall_congr' fun symbol => ?_
  rw [driftFlagged_iff, FalseAlarm, MissedDrift]
  tauto

end Poll

def infyTen : KitePosition where
  tradingsymbol := "INFY"
  quantity := 10
  product := "MIS"

/-- An order for ten shares that is open at the broker. -/
def openBuy : StoredOrder where
  orderId := "o1"
  signalId := "s1"
  riskDecisionId := "r1"
  symbol := "INFY"
  market := .nse
  side := .buy
  quantity := 10
  row := { OrderRow.reserved with status := .placed }

/-- A matching position with no order open is flagged; a position that is not stored is not
flagged while an order for as much is open. -/
theorem position_drift_wrong_both_ways :
    ¬ DriftExact [infyTen] [] (fun _ => { quantity := some 10 }) ∧
      ¬ DriftExact [infyTen] [openBuy] (fun _ => {}) := by
  have hnet : [infyTen] ≠ [] := List.cons_ne_nil _ _
  constructor
  · intro h
    have hsym := h "INFY"
    rw [driftFlagged_iff, not_iff_not, OrdersMatch, if_neg hnet, PositionMatches] at hsym
    revert hsym
    decide +kernel
  · intro h
    have hsym := h "INFY"
    rw [driftFlagged_iff, not_iff_not, OrdersMatch, if_neg hnet, PositionMatches] at hsym
    revert hsym
    decide +kernel

end QuantEmbrace
