import QuantEmbrace.MisSquareOff
import QuantEmbrace.BrokerPositions
import Mathlib.Data.List.Dedup

/-! The end of the MIS square-off: polling the broker's positions until the deadline, and
the kill switch when a symbol is still pending then. The store does not fail. -/
namespace QuantEmbrace

/-- The quantity taken from the broker's records; zero without a matching one. -/
def polledQty (records : List BrokerRecord) (symbol : String) : ℚ :=
  match records.find? fun p =>
      p.lookup "tradingsymbol" = some (.text symbol) && p.lookup "product" = some (.text "MIS") with
  | some p =>
    match p.lookup "quantity" with
    | some (.number quantity) => |quantity|
    | _ => 0
  | none => 0

/-- One pass over the pending symbols: what Kite lists when the symbol is asked for, or `none`
where the request raises. -/
abbrev PollRound := String → Option (List KitePosition)

def stillPending (round : PollRound) (symbol : String) : Bool :=
  match round symbol with
  | none => true
  | some net => polledQty (getPositions net) symbol ≠ 0

/-- `_await_fills_or_escalate`: the rounds there is time for before the deadline. -/
def awaitFills : List PollRound → List String → List String
  | [], symbolsPending => symbolsPending
  | round :: rounds, symbolsPending =>
    if symbolsPending = [] then []
    else awaitFills rounds (symbolsPending.filter (stillPending round))

def symbolsToClose (stored : String → Option OrderStatus) (table : List PositionRow) :
    List String :=
  ((getOpenMisPositions stored table).map (·.symbol)).dedup

/-- `_execute_mis_square_off` activates the kill switch. -/
def escalates (stored : String → Option OrderStatus) (table : List PositionRow)
    (rounds : List PollRound) : Prop :=
  awaitFills rounds (symbolsToClose stored table) ≠ []

/-- The table holds an open MIS position under this symbol. -/
def OpenMis (table : List PositionRow) (symbol : String) : Prop :=
  ∃ item ∈ table, item.product = some .mis ∧ (∃ q, item.quantity = some q ∧ q ≠ 0) ∧
    item.symbol.getD "UNKNOWN" = symbol

/-- The broker shows an MIS position of the symbol that is not flat. -/
def StillHeld (net : List KitePosition) (symbol : String) : Prop :=
  ∃ pos ∈ net, pos.tradingsymbol = symbol ∧ pos.product = "MIS" ∧ pos.quantity ≠ 0

/-- A symbol leaves the pending set only after a read that shows it flat. -/
def DroppedWhenFlat (rounds : List PollRound) (symbolsPending : List String) : Prop :=
  ∀ before round after, rounds = before ++ round :: after →
    ∀ symbol ∈ awaitFills before symbolsPending,
      symbol ∉ awaitFills (before ++ [round]) symbolsPending →
      ∃ net, round symbol = some net ∧ ¬ StillHeld net symbol

/-- The records carry the key `symbol`, so that no record ever matches. -/
theorem polledQty_getPositions (net : List KitePosition) (symbol : String) :
    polledQty (getPositions net) symbol = 0 := by
  have hnone : (getPositions net).find? (fun p =>
      p.lookup "tradingsymbol" = some (.text symbol) && p.lookup "product" = some (.text "MIS")) =
      none := by
    refine List.find?_eq_none.mpr fun p hp => ?_
    obtain ⟨pos, _, rfl⟩ := List.mem_map.mp hp
    simp [record_tradingsymbol]
  rw [polledQty, hnone]

/-- Any answer at all drops the symbol. -/
theorem stillPending_iff {round : PollRound} {symbol : String} :
    stillPending round symbol = true ↔ round symbol = none := by
  unfold stillPending
  cases round symbol with
  | none => simp
  | some net => simp [polledQty_getPositions]

theorem mem_awaitFills {rounds : List PollRound} {symbolsPending : List String}
    {symbol : String} :
    symbol ∈ awaitFills rounds symbolsPending ↔
      symbol ∈ symbolsPending ∧ ∀ round ∈ rounds, round symbol = none := by
  induction rounds generalizing symbolsPending with
  | nil => simp [awaitFills]
  | cons round rounds ih =>
    unfold awaitFills
    split
    · rename_i hnil
      simp [hnil]
    · rw [ih, List.mem_filter, stillPending_iff, List.forall_mem_cons, and_assoc]

/-- Whatever becomes of the orders, the kill switch is activated exactly when every read for
one of the symbols failed. -/
theorem escalates_iff (stored : String → Option OrderStatus) (table : List PositionRow)
    (rounds : List PollRound) :
    escalates stored table rounds ↔
      ∃ symbol ∈ symbolsToClose stored table, ∀ round ∈ rounds, round symbol = none := by
  rw [escalates, ne_eq, List.eq_nil_iff_forall_not_mem]
  simp only [not_forall, not_not, mem_awaitFills]

theorem droppedWhenFlat_iff (rounds : List PollRound) (symbolsPending : List String) :
    DroppedWhenFlat rounds symbolsPending ↔
      ∀ symbol ∈ symbolsPending, ∀ before round after net, rounds = before ++ round :: after →
        (∀ r ∈ before, r symbol = none) → round symbol = some net → ¬ StillHeld net symbol := by
  constructor
  · intro h symbol hin before round after net hsplit hfailed hread
    have hbefore := mem_awaitFills.mpr ⟨hin, hfailed⟩
    have hafter : symbol ∉ awaitFills (before ++ [round]) symbolsPending := by
      intro hmem
      have := (mem_awaitFills.mp hmem).2 round (by simp)
      rw [hread] at this
      cases this
    obtain ⟨net', hread', hflat⟩ := h before round after hsplit symbol hbefore hafter
    rw [hread] at hread'
    obtain rfl := Option.some.inj hread'
    exact hflat
  · intro h before round after hsplit symbol hbefore hafter
    obtain ⟨hin, hfailed⟩ := mem_awaitFills.mp hbefore
    cases hread : round symbol with
    | none =>
      refine absurd (mem_awaitFills.mpr ⟨hin, fun r hr => ?_⟩) hafter
      obtain hr | hr := List.mem_append.mp hr
      · exact hfailed r hr
      · rw [List.mem_singleton.mp hr]
        exact hread
    | some net => exact ⟨net, rfl, h symbol hin before round after net hsplit hfailed hread⟩

/-- The square-off escalates whenever a position is left exactly when none is left, or when
some symbol was never read; a symbol is dropped as flat only exactly when the first answer for
each one shows it flat. -/
theorem mis_square_off_escalates_iff (stored : String → Option OrderStatus)
    (table : List PositionRow) (rounds : List PollRound) (net : List KitePosition) :
    (((∃ symbol, OpenMis table symbol ∧ StillHeld net symbol) → escalates stored table rounds) ↔
      (∀ symbol, OpenMis table symbol → ¬ StillHeld net symbol) ∨
        ∃ symbol ∈ symbolsToClose stored table, ∀ round ∈ rounds, round symbol = none) ∧
    (DroppedWhenFlat rounds (symbolsToClose stored table) ↔
      ∀ symbol ∈ symbolsToClose stored table, ∀ before round after seen,
        rounds = before ++ round :: after → (∀ r ∈ before, r symbol = none) →
        round symbol = some seen → ¬ StillHeld seen symbol) := by
  refine ⟨?_, droppedWhenFlat_iff rounds _⟩
  rw [escalates_iff, imp_iff_not_or, not_exists]
  simp only [not_and]

/-- One long position, and a broker that shows it open from the first read to the deadline. -/
theorem mis_square_off_silent :
    StillHeld [⟨"INFY", "NSE", 10, 100, 110, 100, "MIS"⟩] "INFY" ∧ OpenMis [openLong] "INFY" ∧
      ¬ escalates (fun _ => none) [openLong]
        [fun _ => some [⟨"INFY", "NSE", 10, 100, 110, 100, "MIS"⟩]] := by
  refine ⟨⟨_, List.mem_singleton_self _, rfl, rfl, by norm_num⟩,
    ⟨_, List.mem_singleton_self _, rfl, ⟨10, rfl, by norm_num⟩, rfl⟩, ?_⟩
  rw [escalates_iff]
  rintro ⟨symbol, _, hfailed⟩
  exact nomatch hfailed _ (List.mem_singleton_self _)

end QuantEmbrace
