import Mathlib.Algebra.BigOperators.Group.List.Basic
import Mathlib.Algebra.Field.Rat

/-! The positions that the broker reports, as Kite lists them and as `get_positions` of the
broker client hands them on. -/
namespace QuantEmbrace

/-- One of the net positions of Kite. -/
structure KitePosition where
  tradingsymbol : String
  exchange : String := "NSE"
  quantity : ℚ
  averagePrice : ℚ := 0
  lastPrice : ℚ := 0
  pnl : ℚ := 0
  product : String
  deriving DecidableEq, Repr

inductive PositionValue where
  | text (s : String)
  | number (x : ℚ)
  deriving DecidableEq, Repr

/-- A dict; `lookup` is its `get`. -/
abbrev BrokerRecord := List (String × PositionValue)

/-- The dict has no key `tradingsymbol`. -/
def KitePosition.record (pos : KitePosition) : BrokerRecord :=
  [("symbol", .text pos.tradingsymbol), ("exchange", .text pos.exchange),
    ("quantity", .number pos.quantity), ("average_price", .number pos.averagePrice),
    ("last_price", .number pos.lastPrice), ("pnl", .number pos.pnl),
    ("product", .text pos.product)]

def getPositions (net : List KitePosition) : List BrokerRecord := net.map KitePosition.record

/-- All rows of the symbol together; zero if there is none. -/
def brokerNet (net : List KitePosition) (symbol : String) : ℚ :=
  ((net.filter (·.tradingsymbol = symbol)).map (·.quantity)).sum

theorem record_tradingsymbol (pos : KitePosition) :
    pos.record.lookup "tradingsymbol" = none := rfl

end QuantEmbrace
