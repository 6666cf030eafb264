import QuantEmbrace.Lib.ConfigValue
import Mathlib.Data.Finset.Sort

/-! The trading universe of a day: what a data source is asked, and the snapshot of the symbols
that may be traded. The texts that explain a rejection are left out, their codes are kept. -/
namespace QuantEmbrace.Universe
open PythonValue

inductive UniverseMode where
  | paperSafeStart | paperExpand | liveAdvanced
  deriving DecidableEq, Repr

def UniverseMode.value : UniverseMode → String
  | .paperSafeStart => "PAPER_SAFE_START"
  | .paperExpand => "PAPER_EXPAND"
  | .liveAdvanced => "LIVE_ADVANCED"

inductive ExclusionReason where
  | belowLiquidityAdv | belowLiquidityVolume | belowFreeFloatMcap | spreadTooWide
  | insufficientActiveDays | lowDeliveryPct | pennyStock | asmListed | gsmListed
  | circuitFrequencyHigh | abnormalVolatility | lowFloat | poorPriceDiscovery
  | corporateActionWindow | notInIndex | notEquity | delisted | suspended | smeStock | bseOnly
  | etf | reitOrInvit | emergencyExclusion | manualExclusion | isinMismatch | symbolMasterMissing
  | dataUnavailable
  deriving DecidableEq, Repr

inductive CorporateActionType where
  | stockSplit | bonusIssue | dividend | rightsIssue | merger | demerger | symbolChange
  | suspension | delisting | tradingHalt
  deriving DecidableEq, Repr

inductive SnapshotFailureMode where
  | partialData | fallback | emergency | failed
  deriving DecidableEq, Repr

/-- A date, by its number of days. -/
abbrev Date : Type := ℤ

structure SymbolMaster where
  series : String

structure LiquidityMetrics where
  advCrores20d : Option JsonFloat
  advVolume20d : Option ℤ
  advCrores60d : Option JsonFloat
  advVolume60d : Option ℤ
  freeFloatMcapCrores : Option JsonFloat
  avgBidAskSpreadBps : Option JsonFloat
  activeDaysLast20 : Option ℤ
  deliveryPct20d : Option JsonFloat
  activeDaysLast60 : Option ℤ
  zeroVolumeDaysLast20 : Option ℤ
  dataAvailable : Bool

structure RiskMetrics where
  lastClosePrice : Option JsonFloat
  dailyVolatilityPct20d : Option JsonFloat
  circuitHitsLast20d : Option ℤ
  freeFloatPct : Option JsonFloat
  isAsmListed : Bool
  isGsmListed : Bool
  dataAvailable : Bool

structure CorporateActionEvent where
  actionType : CorporateActionType
  exDate : Date

/-- What leaves a call: `UniverseSnapshotError`, one of Python's own errors, any other
`Exception`, or a `BaseException` that no handler here names. -/
inductive Raised where
  | snapshotError (message : String)
  | exc (e : Exc)
  | other (message : String)
  | exit
  deriving DecidableEq, Repr

namespace Raised

/-- `except Exception` -/
def isException : Raised → Bool
  | .exit => false
  | _ => true

end Raised

abbrev Answer : Type → Type := Except Raised

namespace Answer
variable {α β : Type}

def ofPy : Py α → Answer α
  | .ok a => .ok a
  | .error e => .error (.exc e)

theorem ofPy_eq_ok {x : Py α} {a : α} : ofPy x = .ok a ↔ x = .ok a := by
  cases x <;> simp [ofPy]

theorem bind_eq_ok {x : Answer α} {f : α → Answer β} {b : β} :
    (x >>= f) = .ok b ↔ ∃ a, x = .ok a ∧ f a = .ok b := by
  cases x <;> simp [bind, Except.bind]

end Answer

/-- A build asks for the symbols of an index twice, and may be told two things. -/
inductive Reading where
  | candidates | membership
  deriving DecidableEq, Repr

/-- The answers of a universe data source during one build. -/
structure DataSource (S : Type) where
  sourceName : String
  getIndexSymbols : Reading → Json → Answer (Finset S)
  getAsmSymbols : Answer (Finset S)
  getGsmSymbols : Answer (Finset S)
  getSymbolMaster : S → Answer (Option SymbolMaster)
  getLiquidityMetrics : S → Date → Answer (Option LiquidityMetrics)
  getRiskMetrics : S → Date → Answer (Option RiskMetrics)
  getCorporateActions : (symbol : S) → (windowDays : ℕ) → Answer (List CorporateActionEvent)
  getExclusionLists : Answer (List (String × Finset S))

structure UniverseDecision (S : Type) where
  symbol : S
  approved : Bool
  exclusionCodes : List ExclusionReason

/-- A snapshot without symbols says why: `__post_init__` refuses any other. -/
structure UniverseSnapshot (S : Type) where
  mode : UniverseMode
  tradingDate : Date
  approvedSymbols : Finset S
  decisions : List (UniverseDecision S)
  dataSourcesUsed : Finset String
  failureMode : Option SnapshotFailureMode
  explained : approvedSymbols = ∅ → failureMode ≠ none

/-- The process a build runs in: the files it finds, the order it walks a set in, and how it
reads and quotes a text where a number is wanted. -/
structure Host (S : Type) where
  files : String → Option Json
  walk : Finset S → List S
  intOfText : Text → Option ℤ
  repr : Text → Text
  mem_walk : ∀ s x, x ∈ walk s ↔ x ∈ s

variable {S : Type}

/-- `_load_yaml(path)` -/
def Host.loadYaml (host : Host S) (path : String) : Json :=
  match host.files path with
  | some content => content.orElse (.dict [])
  | none => .dict []

end QuantEmbrace.Universe
