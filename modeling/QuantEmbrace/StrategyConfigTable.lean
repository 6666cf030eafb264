import QuantEmbrace.EmissionGate
import QuantEmbrace.Lib.KeyedTable
import QuantEmbrace.Lib.PythonInt
import QuantEmbrace.Lib.PythonValue

/-! The table of strategy configurations between three programs: the command line that writes it,
the loader that refreshes the runners from it, and the check before going live. -/
namespace QuantEmbrace.Strategies.ConfigTable

structure RowKey where
  pk : String
  sk : String
  deriving DecidableEq, Repr

inductive Attribute where
  | bool (b : Bool)
  | number (q : ℚ)
  | text (s : String)
  | null
  deriving DecidableEq, Repr

namespace Attribute

/-- An `int` is stored as a number. -/
def int (n : ℤ) : Attribute := .number n

/-- `bool(value)` -/
def truthy : Attribute → Bool
  | bool b => b
  | number q => q ≠ 0
  | text s => s ≠ ""
  | null => false

/-- `int(value)`, if it does not raise -/
def toInt : Attribute → Option ℤ
  | bool b => some (if b then 1 else 0)
  | number q => some (PythonValue.Json.truncate q)
  | text s => PythonInt.parse s.toList
  | null => none

end Attribute

structure Row where
  key : RowKey
  attributes : List (String × Attribute) := []
  deriving DecidableEq, Repr

namespace Row
variable (r : Row) (name : String)

def get : Option Attribute := r.attributes.lookup name

def set (value : Attribute) : Row :=
  { r with attributes := (name, value) :: r.attributes.filter fun a => a.1 ≠ name }

/-- The assignments of one `SET`; their names differ. -/
def setAll (updates : List (String × Attribute)) : Row :=
  updates.foldr (fun u r => r.set u.1 u.2) r

@[simp] theorem key_setAll (updates : List (String × Attribute)) :
    (r.setAll updates).key = r.key := by
  induction updates with
  | nil => rfl
  | cons u updates ih => exact ih

theorem lookup_filter_ne {other : String} (h : name ≠ other) (l : List (String × Attribute)) :
    (l.filter fun a => a.1 ≠ other).lookup name = l.lookup name := by
  induction l with
  | nil => rfl
  | cons a l ih =>
    by_cases ha : a.1 = other
    · have hne : name ≠ a.1 := fun he => h (he.trans ha)
      rw [List.filter_cons_of_neg (by simpa using ha), List.lookup_cons, beq_false_of_ne hne]
      exact ih
    · rw [List.filter_cons_of_pos (by simpa using ha), List.lookup_cons, List.lookup_cons, ih]

theorem get_set (other : String) (value : Attribute) :
    (r.set other value).get name = if name = other then some value else r.get name := by
  rw [get, set, List.lookup_cons]
  by_cases h : name = other
  · rw [if_pos h, beq_iff_eq.mpr h]
  · rw [if_neg h, beq_false_of_ne h]
    exact lookup_filter_ne name h r.attributes

theorem get_setAll (updates : List (String × Attribute)) :
    (r.setAll updates).get name = (updates.lookup name).or (r.get name) := by
  induction updates with
  | nil => rfl
  | cons u updates ih =>
    change ((r.setAll updates).set u.1 u.2).get name = _
    rw [get_set, List.lookup_cons]
    by_cases h : name = u.1
    · rw [if_pos h, beq_iff_eq.mpr h, Option.some_or]
    · rw [if_neg h, beq_false_of_ne h]
      exact ih

end Row

abbrev Table : Type := KeyedTable Row.key

/-- `update_item`: what is not there yet is created. -/
def updateItem (k : RowKey) (updates : List (String × Attribute)) (t : Table) : Table :=
  t.put (((t.get k).getD ⟨k, []⟩).setAll updates)

section UpdateItem
variable (k : RowKey) (updates : List (String × Attribute)) (t : Table)

theorem key_updated : (((t.get k).getD ⟨k, []⟩).setAll updates).key = k := by
  rw [Row.key_setAll]
  cases h : t.get k with
  | none => rfl
  | some r => exact KeyedTable.key_of_get h

theorem get_updateItem : (updateItem k updates t).get k =
    some (((t.get k).getD ⟨k, []⟩).setAll updates) := by
  have hput := t.get_put_self (((t.get k).getD ⟨k, []⟩).setAll updates)
  rwa [key_updated] at hput

theorem get_updateItem_of_ne {j : RowKey} (h : j ≠ k) :
    (updateItem k updates t).get j = t.get j :=
  KeyedTable.get_put_of_ne (by rwa [key_updated]) t

end UpdateItem

section CommandLine

def cliKey (strategyName env : String) : RowKey := ⟨"STRATEGY#" ++ strategyName, "CONFIG#" ++ env⟩

/-- The names of the fields as attributes -/
def fieldNames : List String :=
  ["enabled", "paper_trade", "max_signals_per_day", "circuit_breaker_threshold_consecutive",
    "circuit_breaker_threshold_rate"]

/-- The fields that one command sets. -/
structure Fields where
  enabled : Option Bool := none
  paperTrade : Option Bool := none
  maxSignalsPerDay : Option ℤ := none
  cbConsecutive : Option ℤ := none
  cbRate : Option ℤ := none
  deriving DecidableEq, Repr

namespace Fields

/-- What an attribute is set to, if its field is one of those. -/
def value (f : Fields) : String → Option Attribute
  | "enabled" => f.enabled.map .bool
  | "paper_trade" => f.paperTrade.map .bool
  | "max_signals_per_day" => f.maxSignalsPerDay.map .int
  | "circuit_breaker_threshold_consecutive" => f.cbConsecutive.map .int
  | "circuit_breaker_threshold_rate" => f.cbRate.map .int
  | _ => none

/-- `updates`, before the stamp is added -/
def updates (f : Fields) : List (String × Attribute) :=
  fieldNames.filterMap fun name => (f.value name).map fun value => (name, value)

/-- The later assignment counts. -/
def overlay (new old : Fields) : Fields where
  enabled := new.enabled.or old.enabled
  paperTrade := new.paperTrade.or old.paperTrade
  maxSignalsPerDay := new.maxSignalsPerDay.or old.maxSignalsPerDay
  cbConsecutive := new.cbConsecutive.or old.cbConsecutive
  cbRate := new.cbRate.or old.cbRate

end Fields

/-- `_KNOWN_STRATEGIES`, with their daily caps -/
def knownStrategies : List (String × ℤ) := [
  ("nse_momentum_v1", 20),
  ("us_momentum_v1", 10),
  ("nse_orb_15m", 4),
  ("nse_scalp_1m", 6),
  ("nse_vwap_reversion", 5),
  ("nse_intraday_trend_15m", 4),
  ("nse_preclose_momentum", 3)]

inductive Command where
  | set (strategy : String) (fields : Fields)
  | seed
  | enable (strategy : String)
  | disable (strategy : String)
  | goLive (strategy confirm : String)
  | paper (strategy : String)
  deriving DecidableEq, Repr

/-- What `main` calls `cmd_set` with; a promotion must be confirmed with the strategy's name. -/
def Command.assignment : Command → Option (String × Fields)
  | set strategy fields => some (strategy, fields)
  | seed => none
  | enable strategy => some (strategy, { enabled := some true })
  | disable strategy => some (strategy, { enabled := some false })
  | goLive strategy confirm =>
    if PythonInt.strip confirm.toList = strategy.toList then
      some (strategy, { paperTrade := some false })
    else none
  | paper strategy => some (strategy, { paperTrade := some true })

/-- One call of the script that can write. -/
structure Invocation where
  env : String
  operator : String
  nowIso : String
  command : Command
  deriving DecidableEq, Repr

namespace Invocation
variable (i : Invocation) (t : Table)

def stamp : List (String × Attribute) :=
  [("updated_at", .text i.nowIso), ("updated_by", .text i.operator)]

/-- `cmd_set`; without a field it is an error. -/
def cmdSet (strategyName : String) (fields : Fields) : Table :=
  if fields.updates = [] then t
  else updateItem (cliKey strategyName i.env) (fields.updates ++ i.stamp) t

def seedRow (strategyName : String) (maxSignals : ℤ) : Row where
  key := cliKey strategyName i.env
  attributes := [
    ("enabled", .bool true),
    ("paper_trade", .bool true),
    ("max_signals_per_day", .int maxSignals),
    ("circuit_breaker_threshold_consecutive", .int 5),
    ("circuit_breaker_threshold_rate", .int 10),
    ("circuit_breaker_state", .text "CLOSED"),
    ("circuit_breaker_opened_at", .null),
    ("circuit_breaker_reset", .bool false)] ++ i.stamp

/-- The puts of `cmd_seed`, each on the condition that its row is not there. -/
def seedAll (strategies : List (String × ℤ)) : Table :=
  strategies.foldl (fun t known => t.putNew (i.seedRow known.1 known.2)) t

def cmdSeed : Table := i.seedAll t knownStrategies

/-- `main` -/
def main : Table :=
  if i.command = .seed then i.cmdSeed t
  else
    match i.command.assignment with
    | some (strategy, fields) => i.cmdSet t strategy fields
    | none => t

end Invocation

def runCli (invocations : List Invocation) (t : Table) : Table :=
  invocations.foldl (fun t i => i.main t) t

end CommandLine

section Loader
variable (lower : String → String)

/-- `_normalize_environment` -/
def normalizeEnvironment (env : String) : String :=
  let text := String.ofList (PythonInt.strip env.toList)
  let text := if "environment.".toList <+: (lower text).toList then
      String.ofList ((text.toList.dropWhile (· ≠ '.')).drop 1)
    else text
  let text := lower text
  if text = "dev" then "development"
  else if text = "prod" then "production"
  else if text = "stage" then "staging"
  else text

def loaderKey (strategyName env : String) : RowKey :=
  ⟨"STRATEGY_CONFIG#" ++ strategyName, "ENV#" ++ normalizeEnvironment lower env⟩

/-- `_DEFAULT_CONFIG`, for a strategy without a row -/
def defaultConfig : StrategyConfig where
  enabled := true
  paperTrade := true
  maxSignalsPerDay := 10
  circuitBreakerThresholdConsecutive := 5
  circuitBreakerThresholdRate := 10

/-- The configuration in a row; there is none where a number cannot be read. -/
def Row.config (row : Row) : Option StrategyConfig := do
  let maxSignals ← (row.get "max_signals_per_day").elim (some 0) Attribute.toInt
  let consecutive ← (row.get "circuit_breaker_threshold_consecutive").elim (some 5) Attribute.toInt
  let rate ← (row.get "circuit_breaker_threshold_rate").elim (some 10) Attribute.toInt
  return {
    enabled := (row.get "enabled").elim true Attribute.truthy
    paperTrade := (row.get "paper_trade").elim true Attribute.truthy
    maxSignalsPerDay := maxSignals
    circuitBreakerThresholdConsecutive := consecutive
    circuitBreakerThresholdRate := rate }

/-- `_load_config`, with `reset_cb` -/
def loadConfig (env : String) (t : Table) (strategyName : String) :
    Option (StrategyConfig × Bool) :=
  match t.get (loaderKey lower strategyName env) with
  | none => some (defaultConfig, false)
  | some row => row.config.map fun config =>
    (config, (row.get "circuit_breaker_reset").elim false Attribute.truthy)

/-- `_clear_reset_flag` -/
def clearResetFlag (env nowIso strategyName : String) (t : Table) : Table :=
  updateItem (loaderKey lower strategyName env) [
    ("circuit_breaker_reset", .bool false),
    ("updated_at", .text nowIso),
    ("updated_by", .text "strategy_engine:auto_clear_reset")] t

/-- `refresh_all` for one runner; an exception leaves it as it is. -/
def refresh (env nowIso strategyName : String) (t : Table) (runner : Gate) : Table × Gate :=
  match loadConfig lower env t strategyName with
  | none => (t, runner)
  | some (config, resetCb) =>
    (if resetCb then clearResetFlag lower env nowIso strategyName t else t,
      runner.applyConfig config resetCb)

/-- `refresh_all`, over the runners by their names -/
def refreshAll (env nowIso : String) : Table → List (String × Gate) → Table × List (String × Gate)
  | t, [] => (t, [])
  | t, (strategyName, runner) :: rest =>
    let (t, runner) := refresh lower env nowIso strategyName t runner
    let (t, rest) := refreshAll env nowIso t rest
    (t, (strategyName, runner) :: rest)

end Loader

section LiveGate

/-- The rows that the scan of `_check_allowed_strategies_configured` finds and that are enabled -/
def liveRows (t : Table) : List Row :=
  (t.rows.filter fun row => row.get "paper_trade" = some (.bool false)).filter
    fun row => row.get "enabled" = some (.bool true)

/-- `pk.removeprefix("STRATEGY_CONFIG#")` -/
def strategyOf (pk : String) : String :=
  String.ofList ((("STRATEGY_CONFIG#".toList).isPrefixOf? pk.toList).getD pk.toList)

/-- The check passes with the names of the live strategies, if there is one. -/
def checkAllowedStrategies (t : Table) : Option (List String) :=
  if liveRows t = [] then none else some ((liveRows t).map fun row => strategyOf row.key.pk)

end LiveGate

section Keys
variable {lower : String → String} {a b env env' : String}

theorem cliKey_inj (h : cliKey a env = cliKey b env') : a = b ∧ env = env' := by
  have hpk : "STRATEGY#" ++ a = "STRATEGY#" ++ b := congrArg RowKey.pk h
  have hsk : "CONFIG#" ++ env = "CONFIG#" ++ env' := congrArg RowKey.sk h
  exact ⟨(String.append_right_inj _).mp hpk, (String.append_right_inj _).mp hsk⟩

theorem loaderKey_inj (h : loaderKey lower a env = loaderKey lower b env) : a = b := by
  have hpk : "STRATEGY_CONFIG#" ++ a = "STRATEGY_CONFIG#" ++ b := congrArg RowKey.pk h
  exact (String.append_right_inj _).mp hpk

/-- The two programs never mean the same row. -/
theorem cliKey_ne_loaderKey : cliKey a env ≠ loaderKey lower b env' := by
  intro h
  have hpk : "STRATEGY#" ++ a = "STRATEGY_CONFIG#" ++ b := congrArg RowKey.pk h
  simpa using congrArg String.toList hpk

end Keys

namespace Fields
variable {f new old : Fields} {name : String}

theorem lookup_filterMap (v : String → Option Attribute) (names : List String) :
    (names.filterMap fun n => (v n).map fun value => (n, value)).lookup name =
      if name ∈ names then v name else none := by
  induction names with
  | nil => rfl
  | cons n names ih =>
    rw [List.filterMap_cons]
    by_cases h : name = n
    · subst h
      cases hv : v name with
      | none => simp [ih, hv]
      | some value => simp
    · cases hv : v n with
      | none => simp [ih, h]
      | some value => simp [List.lookup_cons, beq_false_of_ne h, ih, h]

theorem lookup_updates (h : name ∈ fieldNames) : f.updates.lookup name = f.value name := by
  rw [updates, lookup_filterMap, if_pos h]

theorem updates_eq_nil : f.updates = [] ↔ f = {} := by
  rw [updates, List.filterMap_eq_nil_iff]
  constructor
  · intro h
    cases f
    simpa [fieldNames, value] using h
  · rintro rfl
    simp [fieldNames, value]

theorem value_overlay : (new.overlay old).value name = (new.value name).or (old.value name) := by
  simp only [value, overlay]
  split <;> simp [Option.map_or]

theorem empty_overlay : ({} : Fields).overlay old = old := by
  simp [overlay]

theorem overlay_ne_empty (h : new ≠ {}) : new.overlay old ≠ {} := by
  intro he
  apply h
  rw [← updates_eq_nil, updates, List.filterMap_eq_nil_iff] at he ⊢
  intro name hname
  have hvalue := he name hname
  rw [Option.map_eq_none_iff, value_overlay, Option.or_eq_none_iff] at hvalue
  rw [hvalue.1, Option.map_none]

end Fields

section History
variable (name env : String)

/-- The five fields of a seeded row -/
def seedFields (maxSignals : ℤ) : Fields :=
  ⟨some true, some true, some maxSignals, some 5, some 10⟩

/-- What was last written for a strategy in an environment, after one more call. A row is there
from the first field that is written. -/
def record (w : Fields) (i : Invocation) : Fields :=
  if i.env ≠ env then w
  else if i.command = .seed then
    if w = {} then ((knownStrategies.lookup name).map seedFields).getD {} else w
  else
    match i.command.assignment with
    | some (strategy, fields) => if strategy = name then fields.overlay w else w
    | none => w

def written (invocations : List Invocation) : Fields := invocations.foldl (record name env) {}

end History

/-- A row has what was written, and is missing if nothing was. -/
inductive Holds : Option Row → Fields → Prop where
  | missing : Holds none {}
  | present {row : Row} {w : Fields} (hwritten : w ≠ {})
      (hget : ∀ n ∈ fieldNames, row.get n = w.value n) : Holds (some row) w

section CliRun
variable {name env : String} {t : Table} {i : Invocation} {w : Fields}

theorem stamp_lookup {n : String} (h : n ∈ fieldNames) : i.stamp.lookup n = none := by
  simp only [fieldNames, List.mem_cons, List.not_mem_nil, or_false] at h
  obtain rfl | rfl | rfl | rfl | rfl := h <;> rfl

theorem seedRow_get {n : String} (h : n ∈ fieldNames) (maxSignals : ℤ) :
    (i.seedRow name maxSignals).get n = (seedFields maxSignals).value n := by
  simp only [fieldNames, List.mem_cons, List.not_mem_nil, or_false] at h
  obtain rfl | rfl | rfl | rfl | rfl := h <;> rfl

theorem holds_cmdSet (fields : Fields) (h : Holds (t.get (cliKey name i.env)) w) :
    Holds ((i.cmdSet t name fields).get (cliKey name i.env)) (fields.overlay w) := by
  rw [Invocation.cmdSet]
  by_cases hfields : fields = {}
  · rw [if_pos (Fields.updates_eq_nil.mpr hfields), hfields, Fields.empty_overlay]
    exact h
  · rw [if_neg (mt Fields.updates_eq_nil.mp hfields), get_updateItem]
    refine .present (Fields.overlay_ne_empty hfields) fun n hn => ?_
    have hold : ((t.get (cliKey name i.env)).getD ⟨cliKey name i.env, []⟩).get n = w.value n := by
      generalize t.get (cliKey name i.env) = row at h
      cases h with
      | missing =>
        simp only [fieldNames, List.mem_cons, List.not_mem_nil, or_false] at hn
        obtain rfl | rfl | rfl | rfl | rfl := hn <;> rfl
      | present hwritten hget => exact hget n hn
    rw [Row.get_setAll, hold, List.lookup_append, Fields.lookup_updates hn, stamp_lookup hn,
      Option.or_none, Fields.value_overlay]

theorem get_cmdSet_of_ne {k : RowKey} {strategy : String} (h : k ≠ cliKey strategy i.env)
    (fields : Fields) : (i.cmdSet t strategy fields).get k = t.get k := by
  rw [Invocation.cmdSet]
  split
  · rfl
  · exact get_updateItem_of_ne _ _ t h

/-- A row that is there stays, the first put of a strategy without one makes one. -/
theorem get_seedAll (strategies : List (String × ℤ)) (t : Table) :
    (i.seedAll t strategies).get (cliKey name i.env) =
      (t.get (cliKey name i.env)).or ((strategies.lookup name).map (i.seedRow name)) := by
  induction strategies generalizing t with
  | nil => simp [Invocation.seedAll]
  | cons known strategies ih =>
    change (i.seedAll (t.putNew (i.seedRow known.1 known.2)) strategies).get _ = _
    rw [ih, List.lookup_cons]
    by_cases h : name = known.1
    · rw [beq_iff_eq.mpr h, Option.map_some, h]
      have hput := t.get_putNew_self (i.seedRow known.1 known.2)
      rw [show (i.seedRow known.1 known.2).key = cliKey known.1 i.env from rfl] at hput
      rw [hput, Option.or_assoc, Option.some_or]
    · have hkey : cliKey name i.env ≠ (i.seedRow known.1 known.2).key :=
        fun hk => h (cliKey_inj hk).1
      rw [beq_false_of_ne h, KeyedTable.get_putNew_of_ne hkey]

theorem get_seedAll_of_ne {k : RowKey} (h : ∀ strategy, k ≠ cliKey strategy i.env)
    (strategies : List (String × ℤ)) (t : Table) : (i.seedAll t strategies).get k = t.get k := by
  induction strategies generalizing t with
  | nil => rfl
  | cons known strategies ih =>
    change (i.seedAll (t.putNew (i.seedRow known.1 known.2)) strategies).get k = _
    have hkey : k ≠ (i.seedRow known.1 known.2).key := h known.1
    rw [ih, KeyedTable.get_putNew_of_ne hkey]

theorem holds_cmdSeed (h : Holds (t.get (cliKey name i.env)) w) :
    Holds ((i.cmdSeed t).get (cliKey name i.env))
      (if w = {} then ((knownStrategies.lookup name).map seedFields).getD {} else w) := by
  rw [Invocation.cmdSeed, get_seedAll]
  generalize t.get (cliKey name i.env) = row at h ⊢
  cases h with
  | present hwritten hget =>
    rw [Option.some_or, if_neg hwritten]
    exact .present hwritten hget
  | missing =>
    rw [Option.none_or, if_pos rfl]
    cases knownStrategies.lookup name with
    | none => exact .missing
    | some maxSignals =>
      exact .present (by simp [seedFields]) fun n hn => seedRow_get hn maxSignals

theorem get_main_of_ne {k : RowKey} (h : ∀ strategy, k ≠ cliKey strategy i.env) :
    (i.main t).get k = t.get k := by
  rw [Invocation.main]
  split
  · exact get_seedAll_of_ne h _ t
  · split
    · exact get_cmdSet_of_ne (h _) _
    · rfl

theorem holds_main (h : Holds (t.get (cliKey name env)) w) :
    Holds ((i.main t).get (cliKey name env)) (record name env w i) := by
  rw [record]
  by_cases henv : i.env = env
  · subst henv
    rw [if_neg (not_not.mpr rfl), Invocation.main]
    by_cases hseed : i.command = .seed
    · rw [if_pos hseed, if_pos hseed]
      exact holds_cmdSeed h
    · rw [if_neg hseed, if_neg hseed]
      cases i.command.assignment with
      | none => exact h
      | some assigned =>
        obtain ⟨strategy, fields⟩ := assigned
        dsimp only
        by_cases hname : strategy = name
        · subst hname
          rw [if_pos rfl]
          exact holds_cmdSet fields h
        · have hkey : cliKey name i.env ≠ cliKey strategy i.env :=
            fun hk => hname (cliKey_inj hk).1.symm
          rw [if_neg hname, get_cmdSet_of_ne hkey]
          exact h
  · rw [if_pos henv, get_main_of_ne fun strategy hk => henv (cliKey_inj hk).2.symm]
    exact h

theorem holds_runCli (invocations : List Invocation) (h : t.get (cliKey name env) = none) :
    Holds ((runCli invocations t).get (cliKey name env)) (written name env invocations) := by
  have hrun : ∀ (t : Table) (w : Fields), Holds (t.get (cliKey name env)) w →
      Holds ((runCli invocations t).get (cliKey name env))
        (invocations.foldl (record name env) w) := by
    induction invocations with
    | nil => exact fun t w hw => hw
    | cons i invocations ih => exact fun t w hw => ih (i.main t) _ (holds_main hw)
  refine hrun t {} ?_
  rw [h]
  exact .missing

/-- No call of the script reaches a row that the loader reads. -/
theorem get_loaderKey_runCli (lower : String → String) (invocations : List Invocation)
    (t : Table) (strategyName env : String) :
    (runCli invocations t).get (loaderKey lower strategyName env) =
      t.get (loaderKey lower strategyName env) := by
  induction invocations generalizing t with
  | nil => rfl
  | cons i invocations ih =>
    have hkey : ∀ strategy, loaderKey lower strategyName env ≠ cliKey strategy i.env :=
      fun strategy => cliKey_ne_loaderKey.symm
    exact (ih (i.main t)).trans (get_main_of_ne hkey)

end CliRun

section Refresh
variable {lower : String → String} {name env nowIso : String} {t : Table} {g : Gate}

theorem refresh_of_missing (h : t.get (loaderKey lower name env) = none) :
    refresh lower env nowIso name t g = (t, g.applyConfig defaultConfig false) := by
  rw [refresh, loadConfig, h]
  rfl

/-- A refresh may clear the reset flag of its own strategy only. -/
theorem get_refresh_of_ne {other : String} (h : name ≠ other) :
    (refresh lower env nowIso other t g).1.get (loaderKey lower name env) =
      t.get (loaderKey lower name env) := by
  have hkey : loaderKey lower name env ≠ loaderKey lower other env :=
    fun hk => h (loaderKey_inj hk)
  rw [refresh]
  split
  · rfl
  · split
    · exact get_updateItem_of_ne _ _ t hkey
    · rfl

/-- The runner of a strategy without a row is given the defaults. -/
theorem lookup_refreshAll {runners : List (String × Gate)}
    (h : t.get (loaderKey lower name env) = none) (hg : runners.lookup name = some g) :
    (refreshAll lower env nowIso t runners).2.lookup name =
      some (g.applyConfig defaultConfig false) := by
  induction runners generalizing t with
  | nil => cases hg
  | cons runner runners ih =>
    obtain ⟨other, x⟩ := runner
    rw [List.lookup_cons] at hg
    rw [refreshAll]
    dsimp only
    rw [List.lookup_cons]
    by_cases hname : name = other
    · subst hname
      rw [beq_self_eq_true] at hg ⊢
      cases hg
      rw [refresh_of_missing h]
    · rw [beq_false_of_ne hname] at hg ⊢
      exact ih (by rw [get_refresh_of_ne hname, h]) hg

end Refresh

section TakingEffect

/-- The configuration has what was last written, and one of the loader's defaults in a field that
was never written. -/
structure InForce (w : Fields) (config : StrategyConfig) : Prop where
  enabled : config.enabled = w.enabled.getD true
  paperTrade : config.paperTrade = w.paperTrade.getD true
  maxSignalsPerDay : config.maxSignalsPerDay ∈ w.maxSignalsPerDay.elim [10, 0] fun n => [n]
  cbConsecutive : config.circuitBreakerThresholdConsecutive = w.cbConsecutive.getD 5
  cbRate : config.circuitBreakerThresholdRate = w.cbRate.getD 10

/-- The check before going live counts the strategy if and only if its runner trades live. -/
def GateAgrees (lower : String → String) (t : Table) (name env : String)
    (config : StrategyConfig) : Prop :=
  (∃ row ∈ liveRows t, row.key = cliKey name env ∨ row.key = loaderKey lower name env) ↔
    config.enabled = true ∧ config.paperTrade = false

/-- Nothing was last written that a strategy without a row does not have anyway. -/
structure AtDefaults (w : Fields) : Prop where
  enabled : w.enabled ≠ some false
  paperTrade : w.paperTrade ≠ some false
  maxSignalsPerDay : ∀ n, w.maxSignalsPerDay = some n → n = 10
  cbConsecutive : ∀ n, w.cbConsecutive = some n → n = 5
  cbRate : ∀ n, w.cbRate = some n → n = 10

theorem getD_true {o : Option Bool} : true = o.getD true ↔ o ≠ some false := by
  cases o with
  | none => simp
  | some b => cases b <;> simp

theorem eq_getD {o : Option ℤ} {d : ℤ} : d = o.getD d ↔ ∀ n, o = some n → n = d := by
  cases o <;> simp [eq_comm]

theorem inForce_defaultConfig {w : Fields} : InForce w defaultConfig ↔ AtDefaults w := by
  constructor
  · intro h
    refine ⟨getD_true.mp h.enabled, getD_true.mp h.paperTrade, fun n hn => ?_,
      eq_getD.mp h.cbConsecutive, eq_getD.mp h.cbRate⟩
    have hcap := h.maxSignalsPerDay
    rw [hn] at hcap
    exact (List.mem_singleton.mp hcap).symm
  · intro h
    refine ⟨getD_true.mpr h.enabled, getD_true.mpr h.paperTrade, ?_,
      eq_getD.mpr h.cbConsecutive, eq_getD.mpr h.cbRate⟩
    cases hcap : w.maxSignalsPerDay with
    | none => exact List.mem_cons_self
    | some n => exact List.mem_singleton.mpr (h.maxSignalsPerDay n hcap).symm

variable {lower : String → String} {name env : String} {t : Table} {w : Fields}

theorem mem_liveRows {row : Row} (h : row ∈ liveRows t) :
    row ∈ t.rows ∧ row.get "paper_trade" = some (.bool false) := by
  rw [liveRows, List.mem_filter, List.mem_filter, decide_eq_true_iff] at h
  exact h.1

/-- With no other row of the strategy, the check counts it only if its promotion was written. -/
theorem gateAgrees_defaultConfig (hholds : Holds (t.get (cliKey name env)) w)
    (hloader : t.get (loaderKey lower name env) = none) (h : AtDefaults w) :
    GateAgrees lower t name env defaultConfig := by
  refine iff_of_false ?_ (by simp [defaultConfig])
  rintro ⟨row, hrow, hkey⟩
  obtain ⟨hmem, hpaper⟩ := mem_liveRows hrow
  obtain hkey | hkey := hkey
  · rw [KeyedTable.get_eq_some_iff.mpr ⟨hmem, hkey⟩] at hholds
    cases hholds with
    | present hwritten hget =>
      have hvalue := hget "paper_trade" (by simp [fieldNames])
      rw [hpaper, Fields.value, eq_comm, Option.map_eq_some_iff] at hvalue
      obtain ⟨b, hb, hfalse⟩ := hvalue
      cases hfalse
      exact h.paperTrade hb
  · rw [KeyedTable.get_eq_some_iff.mpr ⟨hmem, hkey⟩] at hloader
    cases hloader

/-- The commands take effect exactly where they ask for the defaults. -/
theorem commands_in_force_iff (invocations : List Invocation) (nowIso : String)
    {runners : List (String × Gate)} {g : Gate} (hcli : t.get (cliKey name env) = none)
    (hloader : t.get (loaderKey lower name env) = none) (hrunner : runners.lookup name = some g) :
    (∃ g', (refreshAll lower env nowIso (runCli invocations t) runners).2.lookup name = some g' ∧
      InForce (written name env invocations) g'.config ∧
      GateAgrees lower (runCli invocations t) name env g'.config) ↔
    AtDefaults (written name env invocations) := by
  have hmissing := hloader
  rw [← get_loaderKey_runCli lower invocations] at hmissing
  rw [lookup_refreshAll hmissing hrunner]
  constructor
  · rintro ⟨g', hg', hforce, -⟩
    cases hg'
    exact inForce_defaultConfig.mp hforce
  · intro h
    exact ⟨_, rfl, inForce_defaultConfig.mpr h,
      gateAgrees_defaultConfig (holds_runCli invocations hcli) hmissing h⟩

/-- One call for a strategy in production -/
def inProduction (command : Command) : Invocation where
  env := "production"
  operator := "operator"
  nowIso := "2026-01-05T09:20:00+00:00"
  command := command

def newRunner : Gate := { config := {}, capDate := 0 }

theorem commands_in_force_iff_enable :
    ∃ g', (refreshAll String.toLower "production" "" (runCli [inProduction (.enable "nse_orb_15m")]
      KeyedTable.empty) [("nse_orb_15m", newRunner)]).2.lookup "nse_orb_15m" = some g' ∧
      InForce (written "nse_orb_15m" "production" [inProduction (.enable "nse_orb_15m")])
        g'.config ∧
      GateAgrees String.toLower (runCli [inProduction (.enable "nse_orb_15m")] KeyedTable.empty)
        "nse_orb_15m" "production" g'.config := by
  refine (commands_in_force_iff [inProduction (.enable "nse_orb_15m")] "" rfl rfl rfl).mpr ?_
  have hwritten : written "nse_orb_15m" "production" [inProduction (.enable "nse_orb_15m")] =
    { enabled := some true } := by decide +kernel
  rw [hwritten]
  exact ⟨by decide, by decide, nofun, nofun, nofun⟩

/-- A strategy that was disabled runs on. -/
theorem disabled_runs_on : ¬ ∀ (lower : String → String) (invocations : List Invocation)
    (nowIso name env : String) (t : Table) (runners : List (String × Gate)) (g : Gate),
    t.get (cliKey name env) = none → t.get (loaderKey lower name env) = none →
    runners.lookup name = some g →
    ∃ g', (refreshAll lower env nowIso (runCli invocations t) runners).2.lookup name = some g' ∧
      InForce (written name env invocations) g'.config ∧
      GateAgrees lower (runCli invocations t) name env g'.config := by
  intro h
  obtain ⟨g', hg', hforce, -⟩ := h String.toLower [inProduction (.disable "nse_orb_15m")] ""
    "nse_orb_15m" "production" KeyedTable.empty [("nse_orb_15m", newRunner)] newRunner rfl rfl rfl
  have hwritten : written "nse_orb_15m" "production" [inProduction (.disable "nse_orb_15m")] =
    { enabled := some false } := by decide +kernel
  have hmissing : (runCli [inProduction (.disable "nse_orb_15m")] KeyedTable.empty).get
      (loaderKey String.toLower "nse_orb_15m" "production") = none :=
    get_loaderKey_runCli String.toLower _ _ _ _
  have hrunner : [("nse_orb_15m", newRunner)].lookup "nse_orb_15m" = some newRunner := rfl
  rw [lookup_refreshAll hmissing hrunner] at hg'
  cases hg'
  rw [hwritten] at hforce
  exact absurd hforce.enabled (by decide)

/-- A promoted strategy lets the check pass, under a name that no runner has. -/
example : checkAllowedStrategies (runCli [inProduction .seed,
    inProduction (.goLive "nse_orb_15m" "nse_orb_15m\n")] KeyedTable.empty) =
    some ["STRATEGY#nse_orb_15m"] := by
  decide +kernel

end TakingEffect

end QuantEmbrace.Strategies.ConfigTable
