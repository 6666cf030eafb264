import QuantEmbrace.UniverseModels

/-! The three configuration files of the universe, less the keys that nothing reads and no bound
is stated by. -/
namespace QuantEmbrace.Universe
open PythonValue

def defaultModesYaml : String := "configs/universe_modes.yaml"
def defaultLiquidityYaml : String := "configs/liquidity_filters.yaml"
def defaultRiskYaml : String := "configs/risk_filters.yaml"

def dict (pairs : List (String × Json)) : Json := .dict (Json.ofPairs pairs)
def real (q : ℚ) : Json := .float (.finite q)
def names (ns : List String) : Json := .list (ns.map .string)

def modeSection (maxSymbols minSymbols : ℤ) (indices : List String) : List (String × Json) :=
  [("max_symbols", .int maxSymbols), ("min_symbols_to_trade", .int minSymbols),
    ("index_membership", names indices), ("apply_liquidity_filters", .bool true),
    ("apply_risk_filters", .bool true), ("apply_corporate_action_filters", .bool true)]

def universeModesYaml : Json :=
  dict [("modes", dict
    [("PAPER_SAFE_START", dict (modeSection 50 10 ["NIFTY_50"])),
     ("PAPER_EXPAND", dict (modeSection 250 30 ["NIFTY_100", "FNO"])),
     ("LIVE_ADVANCED", dict (modeSection 200 20 ["NIFTY_200"]))])]

/-- `defaults` -/
def liquidityDefaults : List (String × Json) :=
  [("enabled", .bool true), ("min_adv_crores_20d", real 5), ("min_adv_volume_20d", .int 50000),
    ("min_free_float_mcap_crores", real 500), ("max_bid_ask_spread_bps", real 100),
    ("min_active_days_last_20", .int 15), ("min_delivery_pct", real (1 / 10)),
    ("min_adv_crores_60d", real 4), ("min_adv_volume_60d", .int 40000),
    ("min_active_days_last_60", .int 45)]

/-- `by_mode`, for live trading: unknown liquidity is to be excluded. -/
def liquidityLive : List (String × Json) :=
  [("liquidity_unavailable_policy", .string "EXCLUDE"), ("enabled", .bool true),
    ("min_adv_crores_20d", real 25), ("min_adv_volume_20d", .int 150000),
    ("min_free_float_mcap_crores", real 2000), ("max_bid_ask_spread_bps", real 40),
    ("min_active_days_last_20", .int 18), ("min_delivery_pct", real (2 / 10)),
    ("min_adv_crores_60d", real 20), ("min_adv_volume_60d", .int 120000),
    ("min_active_days_last_60", .int 54)]

def liquidityFilters : List (String × Json) :=
  [("liquidity_unavailable_policy", .string "INCLUDE"), ("defaults", dict liquidityDefaults),
    ("by_mode", dict
      [("PAPER_SAFE_START", dict
        [("enabled", .bool true), ("min_adv_crores_20d", real 20),
          ("min_adv_volume_20d", .int 100000), ("min_free_float_mcap_crores", real 5000),
          ("max_bid_ask_spread_bps", real 50), ("min_active_days_last_20", .int 18),
          ("min_delivery_pct", real (15 / 100)), ("min_adv_crores_60d", real 15),
          ("min_adv_volume_60d", .int 80000), ("min_active_days_last_60", .int 54)]),
       ("PAPER_EXPAND", dict
        [("enabled", .bool true), ("min_adv_crores_20d", real 10),
          ("min_adv_volume_20d", .int 75000), ("min_free_float_mcap_crores", real 1000),
          ("max_bid_ask_spread_bps", real 75), ("min_active_days_last_20", .int 16),
          ("min_delivery_pct", real (12 / 100)), ("min_adv_crores_60d", real 8),
          ("min_adv_volume_60d", .int 60000), ("min_active_days_last_60", .int 48)]),
       ("LIVE_ADVANCED", dict liquidityLive)])]

def liquidityFiltersYaml : Json := dict liquidityFilters

/-- A section of the risk file: whether it is enabled, its bound, and the bound of each mode. -/
def boundSection (key : String) (default safeStart expand live : Json) : List (String × Json) :=
  [("enabled", .bool true), (key, default), ("by_mode", dict
    [("PAPER_SAFE_START", dict [(key, safeStart)]), ("PAPER_EXPAND", dict [(key, expand)]),
      ("LIVE_ADVANCED", dict [(key, live)])])]

/-- A policy for data that cannot be had: a warning, but exclusion in live trading. -/
def livePolicy : List (String × Json) :=
  [("data_source_unavailable_policy", .string "WARN"),
    ("by_mode", dict [("LIVE_ADVANCED", dict
      [("data_source_unavailable_policy", .string "EXCLUDE")])])]

def corporateActionWindow : List (String × Json) :=
  [("enabled", .bool true), ("exclude_pre_results_days", .int 2),
    ("exclude_post_split_days", .int 5), ("exclude_post_bonus_days", .int 5),
    ("exclude_post_merger_days", .int 10)] ++ livePolicy

def riskFilters : List (String × Json) :=
  [("risk_metrics_unavailable_policy", .string "INCLUDE"),
    ("risk_metrics_by_mode", dict
      [("LIVE_ADVANCED", dict [("risk_metrics_unavailable_policy", .string "EXCLUDE")])]),
    ("penny_stock", dict (boundSection "min_price_inr" (real 10) (real 50) (real 20) (real 30))),
    ("surveillance", dict
      ([("enabled", .bool true), ("exclude_asm", .bool true), ("exclude_gsm", .bool true)] ++
        livePolicy)),
    ("circuit_frequency", dict
      (boundSection "max_circuit_hits_last_20d" (.int 3) (.int 2) (.int 3) (.int 2))),
    ("volatility", dict
      (boundSection "max_daily_volatility_pct" (real 8) (real 5) (real 7) (real 6))),
    ("low_float", dict
      [("enabled", .bool true), ("min_free_float_pct", real 15),
        ("data_source_unavailable_policy", .string "WARN"),
        ("by_mode", dict [("LIVE_ADVANCED", dict [("min_free_float_pct", real 20),
          ("data_source_unavailable_policy", .string "EXCLUDE")])])]),
    ("price_discovery", dict
      [("enabled", .bool true), ("max_zero_volume_days_last_20", .int 2)]),
    ("corporate_action_window", dict corporateActionWindow)]

def riskFiltersYaml : Json := dict riskFilters

/-- The repository's files stand where the code looks for them by default. -/
structure DefaultPlaces (files : String → Option Json) : Prop where
  modes : files defaultModesYaml = some universeModesYaml
  liquidity : files defaultLiquidityYaml = some liquidityFiltersYaml
  risk : files defaultRiskYaml = some riskFiltersYaml

end QuantEmbrace.Universe
