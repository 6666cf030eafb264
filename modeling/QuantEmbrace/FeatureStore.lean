import QuantEmbrace.FeatureEngine
import QuantEmbrace.Lib.DynamoItem
import QuantEmbrace.Lib.LastChange
import QuantEmbrace.Lib.Paging
import QuantEmbrace.Lib.PythonInt
import QuantEmbrace.Lib.Stamped
import Mathlib.Data.List.Sort
import Mathlib.Data.String.Basic
import Mathlib.Order.WithBot

/-! The store of features: what the writer puts there, what a reader takes for the latest set, and
what the archive of a day holds. The puts of a write are under way together, and those of several
writes may be; each may land at any time, more than once, or never. -/
namespace QuantEmbrace.Features
open DynamoItem IsoFormat KeyedTable

/-- `str` and `float` of a number, and `fromisoformat`. -/
structure TextForms where
  strFloat : ℚ → String
  floatOfText : String → Option ℚ
  floatOfText_strFloat : ∀ x, floatOfText (strFloat x) = some x
  fromisoformat : String → Option DateTime
  fromisoformat_isoformat : ∀ t : DateTime, fromisoformat (String.ofList t.isoformat) = some t

section Times

def daysBeforeYear (year : ℕ) : ℕ :=
  let y := year - 1
  y * 365 + y / 4 - y / 100 + y / 400

def daysBeforeMonth (year month : ℕ) : ℕ :=
  (((List.range month).drop 1).map (daysInMonth year)).sum

/-- The seconds since the first of January of 1970, of a time with an offset. -/
def instant (t : DateTime) : ℚ :=
  ((daysBeforeYear t.year + daysBeforeMonth t.year t.month + t.day : ℕ) - 719163 : ℤ) * 86400 +
    t.hour.val * 3600 + t.minute.val * 60 + t.second.val + t.microsecond.val / 1000000 -
    (t.offset.elim 0 UtcOffset.micros : ℤ) / 1000000

def isoText (t : DateTime) : String := String.ofList t.isoformat

def strInt (n : ℤ) : String := String.ofList (PythonInt.str n)

theorem isoText_injective : Function.Injective isoText := fun _ _ h =>
  DateTime.isoformat_injective (String.ofList_injective h)

theorem isoText_ne (t : DateTime) : isoText t ≠ "" := fun h =>
  t.isoformat_ne_nil (String.ofList_injective h)

theorem parse_strInt (n : ℤ) : PythonInt.parse (strInt n).toList = some n := by
  rw [strInt, String.toList_ofList, PythonInt.parse_str]

end Times

section Names

def featureKey (market symbol interval : String) : String :=
  "FEATURE#" ++ market ++ "#" ++ symbol ++ "#" ++ interval

/-- What a row is about; the row of the latest set has no candle. -/
structure RowName where
  market : String
  symbol : String
  interval : String
  candle : Option DateTime
  deriving DecidableEq, Repr

namespace RowName

def sortKey (n : RowName) : String :=
  match n.candle with
  | none => "LATEST"
  | some t => "CANDLE#" ++ isoText t

/-- Partition key and sort key. -/
def key (n : RowName) : String × String := (featureKey n.market n.symbol n.interval, n.sortKey)

/-- Neither market nor interval has the separator in it. -/
def Plain (n : RowName) : Prop := '#' ∉ n.market.toList ∧ '#' ∉ n.interval.toList

theorem sortKey_inj {m n : RowName} (h : m.sortKey = n.sortKey) : m.candle = n.candle := by
  rw [sortKey, sortKey] at h
  cases hm : m.candle with
  | none =>
    cases hn : n.candle with
    | none => rfl
    | some t =>
      rw [hm, hn] at h
      have hlist := congrArg String.toList h
      simp at hlist
  | some s =>
    cases hn : n.candle with
    | none =>
      rw [hm, hn] at h
      have hlist := congrArg String.toList h
      simp at hlist
    | some t =>
      rw [hm, hn] at h
      have hlist := congrArg String.toList h
      simp only [String.toList_append, List.append_cancel_left_eq] at hlist
      exact congrArg some (isoText_injective (String.ext hlist))

theorem featureKey_inj {market symbol interval market' symbol' interval' : String}
    (hmarket : '#' ∉ market.toList) (hmarket' : '#' ∉ market'.toList)
    (hinterval : '#' ∉ interval.toList) (hinterval' : '#' ∉ interval'.toList)
    (h : featureKey market symbol interval = featureKey market' symbol' interval') :
    market = market' ∧ symbol = symbol' ∧ interval = interval' := by
  have hlist : market.toList ++ '#' :: (symbol.toList ++ '#' :: interval.toList) =
      market'.toList ++ '#' :: (symbol'.toList ++ '#' :: interval'.toList) := by
    simpa [featureKey] using congrArg String.toList h
  obtain ⟨hm, hrest⟩ := eq_of_append_separator hmarket hmarket' hlist
  have hback : interval.toList.reverse ++ '#' :: symbol.toList.reverse =
      interval'.toList.reverse ++ '#' :: symbol'.toList.reverse := by
    simpa using congrArg List.reverse hrest
  obtain ⟨hi, hs⟩ := eq_of_append_separator (by simpa using hinterval) (by simpa using hinterval')
    hback
  exact ⟨String.ext hm, String.ext (List.reverse_injective hs),
    String.ext (List.reverse_injective hi)⟩

theorem key_inj {m n : RowName} (hm : m.Plain) (hn : n.Plain) (h : m.key = n.key) : m = n := by
  obtain ⟨hpartition, hsort⟩ := Prod.mk.inj h
  obtain ⟨hmarket, hsymbol, hinterval⟩ := featureKey_inj hm.1 hn.1 hm.2 hn.2 hpartition
  have hcandle := sortKey_inj hsort
  cases m
  cases n
  simp_all

end RowName

end Names

section Rows

/-- The features that an item holds where they are known. -/
def FeatureSet.figures (f : FeatureSet) : List (String × Option ℚ) :=
  [("rsi_14", f.rsi14), ("ema_9", f.ema9), ("ema_21", f.ema21), ("vwap", f.vwap),
    ("atr_14", f.atr14), ("adx_14", f.adx14), ("macd", f.macd), ("macd_signal", f.macdSignal),
    ("macd_hist", f.macdHist), ("volume_ratio", f.volumeRatio)]

/-- `_build_base_item` -/
def FeatureSet.baseItem (py : TextForms) (f : FeatureSet) (candleTime : DateTime) : Item :=
  [("symbol", .s f.symbol), ("market", .s f.market), ("interval", .s f.interval),
    ("candle_time", .s (isoText candleTime)), ("candle_count", .n (strInt f.candleCount)),
    ("computed_at", .s (isoText f.computedAt)), ("schema_version", .n (strInt f.schemaVersion))] ++
  f.figures.filterMap fun figure => figure.2.map fun x => (figure.1, .n (py.strFloat x))

def latestTtlSeconds : ℤ := 86400
def candleTtlSeconds : ℤ := 7 * 86400

/-- One `put_item` of a call of `write`; `number` counts the calls. -/
structure Put where
  features : FeatureSet
  candleTime : DateTime
  audit : Bool
  nowEpoch : ℤ
  number : ℕ
  deriving DecidableEq, Repr

namespace Put
variable (p : Put)

def name : RowName where
  market := p.features.market
  symbol := p.features.symbol
  interval := p.features.interval
  candle := if p.audit then some p.candleTime else none

def key : String × String := p.name.key

def ttl : ℤ := p.nowEpoch + if p.audit then candleTtlSeconds else latestTtlSeconds

def item (py : TextForms) : Item :=
  ("PK", .s p.key.1) :: (p.features.baseItem py p.candleTime ++
    [("SK", .s p.key.2), ("ttl", .n (strInt p.ttl))])

end Put

/-- `write`; without a candle time there is no text of it, and nothing is put. -/
def puts (features : FeatureSet) (nowEpoch : ℤ) (number : ℕ) : List Put :=
  match features.candleTime with
  | none => []
  | some t => [⟨features, t, false, nowEpoch, number⟩, ⟨features, t, true, nowEpoch, number⟩]

theorem lookup_known {figures : List (String × Option ℚ)} (f : ℚ → AttributeValue)
    (hnodup : (figures.map Prod.fst).Nodup) {name : String} {x : Option ℚ}
    (h : (name, x) ∈ figures) :
    (figures.filterMap fun figure => figure.2.map fun q => (figure.1, f q)).lookup name =
      x.map f := by
  induction figures with
  | nil => cases h
  | cons figure figures ih =>
    rw [List.map_cons, List.nodup_cons] at hnodup
    obtain ⟨hfresh, hnodup⟩ := hnodup
    obtain rfl | htail := List.mem_cons.mp h
    · cases x with
      | none =>
        rw [List.filterMap_cons_none rfl, Option.map_none, List.lookup_eq_none_iff]
        intro pair hpair
        obtain ⟨other, hother, heq⟩ := List.mem_filterMap.mp hpair
        obtain ⟨q, -, rfl⟩ := Option.map_eq_some_iff.mp heq
        rw [bne_iff_ne]
        rintro rfl
        exact hfresh (List.mem_map.mpr ⟨other, hother, rfl⟩)
      | some q => simp only [List.filterMap_cons, Option.map_some, List.lookup_cons_self]
    · have hne : name ≠ figure.1 := by
        rintro rfl
        exact hfresh (List.mem_map.mpr ⟨_, htail, rfl⟩)
      rw [← ih hnodup htail, List.filterMap_cons]
      cases figure.2 with
      | none => rfl
      | some q => simp only [Option.map_some, List.lookup_cons, beq_false_of_ne hne]

def figureNames : List String :=
  ["rsi_14", "ema_9", "ema_21", "vwap", "atr_14", "adx_14", "macd", "macd_signal", "macd_hist",
    "volume_ratio"]

theorem FeatureSet.map_fst_figures (f : FeatureSet) : f.figures.map Prod.fst = figureNames := rfl

def fixedNames : List String :=
  ["PK", "symbol", "market", "interval", "candle_time", "candle_count", "computed_at",
    "schema_version"]

theorem number_item (py : TextForms) (p : Put) {name : String} {x : Option ℚ}
    (h : (name, x) ∈ p.features.figures) : (p.item py).number name = x.map py.strFloat := by
  have hname : name ∈ figureNames := p.features.map_fst_figures ▸ List.mem_map.mpr ⟨_, h, rfl⟩
  have hfixed : name ∉ fixedNames ++ ["SK", "ttl"] :=
    (by decide : ∀ n ∈ figureNames, n ∉ fixedNames ++ ["SK", "ttl"]) name hname
  rw [List.mem_append, not_or] at hfixed
  have hbefore : (("PK", AttributeValue.s p.key.1) :: [("symbol", .s p.features.symbol),
      ("market", .s p.features.market), ("interval", .s p.features.interval),
      ("candle_time", .s (isoText p.candleTime)),
      ("candle_count", .n (strInt p.features.candleCount)),
      ("computed_at", .s (isoText p.features.computedAt)),
      ("schema_version", .n (strInt p.features.schemaVersion))]).lookup name = none :=
    Item.lookup_eq_none_of_not_mem hfixed.1
  have hafter : [("SK", AttributeValue.s p.key.2), ("ttl", .n (strInt p.ttl))].lookup name =
      none := Item.lookup_eq_none_of_not_mem hfixed.2
  have hlookup : (p.item py).lookup name = x.map fun q => .n (py.strFloat q) := by
    rw [Put.item, FeatureSet.baseItem, List.append_assoc, ← List.cons_append, List.lookup_append,
      hbefore, Option.none_or, List.lookup_append, hafter, Option.or_none]
    exact lookup_known _ (p.features.map_fst_figures ▸ by decide) h
  rw [Item.number, hlookup]
  cases x <;> rfl

end Rows

section Reading

def parseIntervalMinutes (interval : String) : ℕ :=
  match interval with
  | "1m" | "minute" => 1
  | "3m" | "3minute" => 3
  | "5m" | "5minute" => 5
  | "10m" => 10
  | "15m" | "15minute" => 15
  | "30m" | "30minute" => 30
  | "60m" | "60minute" => 60
  | "1d" | "day" => 1440
  | _ => 1

def stalenessThresholdSeconds (interval : String) : ℚ :=
  max 300 ((2 * parseIntervalMinutes interval + 1) * 60)

/-- `_float`; `none` where `float` raises an error. -/
def readFigure (py : TextForms) (item : Item) (name : String) : Option (Option ℚ) :=
  match item.number name with
  | none => some none
  | some text => (py.floatOfText text).map some

/-- `_parse_item`; whatever is raised makes it `None`. A negative count, which no writer stores,
is read as zero. -/
def parseItem (py : TextForms) (now : ℚ) (item : Item) (interval : String) :
    Option FeatureSet := do
  let schemaVersion ← PythonInt.parse ((item.number "schema_version").getD "0").toList
  if schemaVersion ≠ 1 then none
  if item.text "computed_at" = "" then none
  let computedAt := (← py.fromisoformat (item.text "computed_at")).aware
  if stalenessThresholdSeconds interval < now - instant computedAt then none
  let candleTime := (← py.fromisoformat (item.text "candle_time")).aware
  let candleCount ← PythonInt.parse ((item.number "candle_count").getD "0").toList
  return {
    symbol := item.text "symbol"
    market := item.text "market"
    interval := item.textD "interval" interval
    candleTime := some candleTime
    candleCount := candleCount.toNat
    computedAt
    rsi14 := ← readFigure py item "rsi_14"
    ema9 := ← readFigure py item "ema_9"
    ema21 := ← readFigure py item "ema_21"
    vwap := ← readFigure py item "vwap"
    atr14 := ← readFigure py item "atr_14"
    adx14 := ← readFigure py item "adx_14"
    macd := ← readFigure py item "macd"
    macdSignal := ← readFigure py item "macd_signal"
    macdHist := ← readFigure py item "macd_hist"
    volumeRatio := ← readFigure py item "volume_ratio"
    schemaVersion := schemaVersion.toNat }

/-- `get_latest`, from the rows that the table answers with; no answer is an error of the table. -/
def getLatest (py : TextForms) (now : ℚ) (table : Option (KeyedTable Put.key))
    (market symbol interval : String) : Option FeatureSet := do
  let p ← (← table).get (featureKey market symbol interval, "LATEST")
  parseItem py now (p.item py) interval

/-- The features of a put as a reader has them: with times that have an offset. -/
def Put.read (p : Put) : FeatureSet :=
  { p.features with
    candleTime := some p.candleTime.aware
    computedAt := p.features.computedAt.aware }

/-- Of the current version, and not too old at the time of a read. -/
def Put.Fresh (now : ℚ) (p : Put) : Prop :=
  p.features.schemaVersion = 1 ∧
    now - instant p.features.computedAt.aware ≤ stalenessThresholdSeconds p.features.interval

theorem readFigure_item (py : TextForms) (p : Put) {name : String} {x : Option ℚ}
    (h : (name, x) ∈ p.features.figures) : readFigure py (p.item py) name = some x := by
  rw [readFigure, number_item py p h]
  cases x with
  | none => rfl
  | some q => simp [py.floatOfText_strFloat]

/-- What the writer stores is read as it was, or not at all. -/
theorem parseItem_item (py : TextForms) (now : ℚ) (p : Put) :
    parseItem py now (p.item py) p.features.interval =
      open scoped Classical in if p.Fresh now then some p.read else none := by
  have hversion : (p.item py).number "schema_version" = some (strInt p.features.schemaVersion) :=
    rfl
  have hcount : (p.item py).number "candle_count" = some (strInt p.features.candleCount) := rfl
  have hcomputed : (p.item py).text "computed_at" = isoText p.features.computedAt := rfl
  have hcandle : (p.item py).text "candle_time" = isoText p.candleTime := rfl
  have hiso : ∀ t, py.fromisoformat (isoText t) = some t := py.fromisoformat_isoformat
  have hfigure : ∀ figure ∈ p.features.figures,
      readFigure py (p.item py) figure.1 = some figure.2 := fun _ => readFigure_item py p
  simp only [FeatureSet.figures, List.forall_mem_cons] at hfigure
  obtain ⟨hrsi, hema9, hema21, hvwap, hatr, hadx, hmacd, hsignal, hhist, hratio, -⟩ := hfigure
  have hread : parseItem py now (p.item py) p.features.interval =
      if (p.features.schemaVersion : ℤ) ≠ 1 then none
      else if isoText p.features.computedAt = "" then none
      else if stalenessThresholdSeconds p.features.interval <
        now - instant p.features.computedAt.aware then none
      else some p.read := by
    rw [parseItem, hversion, hcount, hcomputed, hcandle, hiso, hiso, Option.getD_some,
      Option.getD_some, parse_strInt, parse_strInt, hrsi, hema9, hema21, hvwap, hatr, hadx, hmacd,
      hsignal, hhist, hratio]
    rfl
  rw [hread, if_neg (isoText_ne _)]
  by_cases hcurrent : p.features.schemaVersion = 1
  · by_cases hstale : stalenessThresholdSeconds p.features.interval <
        now - instant p.features.computedAt.aware
    · simp [hcurrent, hstale, Put.Fresh, not_le.mpr hstale]
    · simp [hcurrent, hstale, Put.Fresh, not_lt.mp hstale]
  · simp [hcurrent, Put.Fresh]

end Reading

section Runs

/-- The puts of writes that are not over, and what has been done to the table. -/
structure StoreWorld where
  written : ℕ := 0
  pending : List Put := []
  changes : List (Change Put (String × String)) := []

/-- A write starts at a time; a put that is under way lands, or is over; the table drops a row
whose time has passed. -/
inductive StoreEvent where
  | write (features : FeatureSet) (time : ℚ)
  | land (i : ℕ)
  | settle (i : ℕ)
  | expire (key : String × String) (time : ℚ)

namespace StoreWorld

def table (w : StoreWorld) : KeyedTable Put.key := changed Put.key w.changes

def step (w : StoreWorld) : StoreEvent → StoreWorld
  | .write features time =>
    { w with
      written := w.written + 1
      pending := w.pending ++ puts features ⌊time⌋ w.written }
  | .land i =>
    match w.pending[i]? with
    | none => w
    | some p => { w with changes := w.changes ++ [.put p] }
  | .settle i => { w with pending := w.pending.eraseIdx i }
  | .expire key time =>
    match w.table.get key with
    | none => w
    | some p => if p.ttl < time then { w with changes := w.changes ++ [.remove key] } else w

def run (events : List StoreEvent) : StoreWorld := events.foldl step {}

theorem run_snoc (events : List StoreEvent) (e : StoreEvent) :
    run (events ++ [e]) = (run events).step e := by
  rw [run, List.foldl_append]
  rfl

end StoreWorld

variable {events : List StoreEvent} {p q : Put} {now : ℚ} {key : String × String}

/-- The put is one of a write of the run. -/
def Put.Origin (events : List StoreEvent) (p : Put) : Prop :=
  ∃ time, .write p.features time ∈ events ∧ p.nowEpoch = ⌊time⌋ ∧
    p.features.candleTime = some p.candleTime

theorem origin_of_mem_puts {features : FeatureSet} {nowEpoch : ℤ} {number : ℕ}
    (h : p ∈ puts features nowEpoch number) :
    p.features = features ∧ p.nowEpoch = nowEpoch ∧ p.number = number ∧
      features.candleTime = some p.candleTime := by
  rw [puts] at h
  cases ht : features.candleTime with
  | none =>
    rw [ht] at h
    cases h
  | some t =>
    rw [ht, List.mem_pair] at h
    obtain rfl | rfl := h <;> exact ⟨rfl, rfl, rfl, rfl⟩

theorem origin_run (events : List StoreEvent) :
    (∀ p ∈ (StoreWorld.run events).pending, p.Origin events) ∧
      ∀ p, .put p ∈ (StoreWorld.run events).changes → p.Origin events := by
  induction events using List.reverseRecOn with
  | nil => exact ⟨by simp [StoreWorld.run], by simp [StoreWorld.run]⟩
  | append_singleton events e ih =>
    have hlater : ∀ p : Put, p.Origin events → p.Origin (events ++ [e]) := by
      rintro p ⟨time, hwrite, hrest⟩
      exact ⟨time, List.mem_append_left _ hwrite, hrest⟩
    obtain ⟨hpending, hchanges⟩ := ih
    rw [StoreWorld.run_snoc]
    cases e with
    | write features time =>
      refine ⟨fun p hp => ?_, fun p hp => hlater p (hchanges p hp)⟩
      obtain hold | hnew := List.mem_append.mp hp
      · exact hlater p (hpending p hold)
      · obtain ⟨rfl, hepoch, -, hcandle⟩ := origin_of_mem_puts hnew
        exact ⟨time, List.mem_append_right _ (List.mem_singleton_self _), hepoch, hcandle⟩
    | land i =>
      rw [StoreWorld.step]
      cases hi : (StoreWorld.run events).pending[i]? with
      | none => exact ⟨fun p hp => hlater p (hpending p hp), fun p hp => hlater p (hchanges p hp)⟩
      | some landed =>
        refine ⟨fun p hp => hlater p (hpending p hp), fun p hp => ?_⟩
        obtain hold | hnew := List.mem_append.mp hp
        · exact hlater p (hchanges p hold)
        · cases List.mem_singleton.mp hnew
          exact hlater _ (hpending _ (List.mem_of_getElem? hi))
    | settle i =>
      exact ⟨fun p hp => hlater p (hpending p (List.mem_of_mem_eraseIdx hp)),
        fun p hp => hlater p (hchanges p hp)⟩
    | expire key time =>
      have hsame : (∀ p ∈ (StoreWorld.run events).pending,
          p.Origin (events ++ [.expire key time])) ∧
          ∀ p, .put p ∈ (StoreWorld.run events).changes →
            p.Origin (events ++ [.expire key time]) :=
        ⟨fun p hp => hlater p (hpending p hp), fun p hp => hlater p (hchanges p hp)⟩
      rw [StoreWorld.step]
      cases (StoreWorld.run events).table.get key with
      | none => exact hsame
      | some row =>
        dsimp only
        split
        · refine ⟨hsame.1, fun p hp => ?_⟩
          obtain hold | hnew := List.mem_append.mp hp
          · exact hsame.2 p hold
          · cases List.mem_singleton.mp hnew
        · exact hsame

/-- What is removed is a row whose time has passed. -/
theorem removed_run (hpast : ∀ key time, .expire key time ∈ events → time ≤ now) :
    ∀ pre key post, (StoreWorld.run events).changes = pre ++ .remove key :: post →
      ∃ p, lastChange Put.key key pre = some (.put p) ∧ p.ttl < now := by
  induction events using List.reverseRecOn with
  | nil => exact fun pre key post h => absurd h (by simp [StoreWorld.run])
  | append_singleton events e ih =>
    have hbefore := ih fun key time he => hpast key time (List.mem_append_left _ he)
    intro pre key post h
    rw [StoreWorld.run_snoc] at h
    cases e with
    | write features time => exact hbefore pre key post h
    | settle i => exact hbefore pre key post h
    | land i =>
      rw [StoreWorld.step] at h
      cases hi : (StoreWorld.run events).pending[i]? with
      | none =>
        rw [hi] at h
        exact hbefore pre key post h
      | some landed =>
        rw [hi] at h
        obtain ⟨-, -, hlast⟩ | ⟨post, -, hsplit⟩ := Stamped.split_snoc.mp h
        · cases hlast
        · exact hbefore pre key post hsplit
    | expire k time =>
      rw [StoreWorld.step] at h
      cases hrow : (StoreWorld.run events).table.get k with
      | none =>
        rw [hrow] at h
        exact hbefore pre key post h
      | some row =>
        rw [hrow] at h
        dsimp only at h
        split at h
        · next hexpired =>
          obtain ⟨-, rfl, hlast⟩ | ⟨post, -, hsplit⟩ := Stamped.split_snoc.mp h
          · cases hlast
            have htime := hpast key time (List.mem_append_right _ (List.mem_singleton_self _))
            rw [StoreWorld.table, get_changed] at hrow
            obtain ⟨c, hc, hcrow⟩ := Option.bind_eq_some_iff.mp hrow
            cases c with
            | put r =>
              cases hcrow
              exact ⟨row, hc, hexpired.trans_le htime⟩
            | remove j => cases hcrow
          · exact hbefore pre key post hsplit
        · exact hbefore pre key post h

/-- The last put under a key is what stands there until its time has passed. -/
theorem stands_iff (hpast : ∀ key time, .expire key time ∈ events → time ≤ now)
    (hyoung : now ≤ p.ttl) :
    lastChange Put.key key (StoreWorld.run events).changes = some (.put p) ↔
      lastPut Put.key key (StoreWorld.run events).changes = some p := by
  refine ⟨lastPut_of_lastChange, fun h => ?_⟩
  obtain hstands | ⟨pre, post, hsplit, hpre⟩ := lastChange_of_lastPut h
  · exact hstands
  · obtain ⟨q, hq, hexpired⟩ := removed_run hpast pre key post hsplit
    rw [hpre] at hq
    cases hq
    exact absurd hexpired (not_lt.mpr hyoung)

/-- No market and no interval of the run has the separator of the keys in it. -/
def Separable (events : List StoreEvent) : Prop :=
  ∀ features time, .write features time ∈ events →
    '#' ∉ features.market.toList ∧ '#' ∉ features.interval.toList

theorem plain_of_origin (hplain : Separable events) (h : p.Origin events) : p.name.Plain := by
  obtain ⟨time, hwrite, -⟩ := h
  exact hplain _ time hwrite

/-- The texts of the keys tell the rows of a run apart. -/
theorem key_eq_iff (hplain : Separable events) {n : RowName} (hn : n.Plain)
    (h : .put p ∈ (StoreWorld.run events).changes) : p.key = n.key ↔ p.name = n :=
  ⟨RowName.key_inj (plain_of_origin hplain ((origin_run events).2 p h)) hn,
    congrArg RowName.key⟩

theorem ttl_ge {events : List StoreEvent} (hclock : ∀ features time,
    .write features time ∈ events → instant features.computedAt.aware ≤ time)
    (h : p.Origin events) : instant p.features.computedAt.aware + 86399 ≤ p.ttl := by
  obtain ⟨time, hwrite, hepoch, -⟩ := h
  have hcomputed := hclock _ time hwrite
  have hfloor := Int.lt_floor_add_one time
  have hage : (86400 : ℤ) ≤ if p.audit then candleTtlSeconds else latestTtlSeconds := by
    cases p.audit <;> decide
  have hage : (86400 : ℚ) ≤ ((if p.audit then candleTtlSeconds else latestTtlSeconds : ℤ) : ℚ) := by
    exact_mod_cast hage
  rw [Put.ttl, Int.cast_add, hepoch]
  linarith

theorem threshold_le {interval : String} (hday : interval ≠ "1d") (hday' : interval ≠ "day") :
    stalenessThresholdSeconds interval ≤ 7260 := by
  have hminutes : parseIntervalMinutes interval ≤ 60 := by
    unfold parseIntervalMinutes
    split <;> first | omega | contradiction
  have hminutes : (parseIntervalMinutes interval : ℚ) ≤ 60 := by exact_mod_cast hminutes
  rw [stalenessThresholdSeconds]
  exact max_le (by norm_num) (by linarith)

/-- What a write is of. -/
def FeatureSet.series (f : FeatureSet) : String × String × String :=
  (f.market, f.symbol, f.interval)

theorem series_of_name (h : q.name = p.name) : q.features.series = p.features.series := by
  injection h with hmarket hsymbol hinterval
  rw [FeatureSet.series, FeatureSet.series, hmarket, hsymbol, hinterval]

/-- The puts of each series that are under way are those of its newest write. -/
structure InTurn (w : StoreWorld) : Prop where
  below : ∀ p, p ∈ w.pending ∨ .put p ∈ w.changes → p.number < w.written
  newest : ∀ p ∈ w.pending, ∀ q, q ∈ w.pending ∨ .put q ∈ w.changes →
    q.features.series = p.features.series → q.number ≤ p.number
  last : ∀ n p, lastPut Put.name n w.changes = some p →
    ∀ q, .put q ∈ w.changes → q.name = n → q.number ≤ p.number

namespace InTurn
variable {w : StoreWorld}

theorem write (h : InTurn w) {features : FeatureSet} {time : ℚ}
    (hturn : ∀ p ∈ w.pending, p.features.series ≠ features.series) :
    InTurn (w.step (.write features time)) := by
  have hnew : ∀ p ∈ puts features ⌊time⌋ w.written,
      p.features = features ∧ p.number = w.written := fun p hp => by
    obtain ⟨hfeatures, -, hnumber, -⟩ := origin_of_mem_puts hp
    exact ⟨hfeatures, hnumber⟩
  have hcases : ∀ p, p ∈ w.pending ++ puts features ⌊time⌋ w.written ∨ .put p ∈ w.changes →
      (p ∈ w.pending ∨ .put p ∈ w.changes) ∨ p.features = features ∧ p.number = w.written := by
    rintro p (hp | hp)
    · obtain hold | hp := List.mem_append.mp hp
      · exact .inl (.inl hold)
      · exact .inr (hnew p hp)
    · exact .inl (.inr hp)
  refine ⟨fun p hp => ?_, fun p hp q hq hseries => ?_, h.last⟩
  · obtain hold | ⟨-, hnumber⟩ := hcases p hp
    · exact (h.below p hold).trans (Nat.lt_succ_self _)
    · exact hnumber ▸ Nat.lt_succ_self _
  · obtain hold | hp := List.mem_append.mp hp
    · obtain hq | ⟨rfl, -⟩ := hcases q hq
      · exact h.newest p hold q hq hseries
      · exact absurd hseries.symm (hturn p hold)
    · obtain ⟨-, hnumber⟩ := hnew p hp
      obtain hq | ⟨-, hq⟩ := hcases q hq
      · exact hnumber ▸ (h.below q hq).le
      · exact (hq.trans hnumber.symm).le

theorem land (h : InTurn w) (i : ℕ) : InTurn (w.step (.land i)) := by
  rw [StoreWorld.step]
  cases hi : w.pending[i]? with
  | none => exact h
  | some landed =>
    have hlanded : landed ∈ w.pending := List.mem_of_getElem? hi
    have hcases : ∀ p, p ∈ w.pending ∨ .put p ∈ w.changes ++ [.put landed] →
        p ∈ w.pending ∨ .put p ∈ w.changes := by
      rintro p (hp | hp)
      · exact .inl hp
      · obtain hp | hp := List.mem_append.mp hp
        · exact .inr hp
        · cases List.mem_singleton.mp hp
          exact .inl hlanded
    refine ⟨fun p hp => h.below p (hcases p hp),
      fun p hp q hq => h.newest p hp q (hcases q hq), fun n p hlast q hq hname => ?_⟩
    rw [lastPut_put] at hlast
    split at hlast
    · next hn =>
      cases hlast
      exact h.newest landed hlanded q (hcases q (.inr hq)) (series_of_name (hname.trans hn.symm))
    · next hn =>
      obtain hq | hq := List.mem_append.mp hq
      · exact h.last n p hlast q hq hname
      · cases List.mem_singleton.mp hq
        exact absurd hname hn

theorem settle (h : InTurn w) (i : ℕ) : InTurn (w.step (.settle i)) where
  below p hp := h.below p (hp.imp_left List.mem_of_mem_eraseIdx)
  newest p hp q hq :=
    h.newest p (List.mem_of_mem_eraseIdx hp) q (hq.imp_left List.mem_of_mem_eraseIdx)
  last := h.last

theorem expire (h : InTurn w) (key : String × String) (time : ℚ) :
    InTurn (w.step (.expire key time)) := by
  have hput : ∀ p : Put, .put p ∈ w.changes ++ [.remove key] → .put p ∈ w.changes := by
    intro p hp
    obtain hp | hp := List.mem_append.mp hp
    · exact hp
    · cases List.mem_singleton.mp hp
  rw [StoreWorld.step]
  cases w.table.get key with
  | none => exact h
  | some row =>
    dsimp only
    split
    · refine ⟨fun p hp => h.below p (hp.imp_right (hput p)),
        fun p hp q hq => h.newest p hp q (hq.imp_right (hput q)), fun n p hlast q hq => ?_⟩
      rw [lastPut_remove] at hlast
      exact h.last n p hlast q (hput q hq)
    · exact h

theorem run (hturn : ∀ pre features time post, events = pre ++ .write features time :: post →
    ∀ p ∈ (StoreWorld.run pre).pending, p.features.series ≠ features.series) :
    InTurn (StoreWorld.run events) := by
  induction events using List.reverseRecOn with
  | nil => exact ⟨by simp [StoreWorld.run], by simp [StoreWorld.run],
      by simp [StoreWorld.run, lastPut]⟩
  | append_singleton events e ih =>
    have hbefore := ih fun pre features time post h =>
      hturn pre features time (post ++ [e]) (by rw [h]; simp)
    rw [StoreWorld.run_snoc]
    cases e with
    | write features time => exact hbefore.write (hturn events features time [] rfl)
    | land i => exact hbefore.land i
    | settle i => exact hbefore.settle i
    | expire key time => exact hbefore.expire key time

end InTurn

end Runs

section Latest
variable {events : List StoreEvent} {now : ℚ}

/-- A reader gets what the last put of a series that landed has put, if it is of the current
version and not too old; and that is of the newest of the writes whose put has landed, where no
write starts while another one of its series is under way. -/
theorem latest_read_iff (py : TextForms) (hplain : Separable events)
    (hclock : ∀ features time, .write features time ∈ events →
      instant features.computedAt.aware ≤ time)
    (hpast : ∀ key time, .expire key time ∈ events → time ≤ now) (market symbol interval : String)
    (hname : RowName.Plain ⟨market, symbol, interval, none⟩) (hday : interval ≠ "1d")
    (hday' : interval ≠ "day") (f : FeatureSet) :
    let w := StoreWorld.run events
    let last := lastPut Put.name ⟨market, symbol, interval, none⟩ w.changes
    (getLatest py now (some w.table) market symbol interval = some f ↔
      ∃ p, last = some p ∧ p.Fresh now ∧ f = p.read) ∧
    ((∀ pre features time post, events = pre ++ .write features time :: post →
        ∀ p ∈ (StoreWorld.run pre).pending, p.features.series ≠ features.series) →
      ∀ p, last = some p → ∀ q, .put q ∈ w.changes → q.name = p.name → q.number ≤ p.number) := by
  intro w last
  have hlast : lastPut Put.key (RowName.key ⟨market, symbol, interval, none⟩) w.changes = last :=
    lastPut_congr fun p hp => key_eq_iff hplain hname hp
  have hinterval : ∀ p, last = some p → p.features.interval = interval := fun p hp =>
    congrArg RowName.interval (name_lastPut hp)
  have hyoung : ∀ p, last = some p → p.Fresh now → now ≤ p.ttl := by
    intro p hp hfresh
    have hthreshold := threshold_le (hinterval p hp ▸ hday) (hinterval p hp ▸ hday')
    have httl := ttl_ge hclock ((origin_run events).2 p (put_mem_of_lastPut hp))
    linarith [hfresh.2]
  have hrow : getLatest py now (some w.table) market symbol interval =
      (w.table.get (RowName.key ⟨market, symbol, interval, none⟩)).bind fun p =>
        parseItem py now (p.item py) interval := rfl
  have hget : ∀ p, w.table.get (RowName.key ⟨market, symbol, interval, none⟩) = some p ↔
      lastChange Put.key (RowName.key ⟨market, symbol, interval, none⟩) w.changes =
        some (.put p) := fun p => get_changed_eq_some
  refine ⟨?_, fun hturn p hp q hq hqname => ?_⟩
  · rw [hrow, Option.bind_eq_some_iff]
    constructor
    · rintro ⟨p, hp, hread⟩
      have hput : last = some p := hlast ▸ lastPut_of_lastChange ((hget p).mp hp)
      rw [← hinterval p hput, parseItem_item] at hread
      split at hread
      · next hfresh => exact ⟨p, hput, hfresh, (Option.some.inj hread).symm⟩
      · cases hread
    · rintro ⟨p, hp, hfresh, rfl⟩
      refine ⟨p, (hget p).mpr ((stands_iff hpast (hyoung p hp hfresh)).mpr (hlast ▸ hp)), ?_⟩
      rw [← hinterval p hp, parseItem_item, if_pos hfresh]
  · exact (InTurn.run hturn).last _ p hp q hq (hqname.trans (name_lastPut hp))

/-- `str` of the floats that are whole numbers; others as a fraction. -/
def floatText (x : ℚ) : String :=
  String.ofList (if x.den = 1 then PythonInt.str x.num ++ ['.', '0']
    else PythonInt.str x.num ++ '/' :: PythonInt.str x.den)

theorem slash_not_mem_str (n : ℤ) : '/' ∉ PythonInt.str n := by
  have hdigits (m : ℕ) : '/' ∉ Nat.toDigits 10 m := fun h =>
    absurd (PythonInt.isDigit_toDigits _ h) (by decide)
  cases n with
  | ofNat n =>
    rw [show PythonInt.str (.ofNat n) = Nat.toDigits 10 n from Nat.toList_repr]
    exact hdigits n
  | negSucc n =>
    rw [show PythonInt.str (.negSucc n) = '-' :: Nat.toDigits 10 (n + 1) by
      simp [PythonInt.str, Int.repr], List.mem_cons]
    exact fun h => h.elim (by decide) (hdigits (n + 1))

theorem str_injective : Function.Injective PythonInt.str := fun m n h => by
  have hparse := congrArg PythonInt.parse h
  rw [PythonInt.parse_str, PythonInt.parse_str] at hparse
  exact Option.some.inj hparse

theorem floatText_injective : Function.Injective floatText := by
  intro x y h
  have hlist := String.ofList_injective h
  by_cases hx : x.den = 1 <;> by_cases hy : y.den = 1
  · rw [if_pos hx, if_pos hy] at hlist
    exact Rat.ext (str_injective (List.append_cancel_right hlist)) (hx.trans hy.symm)
  · rw [if_pos hx, if_neg hy] at hlist
    have hslash : '/' ∈ PythonInt.str x.num ++ ['.', '0'] := hlist ▸ by simp
    simp [slash_not_mem_str] at hslash
  · rw [if_neg hx, if_pos hy] at hlist
    have hslash : '/' ∈ PythonInt.str y.num ++ ['.', '0'] := hlist ▸ by simp
    simp [slash_not_mem_str] at hslash
  · rw [if_neg hx, if_neg hy] at hlist
    obtain ⟨hnum, hden⟩ := eq_of_append_separator (slash_not_mem_str _) (slash_not_mem_str _) hlist
    exact Rat.ext (str_injective hnum) (by exact_mod_cast str_injective hden)

noncomputable def texts : TextForms where
  strFloat := floatText
  floatOfText := Function.partialInv floatText
  floatOfText_strFloat := Function.partialInv_left floatText_injective
  fromisoformat text := Function.partialInv isoText text
  fromisoformat_isoformat := Function.partialInv_left isoText_injective

def morning (minute second : ℕ) : DateTime where
  year := ⟨2026, by decide⟩
  month := ⟨1, by decide⟩
  day := ⟨6, by decide⟩
  hour := ⟨3, by decide⟩
  minute := ⟨min minute 59, by omega⟩
  second := ⟨min second 59, by omega⟩
  microsecond := ⟨0, by decide⟩
  offset := some utc
  exists_day := by decide

/-- The features at a candle of the first minutes of trading. -/
def infyFeatures (minute : ℕ) : FeatureSet where
  symbol := "INFY"
  market := "NSE"
  interval := "1m"
  candleTime := some (morning minute 0)
  candleCount := minute - 44
  computedAt := morning 47 5
  rsi14 := none
  ema9 := none
  ema21 := none
  vwap := some 1500
  atr14 := none
  adx14 := none
  macd := none
  macdSignal := none
  macdHist := none
  volumeRatio := none

/-- Two candles that are fetched at once: the later put of the second one lands before the first
of the first one. -/
def catchUp : List StoreEvent :=
  [.write (infyFeatures 45) (instant (morning 47 5)),
    .write (infyFeatures 46) (instant (morning 47 5)), .land 2, .land 0, .land 3, .land 1]

theorem separable_catchUp : Separable catchUp := by
  intro features time h
  simp only [catchUp, List.mem_cons, StoreEvent.write.injEq, reduceCtorEq, List.not_mem_nil,
    or_false] at h
  obtain ⟨rfl, -⟩ | ⟨rfl, -⟩ := h <;> decide

theorem instant_morning (minute second : ℕ) : instant (morning minute second) =
    1767668400 + (min minute 59 : ℕ) * 60 + (min second 59 : ℕ) := by
  have hyear : daysBeforeYear 2026 = 739616 := by decide
  have hmonth : daysBeforeMonth 2026 1 = 0 := by decide
  simp only [instant, morning, utc, Option.elim_some]
  norm_num [hyear, hmonth]

theorem run_catchUp :
    (StoreWorld.run catchUp).changes =
      [.put ⟨infyFeatures 46, morning 46 0, false, 1767671225, 1⟩,
        .put ⟨infyFeatures 45, morning 45 0, false, 1767671225, 0⟩,
        .put ⟨infyFeatures 46, morning 46 0, true, 1767671225, 1⟩,
        .put ⟨infyFeatures 45, morning 45 0, true, 1767671225, 0⟩] := by
  have hfloor : ⌊instant (morning 47 5)⌋ = 1767671225 := by
    rw [instant_morning, Int.floor_eq_iff]
    norm_num
  have hputs (minute number : ℕ) :
      puts (infyFeatures minute) ⌊instant (morning 47 5)⌋ number =
        [⟨infyFeatures minute, morning minute 0, false, 1767671225, number⟩,
          ⟨infyFeatures minute, morning minute 0, true, 1767671225, number⟩] := by
    rw [hfloor]
    rfl
  simp only [StoreWorld.run, catchUp, List.foldl_cons, List.foldl_nil, StoreWorld.step, hputs]
  rfl

theorem latest_read_iff_catchUp :
    getLatest texts (instant (morning 47 35)) (some (StoreWorld.run catchUp).table) "NSE" "INFY"
      "1m" = some (infyFeatures 45) := by
  refine (latest_read_iff texts separable_catchUp ?_ ?_ "NSE" "INFY" "1m" ⟨by decide, by decide⟩
    (by decide) (by decide) (infyFeatures 45)).1.mpr
      ⟨⟨infyFeatures 45, morning 45 0, false, 1767671225, 0⟩, ?_, ⟨rfl, ?_⟩, rfl⟩
  · intro features time h
    simp only [catchUp, List.mem_cons, StoreEvent.write.injEq, reduceCtorEq, List.not_mem_nil,
      or_false] at h
    obtain ⟨rfl, rfl⟩ | ⟨rfl, rfl⟩ := h <;> exact le_refl (instant (morning 47 5))
  · intro key time h
    simp [catchUp] at h
  · rw [run_catchUp]
    decide
  · have hthreshold : (300 : ℚ) ≤ stalenessThresholdSeconds "1m" := le_max_left _ _
    have hage : instant (morning 47 35) - instant (morning 47 5) = 30 := by
      rw [instant_morning, instant_morning]
      norm_num
    exact hage.le.trans ((by norm_num : (30 : ℚ) ≤ 300).trans hthreshold)

end Latest

section Archive

/-- `strftime("%Y-%m-%d")`, for the years from 1000 on -/
def dateText (day : DateTime) : List Char :=
  pad 4 day.year ++ ['-'] ++ pad 2 day.month ++ ['-'] ++ pad 2 day.day

structure ArchiveRecord where
  symbol : Option String
  market : Option String
  interval : Option String
  candleTime : Option String
  rsi14 : Option ℚ
  ema9 : Option ℚ
  ema21 : Option ℚ
  vwap : Option ℚ
  atr14 : Option ℚ
  adx14 : Option ℚ
  macd : Option ℚ
  macdSignal : Option ℚ
  macdHist : Option ℚ
  volumeRatio : Option ℚ
  candleCount : ℤ
  computedAt : Option String
  deriving DecidableEq, Repr

/-- What `sort_values` goes by: a missing text comes last. -/
def ArchiveRecord.sortText (r : ArchiveRecord) : WithTop String := r.candleTime

/-- `_s` -/
def readText (item : Item) (name : String) : Option String :=
  match item.lookup name with
  | some (.s t) => some t
  | _ => none

/-- A row of the frame; `none` where `float` or `int` raises an error. -/
def archiveRecord (py : TextForms) (item : Item) : Option ArchiveRecord := do
  return {
    symbol := readText item "symbol"
    market := readText item "market"
    interval := readText item "interval"
    candleTime := readText item "candle_time"
    rsi14 := ← readFigure py item "rsi_14"
    ema9 := ← readFigure py item "ema_9"
    ema21 := ← readFigure py item "ema_21"
    vwap := ← readFigure py item "vwap"
    atr14 := ← readFigure py item "atr_14"
    adx14 := ← readFigure py item "adx_14"
    macd := ← readFigure py item "macd"
    macdSignal := ← readFigure py item "macd_signal"
    macdHist := ← readFigure py item "macd_hist"
    volumeRatio := ← readFigure py item "volume_ratio"
    candleCount := ← PythonInt.parse ((item.number "candle_count").getD "0").toList
    computedAt := readText item "computed_at" }

/-- `_rows_to_dataframe` -/
def rowsToDataframe (py : TextForms) (items : List Item) : Option (List ArchiveRecord) :=
  (items.mapM (archiveRecord py)).map fun records =>
    records.insertionSort fun a b => a.sortText ≤ b.sortText

/-- The rows of a partition whose sort key begins with a text. -/
def candleRows (table : KeyedTable Put.key) (partition beginning : String) : List Put :=
  table.rows.filter fun p =>
    p.key.1 = partition && beginning.toList.isPrefixOf p.key.2.toList

/-- `_archive_one`: the object and what it holds, if there are rows; `query` answers page by
page, and `fuel` bounds the number of pages. -/
def archiveOne (py : TextForms) (query : String → String → List (List Put)) (fuel : ℕ)
    (symbol interval : String) (day : DateTime) :
    Option (Option (String × List ArchiveRecord)) := do
  let rows ← Paging.followed (Paging.serve (query (featureKey "NSE" symbol interval)
    ("CANDLE#" ++ String.ofList (dateText day) ++ "T"))) (fun _ => true) fuel none
  if rows.isEmpty then return none
  return some ("features/NSE/" ++ symbol ++ "/" ++ interval ++ "/" ++
    String.ofList (dateText day) ++ ".parquet", ← rowsToDataframe py (rows.map fun p => p.item py))

/-- The row of the frame that a put makes. -/
def Put.record (p : Put) : ArchiveRecord where
  symbol := some p.features.symbol
  market := some p.features.market
  interval := some p.features.interval
  candleTime := some (isoText p.candleTime)
  rsi14 := p.features.rsi14
  ema9 := p.features.ema9
  ema21 := p.features.ema21
  vwap := p.features.vwap
  atr14 := p.features.atr14
  adx14 := p.features.adx14
  macd := p.features.macd
  macdSignal := p.features.macdSignal
  macdHist := p.features.macdHist
  volumeRatio := p.features.volumeRatio
  candleCount := p.features.candleCount
  computedAt := some (isoText p.features.computedAt)

theorem archiveRecord_item (py : TextForms) (p : Put) :
    archiveRecord py (p.item py) = some p.record := by
  have hfigure : ∀ figure ∈ p.features.figures,
      readFigure py (p.item py) figure.1 = some figure.2 := fun _ => readFigure_item py p
  simp only [FeatureSet.figures, List.forall_mem_cons] at hfigure
  obtain ⟨hrsi, hema9, hema21, hvwap, hatr, hadx, hmacd, hsignal, hhist, hratio, -⟩ := hfigure
  have hcount : (p.item py).number "candle_count" = some (strInt p.features.candleCount) := rfl
  rw [archiveRecord, hcount, Option.getD_some, parse_strInt, hrsi, hema9, hema21, hvwap, hatr,
    hadx, hmacd, hsignal, hhist, hratio]
  rfl

theorem rowsToDataframe_items (py : TextForms) (rows : List Put) :
    rowsToDataframe py (rows.map fun p => p.item py) =
      some ((rows.map Put.record).insertionSort fun a b => a.sortText ≤ b.sortText) := by
  have hrecords : (rows.map fun p => p.item py).mapM (archiveRecord py) =
      some (rows.map Put.record) := by
    induction rows with
    | nil => rfl
    | cons p rows ih =>
      rw [List.map_cons, List.mapM_cons, archiveRecord_item, ih]
      rfl
  rw [rowsToDataframe, hrecords]
  rfl

def SameDate (s t : DateTime) : Prop := s.year = t.year ∧ s.month = t.month ∧ s.day = t.day

theorem dateText_prefix_iff (day t : DateTime) :
    dateText day ++ ['T'] <+: t.isoformat ↔ SameDate day t := by
  have hyear := pad_selfDelimiting (w := 4) (k := 10000) (by decide)
  have hmonth := pad_selfDelimiting (w := 2) (k := 13) (by decide)
  have hday := pad_selfDelimiting (w := 2) (k := 32) (by decide)
  have hdate := (hyear.pair hmonth ['-']).pair hday ['-']
  have hstamp : ∃ rest, t.isoformat = dateText t ++ ['T'] ++ rest := by
    refine ⟨pad 2 t.hour ++ [':'] ++ pad 2 t.minute ++ [':'] ++ pad 2 t.second ++
      (fraction t.microsecond ++ t.offset.elim [] UtcOffset.text), ?_⟩
    simp [DateTime.isoformat, DateTime.stamp, dateText]
  obtain ⟨rest, hrest⟩ := hstamp
  rw [hrest]
  constructor
  · rintro ⟨tail, h⟩
    rw [List.append_assoc, List.append_assoc] at h
    obtain ⟨heq, -⟩ := @hdate ((day.year, day.month), day.day) ((t.year, t.month), t.day) _ _ h
    simp only [Prod.mk.injEq] at heq
    exact ⟨heq.1.1, heq.1.2, heq.2⟩
  · rintro ⟨hy, hm, hd⟩
    rw [dateText, hy, hm, hd]
    exact List.prefix_append _ _

variable {events : List StoreEvent} {now : ℚ}

/-- The rows of a day in the partition of a series are the last ones put for each of its candles,
if that was not so long ago that they may be gone. -/
theorem mem_candleRows_iff (hplain : Separable events)
    (hpast : ∀ key time, .expire key time ∈ events → time ≤ now) (symbol : String)
    {interval : String} (hinterval : '#' ∉ interval.toList) {day : DateTime}
    (hyoung : ∀ features time t, .write features time ∈ events → features.candleTime = some t →
      SameDate day t → now ≤ time + 6 * 86400) (p : Put) :
    p ∈ candleRows (StoreWorld.run events).table (featureKey "NSE" symbol interval)
        ("CANDLE#" ++ String.ofList (dateText day) ++ "T") ↔
      lastPut Put.name ⟨"NSE", symbol, interval, some p.candleTime⟩
          (StoreWorld.run events).changes = some p ∧ SameDate day p.candleTime := by
  have hnse : '#' ∉ "NSE".toList := by decide
  have hrow : p ∈ (StoreWorld.run events).table.rows ↔
      lastChange Put.key p.key (StoreWorld.run events).changes = some (.put p) := mem_changed_iff
  have hdated : ∀ t, ("CANDLE#" ++ String.ofList (dateText day) ++ "T").toList <+:
      ("CANDLE#" ++ isoText t).toList ↔ SameDate day t := by
    intro t
    rw [← dateText_prefix_iff, isoText]
    simp
  rw [candleRows, List.mem_filter, Bool.and_eq_true, decide_eq_true_eq, List.isPrefixOf_iff_prefix,
    hrow]
  constructor
  · rintro ⟨hstands, hpartition, hbegins⟩
    have hput := (origin_run events).2 p (put_mem_of_lastChange hstands)
    have hplainp := plain_of_origin hplain hput
    obtain ⟨hmarket, hsymbol, hint⟩ := RowName.featureKey_inj hplainp.1 hnse hplainp.2 hinterval
      hpartition
    cases haudit : p.audit with
    | false =>
      have hlatest : p.key.2 = "LATEST" := by
        simp [Put.key, RowName.key, RowName.sortKey, Put.name, haudit]
      rw [hlatest] at hbegins
      simp at hbegins
    | true =>
      have hcandle : p.key.2 = "CANDLE#" ++ isoText p.candleTime := by
        simp [Put.key, RowName.key, RowName.sortKey, Put.name, haudit]
      have hname : p.name = ⟨"NSE", symbol, interval, some p.candleTime⟩ := by
        rw [← hmarket, ← hsymbol, ← hint]
        simp [Put.name, haudit]
      rw [hcandle, hdated] at hbegins
      refine ⟨?_, hbegins⟩
      rw [← hname, ← lastPut_congr fun q hq => key_eq_iff hplain hplainp hq]
      exact lastPut_of_lastChange hstands
  · rintro ⟨hlast, hdate⟩
    have hname := name_lastPut hlast
    have hmem := put_mem_of_lastPut hlast
    obtain ⟨time, hwrite, hepoch, hcandle⟩ := (origin_run events).2 p hmem
    have haudit : p.audit = true := by
      have hcandle := congrArg RowName.candle hname
      by_contra hlatest
      simp [Put.name, hlatest] at hcandle
    have httl : now ≤ p.ttl := by
      have hfloor := Int.lt_floor_add_one time
      have hnow := hyoung _ time _ hwrite hcandle hdate
      rw [Put.ttl, haudit, if_pos rfl, hepoch, candleTtlSeconds]
      push_cast
      linarith
    have hkey : p.key = RowName.key ⟨"NSE", symbol, interval, some p.candleTime⟩ :=
      congrArg RowName.key hname
    refine ⟨(stands_iff hpast httl).mpr ?_, congrArg Prod.fst hkey, ?_⟩
    · rw [hkey, ← hlast]
      exact lastPut_congr fun q hq => key_eq_iff hplain ⟨hnse, hinterval⟩ hq
    · rw [hkey]
      exact (hdated p.candleTime).mpr hdate

/-- The rows of a partition have different candle times. -/
theorem sortText_nodup {table : KeyedTable Put.key} {partition beginning : String}
    (hcandle : ∀ p ∈ candleRows table partition beginning, p.audit = true) :
    ((candleRows table partition beginning).map fun p => p.record.sortText).Nodup := by
  have hrows : (candleRows table partition beginning).Nodup :=
    (List.Nodup.of_map _ table.nodup).filter _
  refine hrows.map_on ?_
  intro p hp q hq h
  have htime : p.candleTime = q.candleTime := isoText_injective (Option.some.inj h)
  obtain ⟨hprow, hpkey⟩ := List.mem_filter.mp hp
  obtain ⟨hqrow, hqkey⟩ := List.mem_filter.mp hq
  rw [Bool.and_eq_true, decide_eq_true_eq] at hpkey hqkey
  refine eq_of_key_eq hprow hqrow (Prod.ext (hpkey.1.trans hqkey.1.symm) ?_)
  simp [Put.key, RowName.key, RowName.sortKey, Put.name, hcandle p hp, hcandle q hq, htime]

theorem pairwise_sorted (records : List ArchiveRecord) :
    (records.insertionSort fun a b => a.sortText ≤ b.sortText).Pairwise
      fun a b => a.sortText ≤ b.sortText := by
  have : Std.Total fun a b : ArchiveRecord => a.sortText ≤ b.sortText := ⟨fun _ _ => le_total _ _⟩
  have : IsTrans ArchiveRecord fun a b => a.sortText ≤ b.sortText := ⟨fun _ _ _ => le_trans⟩
  exact List.pairwise_insertionSort _ records

/-- The archive of a day holds one record for each candle of the day whose audit row has been put,
with what was put last, in the order of the candles' texts; without one there is no archive. -/
theorem archive_exact (py : TextForms) (hplain : Separable events)
    (hpast : ∀ key time, .expire key time ∈ events → time ≤ now) (symbol interval : String)
    (hinterval : '#' ∉ interval.toList) (day : DateTime)
    (hyoung : ∀ features time t, .write features time ∈ events → features.candleTime = some t →
      SameDate day t → now ≤ time + 6 * 86400)
    (query : String → String → List (List Put))
    (hquery : ∀ partition beginning, (query partition beginning).flatten.Perm
      (candleRows (StoreWorld.run events).table partition beginning)) (fuel : ℕ)
    (hfuel : ∀ partition beginning, (query partition beginning).length < fuel) :
    ∃ records : List ArchiveRecord, archiveOne py query fuel symbol interval day =
      some (if records = [] then none else some ("features/NSE/" ++ symbol ++ "/" ++ interval ++
        "/" ++ String.ofList (dateText day) ++ ".parquet", records)) ∧
    (records.Pairwise fun a b => a.sortText < b.sortText) ∧
    ∀ r, r ∈ records ↔ ∃ p, lastPut Put.name ⟨"NSE", symbol, interval, some p.candleTime⟩
      (StoreWorld.run events).changes = some p ∧ SameDate day p.candleTime ∧ r = p.record := by
  have hmem := mem_candleRows_iff hplain hpast symbol hinterval hyoung
  have haudit : ∀ p ∈ candleRows (StoreWorld.run events).table
      (featureKey "NSE" symbol interval) ("CANDLE#" ++ String.ofList (dateText day) ++ "T"),
      p.audit = true := by
    intro p hp
    have hname := congrArg RowName.candle (name_lastPut ((hmem p).mp hp).1)
    by_contra hlatest
    simp [Put.name, hlatest] at hname
  have hnodup := sortText_nodup haudit
  have hpages := hquery (featureKey "NSE" symbol interval)
    ("CANDLE#" ++ String.ofList (dateText day) ++ "T")
  have hfollowed := Paging.followed_serve _ (fun _ => true)
    (hfuel (featureKey "NSE" symbol interval) ("CANDLE#" ++ String.ofList (dateText day) ++ "T"))
  rw [List.filter_true] at hfollowed
  generalize (query (featureKey "NSE" symbol interval)
    ("CANDLE#" ++ String.ofList (dateText day) ++ "T")).flatten = rows at hpages hfollowed
  refine ⟨(rows.map Put.record).insertionSort fun a b => a.sortText ≤ b.sortText, ?_, ?_, ?_⟩
  · rw [archiveOne, hfollowed]
    cases rows with
    | nil => rfl
    | cons p rows =>
      have hne : ((p :: rows).map Put.record).insertionSort
          (fun a b => a.sortText ≤ b.sortText) ≠ [] := by
        intro h
        have hlength := congrArg List.length h
        rw [List.length_insertionSort, List.length_map] at hlength
        exact Nat.succ_ne_zero _ hlength
      rw [if_neg hne]
      simp only [Option.bind_eq_bind, Option.bind_some, List.isEmpty_cons, Bool.false_eq_true,
        if_false, rowsToDataframe_items]
      rfl
  · have hsorted := pairwise_sorted (rows.map Put.record)
    have hdistinct : ((rows.map Put.record).insertionSort
        fun a b => a.sortText ≤ b.sortText).Pairwise fun a b => a.sortText ≠ b.sortText := by
      rw [← List.pairwise_map]
      refine ((List.perm_insertionSort _ _).map _).nodup_iff.mpr ?_
      rw [List.map_map]
      exact (hpages.map _).nodup_iff.mpr hnodup
    exact hsorted.imp₂ (fun a b hle hne => lt_of_le_of_ne hle hne) hdistinct
  · intro r
    rw [List.mem_insertionSort, List.mem_map]
    constructor
    · rintro ⟨p, hp, rfl⟩
      obtain ⟨hlast, hdate⟩ := (hmem p).mp (hpages.mem_iff.mp hp)
      exact ⟨p, hlast, hdate, rfl⟩
    · rintro ⟨p, hlast, hdate, rfl⟩
      exact ⟨p, hpages.mem_iff.mpr ((hmem p).mpr ⟨hlast, hdate⟩), rfl⟩

theorem archive_exact_catchUp :
    ∃ records, archiveOne texts (fun partition beginning =>
        [[], candleRows (StoreWorld.run catchUp).table partition beginning]) 3 "INFY" "1m"
          (morning 0 0) = some (some ("features/NSE/INFY/1m/2026-01-06.parquet", records)) ∧
      ∀ minute ∈ [45, 46], Put.record ⟨infyFeatures minute, morning minute 0, true, 1767671225,
        minute - 45⟩ ∈ records := by
  have hpast : ∀ key time, .expire key time ∈ catchUp → time ≤ instant (morning 47 35) :=
    fun key time h => by simp [catchUp] at h
  obtain ⟨records, harchive, -, hmem⟩ := archive_exact texts separable_catchUp hpast "INFY" "1m"
    (by decide) (morning 0 0)
    (fun features time t h _ _ => by
      simp only [catchUp, List.mem_cons, StoreEvent.write.injEq, reduceCtorEq, List.not_mem_nil,
        or_false] at h
      obtain ⟨-, rfl⟩ | ⟨-, rfl⟩ := h <;> rw [instant_morning, instant_morning] <;> norm_num)
    (fun partition beginning =>
      [[], candleRows (StoreWorld.run catchUp).table partition beginning])
    (fun _ _ => by simp) 3 (fun _ _ => by simp)
  have hrecords : ∀ minute ∈ [45, 46], Put.record ⟨infyFeatures minute,
      morning minute 0, true, 1767671225, minute - 45⟩ ∈ records := by
    intro minute h
    refine (hmem _).mpr ⟨_, ?_, ⟨rfl, rfl, rfl⟩, rfl⟩
    rw [run_catchUp]
    obtain rfl | rfl := List.mem_pair.mp h <;> decide
  refine ⟨records, ?_, hrecords⟩
  rw [harchive, if_neg (List.ne_nil_of_mem (hrecords 45 (by decide)))]
  rfl

end Archive

end QuantEmbrace.Features
