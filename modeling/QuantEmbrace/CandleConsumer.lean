import Mathlib.Data.Rat.Floor
import Mathlib.Data.List.Chain
import Mathlib.Data.List.Nodup
import Mathlib.Data.List.Range
import Mathlib.Tactic.NormNum
import Mathlib.Tactic.Ring
import Mathlib.Tactic.Linarith

/-! The candle consumer of the strategy engine: rows of the candle cache, the poll with its
cutoff and its dedup map, and which closed candles a run of polls returns. -/
namespace QuantEmbrace.Candles

/-- `_INTERVAL_MINUTES.get(interval, 1)` -/
def intervalMinutes (interval : String) : ℕ :=
  match interval with
  | "minute" | "1min" => 1
  | "3minute" => 3
  | "5minute" | "5min" => 5
  | "10minute" => 10
  | "15minute" | "15min" => 15
  | "30minute" => 30
  | "60minute" | "1h" => 60
  | "day" | "1d" => 1440
  | _ => 1

/-- The primary key of the candle cache, which is also the dedup key. -/
structure CandleKey where
  market : String
  instrument : String
  interval : String
  candleOpenTime : ℚ
  deriving DecidableEq, Repr

/-- A row of the candle cache; times in seconds. -/
structure CandleRow extends CandleKey where
  openPrice : ℚ
  high : ℚ
  low : ℚ
  closePrice : ℚ
  volume : ℤ
  dataQuality : String := "NORMAL"
  expiresAt : ℤ
  deriving DecidableEq, Repr

structure CandleResult extends CandleKey where
  candleCloseTime : ℚ
  openPrice : ℚ
  high : ℚ
  low : ℚ
  closePrice : ℚ
  volume : ℤ
  dataQuality : String
  deriving DecidableEq, Repr

def CandleKey.closeTime (k : CandleKey) : ℚ := k.candleOpenTime + 60 * intervalMinutes k.interval

/-- `_parse_item` -/
def CandleRow.parseItem (row : CandleRow) : CandleResult :=
  { row with candleCloseTime := row.closeTime }

inductive DataQuality where
  | normal
  | warmingUp
  | gap
  | stale
  deriving DecidableEq, Repr

/-- `DataQuality(value)`, and `NORMAL` where that raises. -/
def DataQuality.parse : String → DataQuality
  | "WARMING_UP" => .warmingUp
  | "GAP" => .gap
  | "STALE" => .stale
  | _ => .normal

/-- What a strategy is given. -/
structure Bar where
  symbol : String
  market : String
  openPrice : ℚ
  high : ℚ
  low : ℚ
  closePrice : ℚ
  volume : ℤ
  timestamp : ℚ
  interval : String
  dataQuality : DataQuality := .normal
  deriving DecidableEq, Repr

/-- The timestamp of a bar is the close time of its candle. -/
def CandleResult.toBar (r : CandleResult) : Bar :=
  { r with
    symbol := r.instrument
    timestamp := r.candleCloseTime
    dataQuality := DataQuality.parse r.dataQuality }

inductive MarketPhase where
  | preOpen
  | preAuction
  | marketOpen
  | normal
  | preClose
  | closing
  | postClose
  deriving DecidableEq, Repr

/-- `_get_market_phase` of the service: `MarketPhase` has no member `current`, so that the call
raises, and `None` is returned. -/
def getMarketPhase : Option MarketPhase := none

structure DynamoCandleConsumer where
  lookbackMinutes : ℚ := 10
  startupLookbackMinutes : ℚ := 60
  deriving DecidableEq, Repr

/-- The consumer as `StrategyEngineService.start` builds it. -/
def serviceConsumer : DynamoCandleConsumer where
  lookbackMinutes := 3
  startupLookbackMinutes := 0

/-- What the consumer remembers. One clock stands for the wall clock and the monotonic one. -/
structure ConsumerState where
  startupDone : Bool := false
  dedup : List (CandleKey × ℚ) := []
  lastEvict : ℚ
  deriving DecidableEq, Repr

def dedupEvictSeconds : ℚ := 300

namespace ConsumerState

def dedupKeys (dedup : List (CandleKey × ℚ)) : List CandleKey := dedup.map Prod.fst

/-- `_evict_dedup` -/
def evictDedup (c : ConsumerState) (now : ℚ) : ConsumerState :=
  if now - c.lastEvict < 30 then c
  else { c with
    lastEvict := now
    dedup := c.dedup.filter fun e => ¬ e.2 < now - dedupEvictSeconds }

end ConsumerState

/-- The row is in the lookback window and not past its expiry. -/
def CandleRow.Visible (cutoff now : ℚ) (row : CandleRow) : Prop :=
  cutoff ≤ row.candleOpenTime ∧ ⌊now⌋ < row.expiresAt

instance (cutoff now : ℚ) : DecidablePred (CandleRow.Visible cutoff now) :=
  fun _ => instDecidableAnd

/-- `_query_candle_cache` -/
def queryCandleCache (cutoff now : ℚ) (table : List CandleRow) : List CandleRow :=
  table.filter fun row => row.Visible cutoff now

/-- The loop over the rows that were read: the dedup map, and the candles that are new. -/
def collect (cutoff now : ℚ) :
    List CandleRow → List (CandleKey × ℚ) → List (CandleKey × ℚ) × List CandleResult
  | [], dedup => (dedup, [])
  | row :: rows, dedup =>
    if ¬ row.Visible cutoff now ∨ row.toCandleKey ∈ ConsumerState.dedupKeys dedup then
      collect cutoff now rows dedup
    else
      let rest := collect cutoff now rows ((row.toCandleKey, now) :: dedup)
      (rest.1, row.parseItem :: rest.2)

namespace DynamoCandleConsumer
variable (k : DynamoCandleConsumer)

def cutoff (c : ConsumerState) (now : ℚ) : ℚ :=
  now - 60 * (if c.startupDone then k.lookbackMinutes else k.startupLookbackMinutes)

/-- `poll_new_candles` on the table as it is read. -/
def pollNewCandles (phase : Option MarketPhase) (table : List CandleRow) (now : ℚ)
    (c : ConsumerState) : ConsumerState × List CandleResult :=
  if phase = some .postClose then (c, [])
  else
    let cutoff := k.cutoff c now
    let evicted := { c with startupDone := true }.evictDedup now
    let read := collect cutoff now (queryCandleCache cutoff now table) evicted.dedup
    ({ evicted with dedup := read.1 }, read.2)

end DynamoCandleConsumer

/-- A row of a candle strategy's interval, written once, after its candle has closed and at most
two minutes later. -/
structure ClosedCandle extends CandleRow where
  writtenAt : ℚ
  interval_mem : interval ∈ ["minute", "5minute", "15minute"]
  closed : toCandleKey.closeTime ≤ writtenAt
  written_by : writtenAt ≤ toCandleKey.closeTime + 120
  expires : expiresAt = ⌊writtenAt⌋ + 7200

/-- The rows of a history; the table has one row a key. -/
structure CandleHistory where
  candles : List ClosedCandle
  keys_nodup : (candles.map fun r => r.toCandleKey).Nodup

/-- The table as a poll at `now` reads it. -/
def CandleHistory.tableAt (h : CandleHistory) (now : ℚ) : List CandleRow :=
  (h.candles.filter fun r => r.writtenAt ≤ now).map fun r => r.toCandleRow

/-- Polls at most a second apart. -/
structure Polling where
  times : List ℚ
  chain : times.IsChain fun s t => s ≤ t ∧ t ≤ s + 1

/-- The candles each poll returns. -/
def pollAll (h : CandleHistory) : List ℚ → ConsumerState → List (List CandleResult)
  | [], _ => []
  | now :: times, c =>
    let polled := serviceConsumer.pollNewCandles getMarketPhase (h.tableAt now) now c
    polled.2 :: pollAll h times polled.1

/-- How often a candle is returned. -/
def timesReturned (h : CandleHistory) (times : List ℚ) (c : ConsumerState) (key : CandleKey) : ℕ :=
  (pollAll h times c).flatten.countP fun r => r.toCandleKey = key

/-- Some poll after the first finds the row written, and its open at most three minutes ago. -/
def SeenInTime (times : List ℚ) (r : ClosedCandle) : Prop :=
  ∃ t ∈ times.tail, r.writtenAt ≤ t ∧ t ≤ r.candleOpenTime + 180

section Collect
variable {cutoff now : ℚ} {rows : List CandleRow} {dedup : List (CandleKey × ℚ)} {key : CandleKey}

/-- Some row with the key is there to be returned. -/
def Offered (cutoff now : ℚ) (rows : List CandleRow) (key : CandleKey) : Prop :=
  ∃ row ∈ rows, row.toCandleKey = key ∧ row.Visible cutoff now

theorem offered_cons (row : CandleRow) :
    Offered cutoff now (row :: rows) key ↔
      (row.toCandleKey = key ∧ row.Visible cutoff now) ∨ Offered cutoff now rows key := by
  simp [Offered]

theorem offered_query :
    Offered cutoff now (queryCandleCache cutoff now rows) key ↔ Offered cutoff now rows key := by
  simp only [Offered, queryCandleCache, List.mem_filter, decide_eq_true_eq]
  constructor
  · rintro ⟨row, ⟨hmem, -⟩, h⟩
    exact ⟨row, hmem, h⟩
  · rintro ⟨row, hmem, hkey, hvis⟩
    exact ⟨row, ⟨hmem, hvis⟩, hkey, hvis⟩

/-- Nothing is returned that is in the dedup map or that is not offered. -/
theorem collect_none (h : key ∈ ConsumerState.dedupKeys dedup ∨ ¬ Offered cutoff now rows key) :
    (collect cutoff now rows dedup).2.countP (fun r => r.toCandleKey = key) = 0 := by
  induction rows generalizing dedup with
  | nil => rfl
  | cons row rows ih =>
    rw [offered_cons, not_or] at h
    rw [collect]
    split
    · exact ih (h.imp_right And.right)
    · next hnew =>
      rw [not_or, not_not] at hnew
      have hne : row.toCandleKey ≠ key := by
        rintro rfl
        obtain h | ⟨h, -⟩ := h
        · exact hnew.2 h
        · exact h ⟨rfl, hnew.1⟩
      rw [List.countP_cons_of_neg (by simp [CandleRow.parseItem, hne])]
      refine ih ?_
      obtain h | h := h
      · exact .inl (List.mem_cons_of_mem _ h)
      · exact .inr h.2

/-- What is offered and not in the dedup map is returned once. -/
theorem collect_once (hnew : key ∉ ConsumerState.dedupKeys dedup)
    (h : Offered cutoff now rows key) :
    (collect cutoff now rows dedup).2.countP (fun r => r.toCandleKey = key) = 1 := by
  induction rows generalizing dedup with
  | nil =>
    obtain ⟨row, hmem, -⟩ := h
    cases hmem
  | cons row rows ih =>
    rw [offered_cons] at h
    rw [collect]
    split
    · next hskip =>
      refine ih hnew (h.resolve_left fun hrow => ?_)
      obtain hvis | hseen := hskip
      · exact hvis hrow.2
      · exact hnew (hrow.1 ▸ hseen)
    · next hrow =>
      rw [not_or, not_not] at hrow
      by_cases hkey : row.toCandleKey = key
      · rw [List.countP_cons_of_pos (by simp [CandleRow.parseItem, hkey]),
          collect_none (.inl (by simp [ConsumerState.dedupKeys, hkey]))]
      · rw [List.countP_cons_of_neg (by simp [CandleRow.parseItem, hkey])]
        refine ih ?_ (h.resolve_left fun hr => hkey hr.1)
        simp only [ConsumerState.dedupKeys, List.map_cons, List.mem_cons, not_or] at hnew ⊢
        exact ⟨Ne.symm hkey, hnew⟩

/-- The dedup map keeps its entries. -/
theorem collect_keeps {e : CandleKey × ℚ} (h : e ∈ dedup) :
    e ∈ (collect cutoff now rows dedup).1 := by
  induction rows generalizing dedup with
  | nil => exact h
  | cons row rows ih =>
    rw [collect]
    split
    · exact ih h
    · exact ih (List.mem_cons_of_mem _ h)

/-- What is returned is in the dedup map with the time of the poll. -/
theorem collect_marks (hnew : key ∉ ConsumerState.dedupKeys dedup)
    (h : Offered cutoff now rows key) : (key, now) ∈ (collect cutoff now rows dedup).1 := by
  induction rows generalizing dedup with
  | nil =>
    obtain ⟨row, hmem, -⟩ := h
    cases hmem
  | cons row rows ih =>
    rw [offered_cons] at h
    rw [collect]
    split
    · next hskip =>
      refine ih hnew (h.resolve_left fun hrow => ?_)
      obtain hvis | hseen := hskip
      · exact hvis hrow.2
      · exact hnew (hrow.1 ▸ hseen)
    · by_cases hkey : row.toCandleKey = key
      · exact collect_keeps (by simp [hkey])
      · refine ih ?_ (h.resolve_left fun hr => hkey hr.1)
        simp only [ConsumerState.dedupKeys, List.map_cons, List.mem_cons, not_or] at hnew ⊢
        exact ⟨Ne.symm hkey, hnew⟩

/-- A key that is not offered does not get into the dedup map. -/
theorem collect_unmarked (hnew : key ∉ ConsumerState.dedupKeys dedup)
    (h : ¬ Offered cutoff now rows key) :
    key ∉ ConsumerState.dedupKeys (collect cutoff now rows dedup).1 := by
  induction rows generalizing dedup with
  | nil => exact hnew
  | cons row rows ih =>
    rw [offered_cons, not_or] at h
    rw [collect]
    split
    · exact ih hnew h.2
    · next hrow =>
      rw [not_or, not_not] at hrow
      refine ih ?_ h.2
      simp only [ConsumerState.dedupKeys, List.map_cons, List.mem_cons, not_or] at hnew ⊢
      exact ⟨fun hkey => h.1 ⟨hkey.symm, hrow.1⟩, hnew⟩

end Collect
section Poll
variable {h : CandleHistory} {r : ClosedCandle} {now : ℚ} {times : List ℚ} {c : ConsumerState}

/-- A key is that of one candle of the history. -/
theorem CandleHistory.eq_of_key {r' : ClosedCandle} (hr : r ∈ h.candles) (hr' : r' ∈ h.candles)
    (hkey : r'.toCandleKey = r.toCandleKey) : r' = r :=
  List.inj_on_of_nodup_map h.keys_nodup hr' hr hkey

theorem CandleHistory.offered_iff (hr : r ∈ h.candles) (cutoff : ℚ) :
    Offered cutoff now (h.tableAt now) r.toCandleKey ↔
      r.writtenAt ≤ now ∧ r.toCandleRow.Visible cutoff now := by
  constructor
  · rintro ⟨row, hmem, hkey, hvis⟩
    obtain ⟨r', hr', rfl⟩ := List.mem_map.mp hmem
    obtain ⟨hr', hwritten⟩ := List.mem_filter.mp hr'
    obtain rfl := CandleHistory.eq_of_key hr hr' hkey
    exact ⟨by simpa using hwritten, hvis⟩
  · rintro ⟨hwritten, hvis⟩
    exact ⟨r.toCandleRow, List.mem_map.mpr ⟨r, List.mem_filter.mpr ⟨hr, by simpa using hwritten⟩,
      rfl⟩, rfl, hvis⟩

theorem ClosedCandle.minute_le (r : ClosedCandle) : r.candleOpenTime + 60 ≤ r.writtenAt := by
  have hclosed := r.closed
  have hone : (1 : ℚ) ≤ intervalMinutes r.interval := by
    have hmem := r.interval_mem
    simp only [List.mem_cons, List.not_mem_nil, or_false] at hmem
    obtain hi | hi | hi := hmem <;> simp [hi, intervalMinutes]
  rw [CandleKey.closeTime] at hclosed
  linarith

/-- Three minutes after its open the row of a candle has not expired. -/
theorem ClosedCandle.live (r : ClosedCandle) (hnow : now ≤ r.candleOpenTime + 180) :
    ⌊now⌋ < r.expiresAt := by
  have hwritten := r.minute_le
  have hfloor : ⌊now⌋ ≤ ⌊r.writtenAt⌋ + 120 := by
    rw [← Int.floor_add_ofNat]
    exact Int.floor_le_floor (by linarith)
  rw [r.expires]
  omega

/-- The cutoff of a poll that is not the first lets a candle be seen for three minutes. -/
theorem visible_iff (hstarted : c.startupDone = true) :
    r.toCandleRow.Visible (serviceConsumer.cutoff c now) now ↔ now ≤ r.candleOpenTime + 180 := by
  rw [CandleRow.Visible, DynamoCandleConsumer.cutoff, if_pos hstarted]
  constructor
  · rintro ⟨hcutoff, -⟩
    norm_num [serviceConsumer] at hcutoff
    linarith
  · intro hnow
    refine ⟨?_, r.live hnow⟩
    norm_num [serviceConsumer]
    linarith

/-- The state in which a poll reads. -/
def ConsumerState.evicted (c : ConsumerState) (now : ℚ) : ConsumerState :=
  { c with startupDone := true }.evictDedup now

/-- The rows that a poll reads, and its loop over them. -/
def ConsumerState.collected (c : ConsumerState) (h : CandleHistory) (now : ℚ) :
    List (CandleKey × ℚ) × List CandleResult :=
  collect (serviceConsumer.cutoff c now) now
    (queryCandleCache (serviceConsumer.cutoff c now) now (h.tableAt now)) (c.evicted now).dedup

/-- The state after a poll. -/
def ConsumerState.polled (c : ConsumerState) (h : CandleHistory) (now : ℚ) : ConsumerState :=
  { c.evicted now with dedup := (c.collected h now).1 }

theorem timesReturned_cons (c : ConsumerState) :
    timesReturned h (now :: times) c r.toCandleKey =
      (c.collected h now).2.countP (fun q => q.toCandleKey = r.toCandleKey) +
        timesReturned h times (c.polled h now) r.toCandleKey := by
  rw [timesReturned, pollAll, List.flatten_cons, List.countP_append]
  rfl

variable (now) in
theorem evicted_mem {e : CandleKey × ℚ} (he : e ∈ c.dedup) (hfresh : now - 300 ≤ e.2) :
    e ∈ (c.evicted now).dedup := by
  rw [ConsumerState.evicted, ConsumerState.evictDedup]
  split
  · exact he
  · simp only [List.mem_filter, decide_eq_true_eq, not_lt]
    exact ⟨he, by simpa [dedupEvictSeconds] using hfresh⟩

variable (now) in
theorem evicted_subset {key : CandleKey} (hnew : key ∉ ConsumerState.dedupKeys c.dedup) :
    key ∉ ConsumerState.dedupKeys (c.evicted now).dedup := by
  rw [ConsumerState.evicted, ConsumerState.evictDedup]
  split
  · exact hnew
  · intro hmem
    obtain ⟨e, he, rfl⟩ := List.mem_map.mp hmem
    exact hnew (List.mem_map_of_mem (List.mem_of_mem_filter he))

theorem ConsumerState.polled_started (c : ConsumerState) (h : CandleHistory) (now : ℚ) :
    (c.polled h now).startupDone = true := by
  change (c.evicted now).startupDone = true
  rw [ConsumerState.evicted, ConsumerState.evictDedup]
  split <;> rfl

variable (now) in
theorem offered_query_iff (hr : r ∈ h.candles) (hstarted : c.startupDone = true) :
    Offered (serviceConsumer.cutoff c now) now
        (queryCandleCache (serviceConsumer.cutoff c now) now (h.tableAt now)) r.toCandleKey ↔
      r.writtenAt ≤ now ∧ now ≤ r.candleOpenTime + 180 := by
  rw [offered_query, CandleHistory.offered_iff hr, visible_iff hstarted]

theorem timesReturned_late (hr : r ∈ h.candles) (hstarted : c.startupDone = true)
    (hlate : ∀ t ∈ times, r.candleOpenTime + 180 < t) :
    timesReturned h times c r.toCandleKey = 0 := by
  induction times generalizing c with
  | nil => rfl
  | cons now times ih =>
    obtain ⟨hnow, hlate⟩ := List.forall_mem_cons.mp hlate
    rw [timesReturned_cons, ConsumerState.collected, collect_none,
      ih (c.polled_started h now) hlate]
    rw [offered_query_iff _ hr hstarted]
    exact .inr fun hsee => absurd hsee.2 (not_le.mpr hnow)

/-- While its candle can be seen an entry of the dedup map is not evicted. -/
theorem timesReturned_seen (hr : r ∈ h.candles) (hstarted : c.startupDone = true) {seen : ℚ}
    (hseen : (r.toCandleKey, seen) ∈ c.dedup) (hopen : r.candleOpenTime ≤ seen)
    (hsorted : times.Pairwise (· ≤ ·)) : timesReturned h times c r.toCandleKey = 0 := by
  induction times generalizing c with
  | nil => rfl
  | cons now times ih =>
    obtain ⟨hle, hsorted⟩ := List.pairwise_cons.mp hsorted
    obtain hnow | hnow := le_or_gt now (r.candleOpenTime + 180)
    · have hkeep := evicted_mem now hseen (by linarith)
      rw [timesReturned_cons, ConsumerState.collected,
        collect_none (.inl (List.mem_map_of_mem hkeep)),
        ih (c.polled_started h now) (collect_keeps hkeep) hsorted]
    · exact timesReturned_late hr hstarted (List.forall_mem_cons.mpr
        ⟨hnow, fun t ht => hnow.trans_le (hle t ht)⟩)

/-- From a state that has started and not seen the candle. -/
theorem timesReturned_started (hr : r ∈ h.candles) (hstarted : c.startupDone = true)
    (hnew : r.toCandleKey ∉ ConsumerState.dedupKeys c.dedup) (hsorted : times.Pairwise (· ≤ ·)) :
    timesReturned h times c r.toCandleKey = 1 ∧
        (∃ t ∈ times, r.writtenAt ≤ t ∧ t ≤ r.candleOpenTime + 180) ∨
      timesReturned h times c r.toCandleKey = 0 ∧
        ¬ ∃ t ∈ times, r.writtenAt ≤ t ∧ t ≤ r.candleOpenTime + 180 := by
  induction times generalizing c with
  | nil => exact .inr ⟨rfl, by simp⟩
  | cons now times ih =>
    obtain ⟨hle, hsorted⟩ := List.pairwise_cons.mp hsorted
    have hnew' := evicted_subset now hnew
    rw [timesReturned_cons, ConsumerState.collected]
    by_cases hsee : r.writtenAt ≤ now ∧ now ≤ r.candleOpenTime + 180
    · have hoffer := (offered_query_iff now hr hstarted).mpr hsee
      have hopen : r.candleOpenTime ≤ now := by linarith [r.minute_le, hsee.1]
      rw [collect_once hnew' hoffer, timesReturned_seen hr (c.polled_started h now)
        (collect_marks hnew' hoffer) hopen hsorted]
      exact .inl ⟨rfl, now, by simp, hsee⟩
    · have hoffer := (offered_query_iff now hr hstarted).not.mpr hsee
      rw [collect_none (.inr hoffer), Nat.zero_add]
      simp only [List.mem_cons, exists_eq_or_imp, hsee, false_or]
      exact ih (c.polled_started h now) (collect_unmarked hnew' hoffer) hsorted

end Poll

theorem Polling.sorted (p : Polling) : p.times.Pairwise (· ≤ ·) :=
  List.isChain_iff_pairwise.mp (p.chain.imp fun _ _ h => h.1)

/-- The first poll looks back no time at all, so that it finds nothing closed. -/
theorem first_not_offered {h : CandleHistory} {r : ClosedCandle} (now started : ℚ)
    (hr : r ∈ h.candles) :
    ¬ Offered (serviceConsumer.cutoff { lastEvict := started } now) now
      (queryCandleCache (serviceConsumer.cutoff { lastEvict := started } now) now (h.tableAt now))
      r.toCandleKey := by
  rw [offered_query, CandleHistory.offered_iff hr]
  rintro ⟨hwritten, hcutoff, -⟩
  norm_num [DynamoCandleConsumer.cutoff, serviceConsumer] at hcutoff
  linarith [r.minute_le]

/-- A candle is returned once, seen in time, or never. -/
theorem timesReturned_cases (h : CandleHistory) (p : Polling) (started : ℚ) (r : ClosedCandle)
    (hr : r ∈ h.candles) :
    timesReturned h p.times { lastEvict := started } r.toCandleKey = 1 ∧ SeenInTime p.times r ∨
      timesReturned h p.times { lastEvict := started } r.toCandleKey = 0 ∧
        ¬ SeenInTime p.times r := by
  have hsorted := p.sorted
  simp only [SeenInTime]
  cases htimes : p.times with
  | nil => exact .inr ⟨rfl, by simp⟩
  | cons now times =>
    rw [htimes, List.pairwise_cons] at hsorted
    have hoffer := first_not_offered now started hr
    have hnew : r.toCandleKey ∉ ConsumerState.dedupKeys
        (({ lastEvict := started } : ConsumerState).evicted now).dedup :=
      evicted_subset now (by simp [ConsumerState.dedupKeys])
    rw [timesReturned_cons, ConsumerState.collected, collect_none (.inr hoffer), Nat.zero_add,
      List.tail_cons]
    exact timesReturned_started hr (ConsumerState.polled_started _ h now)
      (collect_unmarked hnew hoffer) hsorted.2

/-- A closed candle is returned by exactly one poll, exactly when some poll after the first comes
between the writing of its row and three minutes after its open. -/
theorem closed_candle_returned_once (h : CandleHistory) (p : Polling) (started : ℚ)
    (r : ClosedCandle) (hr : r ∈ h.candles) :
    timesReturned h p.times { lastEvict := started } r.toCandleKey = 1 ↔
      SeenInTime p.times r := by
  obtain ⟨hone, hsee⟩ | ⟨hzero, hsee⟩ := timesReturned_cases h p started r hr
  · exact iff_of_true hone hsee
  · rw [hzero]
    exact iff_of_false Nat.zero_ne_one hsee

/-- A candle that opens at 0, written as it closes. -/
def candleAtZero (interval : String)
    (hinterval : interval ∈ ["minute", "5minute", "15minute"]) : ClosedCandle where
  market := "NSE"
  instrument := "INFY"
  interval := interval
  candleOpenTime := 0
  openPrice := 1500
  high := 1510
  low := 1495
  closePrice := 1505
  volume := 1000
  expiresAt := 60 * intervalMinutes interval + 7200
  writtenAt := 60 * intervalMinutes interval
  interval_mem := hinterval
  closed := by simp [CandleKey.closeTime]
  written_by := by simp [CandleKey.closeTime]
  expires := by
    rw [show (60 * intervalMinutes interval : ℚ) = ((60 * intervalMinutes interval : ℕ) : ℚ) by
      push_cast; ring, Int.floor_natCast]
    push_cast
    ring

def CandleHistory.single (r : ClosedCandle) : CandleHistory := ⟨[r], by simp⟩

/-- A poll every second. -/
def everySecond (n : ℕ) : Polling where
  times := List.map (fun i : ℕ => (i : ℚ)) (List.range n)
  chain := by
    rw [List.isChain_map, List.isChain_range]
    intro i _
    push_cast
    constructor
    · linarith
    · linarith

theorem mem_everySecond {i n : ℕ} (h : i < n) : (i : ℚ) ∈ (everySecond n).times :=
  List.mem_map_of_mem (List.mem_range.mpr h)

theorem closed_candle_returned_once_minute :
    timesReturned (.single (candleAtZero "minute" (by decide))) (everySecond 100).times
      { lastEvict := 0 } (candleAtZero "minute" (by decide)).toCandleKey = 1 := by
  refine (closed_candle_returned_once _ (everySecond 100) 0 _ (by simp [CandleHistory.single])).mpr
    ⟨60, ?_, ?_, ?_⟩
  · rw [everySecond, ← List.map_tail, List.tail_range]
    exact List.mem_map.mpr ⟨60, by simp, by norm_num⟩
  · norm_num [candleAtZero, intervalMinutes]
  · norm_num [candleAtZero]

/-- A five-minute candle is three minutes old before it has closed: polled from its open to the
expiry of its row, it is not returned. -/
theorem five_minute_candle_lost :
    ¬ ∀ (h : CandleHistory) (p : Polling) (started : ℚ) (r : ClosedCandle), r ∈ h.candles →
      (∃ t ∈ p.times, t ≤ r.candleOpenTime) → (∃ t ∈ p.times, r.expiresAt ≤ t) →
      timesReturned h p.times { lastEvict := started } r.toCandleKey = 1 := by
  intro h
  have hone := h (.single (candleAtZero "5minute" (by decide))) (everySecond 7501) 0
    (candleAtZero "5minute" (by decide)) (by simp [CandleHistory.single])
    ⟨(0 : ℕ), mem_everySecond (by norm_num), by norm_num [candleAtZero]⟩
    ⟨(7500 : ℕ), mem_everySecond (by norm_num), by norm_num [candleAtZero, intervalMinutes]⟩
  rcases timesReturned_cases (.single (candleAtZero "5minute" (by decide))) (everySecond 7501) 0
    (candleAtZero "5minute" (by decide)) (by simp [CandleHistory.single])
    with ⟨-, t, -, hwritten, hopen⟩ | ⟨hzero, -⟩
  · norm_num [candleAtZero, intervalMinutes] at hwritten hopen
    linarith
  · rw [hzero] at hone
    cases hone

end QuantEmbrace.Candles
