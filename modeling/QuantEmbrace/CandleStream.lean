import QuantEmbrace.CandleConsumer
import QuantEmbrace.Lib.GuardedRun
import Mathlib.Logic.Function.Basic

/-! The candle stream of the ingestion service beside the consumer: what is fetched is written to
the candle cache, closed or not, and a poll hands on the first version that it finds. -/
namespace QuantEmbrace.Candles
open GuardedRun

/-- An instrument key, split at its colon; a key without one is of the exchange NSE. -/
structure Instrument where
  exchange : String := "NSE"
  symbol : String
  deriving DecidableEq, Repr

def Instrument.market (i : Instrument) : String :=
  if i.exchange ∈ ["NSE", "BSE", "NFO", "BFO"] then "NSE" else "US"

structure Ohlcv where
  openPrice : ℚ
  high : ℚ
  low : ℚ
  closePrice : ℚ
  volume : ℤ
  deriving DecidableEq, Repr

/-- A candle of the broker: instrument, interval and open time. -/
structure CandleId where
  instrument : Instrument
  interval : String
  openTime : ℚ
  deriving DecidableEq, Repr

def CandleId.key (id : CandleId) : CandleKey where
  market := id.instrument.market
  instrument := id.instrument.symbol
  interval := id.interval
  candleOpenTime := id.openTime

/-- The final values of every candle. -/
abbrev FinalValues : Type := CandleId → Ohlcv

/-- A candle of a response: its open is not in the future, and it is final if it has closed. -/
structure FetchedCandle (final : FinalValues) extends CandleId where
  values : Ohlcv
  fetchedAt : ℚ
  dataQuality : String := "NORMAL"
  open_le : openTime ≤ fetchedAt
  final_of_closed : toCandleId.key.closeTime ≤ fetchedAt → values = final toCandleId

/-- The row that `_write_candle` puts. -/
def FetchedCandle.row {final : FinalValues} (e : FetchedCandle final) (writtenAt : ℚ) : CandleRow :=
  { e.toCandleId.key, e.values with
    dataQuality := e.dataQuality
    expiresAt := ⌊writtenAt⌋ + 7200 }

def CandleRow.ohlcv (row : CandleRow) : Ohlcv :=
  ⟨row.openPrice, row.high, row.low, row.closePrice, row.volume⟩

def CandleResult.ohlcv (r : CandleResult) : Ohlcv :=
  ⟨r.openPrice, r.high, r.low, r.closePrice, r.volume⟩

/-- One turn of the loop of `_fetch_candles`, whose put may fail; or a poll. Turns of one fetch
and of others, and polls, come in any order. -/
inductive StreamEvent (final : FinalValues) where
  | candle (e : FetchedCandle final) (writtenAt : ℚ) (applied : Bool)
  | poll (now : ℚ)

/-- A candle that went to the strategies, with the origin of its values. -/
structure Delivered where
  result : CandleResult
  candle : CandleId
  fetchedAt : ℚ
  deriving DecidableEq, Repr

/-- Where the values of a row come from, and when they were fetched. -/
structure Origin where
  candle : CandleId
  fetchedAt : ℚ
  deriving DecidableEq, Repr

/-- `lastCandleDt` is the stream's, `consumer` the reader's; `origin` is history. -/
structure StreamWorld where
  lastCandleDt : Instrument × String → Option ℚ := fun _ => none
  table : List CandleRow := []
  origin : CandleKey → Option Origin := fun _ => none
  consumer : ConsumerState
  delivered : List Delivered := []

namespace StreamWorld
variable {final : FinalValues} (watched : CandleKey → Bool)

/-- `put_item` -/
def put (w : StreamWorld) (e : FetchedCandle final) (writtenAt : ℚ) : StreamWorld :=
  { w with
    table := e.row writtenAt :: w.table.filter fun row => row.toCandleKey ≠ e.toCandleId.key
    origin := Function.update w.origin e.toCandleId.key (some ⟨e.toCandleId, e.fetchedAt⟩) }

/-- A turn of the loop: the same open time twice in a row is passed over. -/
def processRaw (w : StreamWorld) (e : FetchedCandle final) (writtenAt : ℚ) (applied : Bool) :
    StreamWorld :=
  if w.lastCandleDt (e.instrument, e.interval) = some e.openTime then w
  else
    let w := { w with
      lastCandleDt := Function.update w.lastCandleDt (e.instrument, e.interval) (some e.openTime) }
    if applied then w.put e writtenAt else w

/-- The candles that go to the strategies, out of those returned: some runner watches them. -/
def deliveries (w : StreamWorld) (results : List CandleResult) : List Delivered :=
  results.filterMap fun r =>
    if watched r.toCandleKey then
      (w.origin r.toCandleKey).map fun o => ⟨r, o.candle, o.fetchedAt⟩
    else none

def poll (w : StreamWorld) (now : ℚ) : StreamWorld :=
  let polled := serviceConsumer.pollNewCandles getMarketPhase w.table now w.consumer
  { w with
    consumer := polled.1
    delivered := w.deliveries watched polled.2 ++ w.delivered }

def step (w : StreamWorld) : StreamEvent final → StreamWorld
  | .candle e writtenAt applied => w.processRaw e writtenAt applied
  | .poll now => w.poll watched now

/-- An empty cache, and a consumer that has not polled. -/
def init (started : ℚ) : StreamWorld where
  consumer := { lastEvict := started }

end StreamWorld

/-- The values were fetched after the close, and are the final ones. -/
def Delivered.Confirmed (final : FinalValues) (d : Delivered) : Prop :=
  d.result.toCandleKey.closeTime ≤ d.fetchedAt ∧ d.result.ohlcv = final d.candle

instance (final : FinalValues) : DecidablePred (Delivered.Confirmed final) :=
  fun _ => instDecidableAnd

/-- The poll finds no watched row in its window, new to it, that was fetched before the close. -/
def ReadsConfirmed {final : FinalValues} (watched : CandleKey → Bool) (w : StreamWorld) :
    StreamEvent final → Prop
  | .poll now => ∀ row ∈ w.table, watched row.toCandleKey = true →
      row.Visible (serviceConsumer.cutoff w.consumer now) now →
      row.toCandleKey ∉ ConsumerState.dedupKeys (w.consumer.evicted now).dedup →
      ∀ o, w.origin row.toCandleKey = some o → row.toCandleKey.closeTime ≤ o.fetchedAt
  | .candle _ _ _ => True

/-- A candle that is returned is a row of the table, in the window and new. -/
theorem collect_row {cutoff now : ℚ} {rows : List CandleRow} {dedup : List (CandleKey × ℚ)}
    {r : CandleResult} (h : r ∈ (collect cutoff now rows dedup).2) :
    ∃ row ∈ rows, r = row.parseItem ∧ row.Visible cutoff now ∧
      row.toCandleKey ∉ ConsumerState.dedupKeys dedup := by
  induction rows generalizing dedup with
  | nil => cases h
  | cons row rows ih =>
    rw [collect] at h
    split at h
    · obtain ⟨row', hmem, hrow'⟩ := ih h
      exact ⟨row', List.mem_cons_of_mem _ hmem, hrow'⟩
    · next hnew =>
      rw [not_or, not_not] at hnew
      obtain rfl | h := List.mem_cons.mp h
      · exact ⟨row, List.mem_cons_self, rfl, hnew⟩
      · obtain ⟨row', hmem, hr, hvis, hfresh⟩ := ih h
        refine ⟨row', List.mem_cons_of_mem _ hmem, hr, hvis, fun hd => hfresh ?_⟩
        exact List.mem_cons_of_mem _ hd

namespace StreamWorld
variable {final : FinalValues} {watched : CandleKey → Bool} {w : StreamWorld} {now : ℚ}

/-- Every row is of the candle its origin names, and has its final values if it was fetched
after the close. -/
def RowsTrue (final : FinalValues) (w : StreamWorld) : Prop :=
  ∀ row ∈ w.table, ∃ o, w.origin row.toCandleKey = some o ∧
    (row.toCandleKey.closeTime ≤ o.fetchedAt → row.ohlcv = final o.candle)

def AllConfirmed (final : FinalValues) (w : StreamWorld) : Prop :=
  ∀ d ∈ w.delivered, d.Confirmed final

instance : Decidable (w.AllConfirmed final) := List.decidableBAll _ _

theorem RowsTrue.put (h : w.RowsTrue final) (e : FetchedCandle final) (writtenAt : ℚ) :
    (w.put e writtenAt).RowsTrue final := by
  intro row hrow
  obtain rfl | hrow := List.mem_cons.mp hrow
  · exact ⟨⟨e.toCandleId, e.fetchedAt⟩, Function.update_self .., e.final_of_closed⟩
  · obtain ⟨hmem, hne⟩ := List.mem_filter.mp hrow
    obtain ⟨o, ho, hfinal⟩ := h row hmem
    exact ⟨o, (Function.update_of_ne (by simpa using hne) _ _).trans ho, hfinal⟩

theorem RowsTrue.step (h : w.RowsTrue final) (e : StreamEvent final) :
    (w.step watched e).RowsTrue final := by
  cases e with
  | poll now => exact h
  | candle e writtenAt applied =>
    rw [StreamWorld.step, processRaw]
    split
    · exact h
    · dsimp only
      split
      · exact RowsTrue.put (w := { w with lastCandleDt := _ }) h e writtenAt
      · exact h

/-- What a poll returns. -/
def returned (w : StreamWorld) (now : ℚ) : List CandleResult :=
  (collect (serviceConsumer.cutoff w.consumer now) now
    (queryCandleCache (serviceConsumer.cutoff w.consumer now) now w.table)
    (w.consumer.evicted now).dedup).2

theorem poll_delivered :
    (w.poll watched now).delivered = w.deliveries watched (w.returned now) ++ w.delivered :=
  rfl

theorem mem_deliveries {results : List CandleResult} {d : Delivered} :
    d ∈ w.deliveries watched results ↔ ∃ r ∈ results, watched r.toCandleKey = true ∧
      ∃ o, w.origin r.toCandleKey = some o ∧ d = ⟨r, o.candle, o.fetchedAt⟩ := by
  simp only [deliveries, List.mem_filterMap]
  constructor
  · rintro ⟨r, hr, hd⟩
    split at hd
    · next hw =>
      obtain ⟨o, ho, rfl⟩ := Option.map_eq_some_iff.mp hd
      exact ⟨r, hr, hw, o, ho, rfl⟩
    · cases hd
  · rintro ⟨r, hr, hw, o, ho, rfl⟩
    exact ⟨r, hr, by rw [if_pos hw, ho]; rfl⟩

/-- A row of the window that is new is returned, under its key. -/
theorem exists_returned {row : CandleRow} (hrow : row ∈ w.table)
    (hvis : row.Visible (serviceConsumer.cutoff w.consumer now) now)
    (hnew : row.toCandleKey ∉ ConsumerState.dedupKeys (w.consumer.evicted now).dedup) :
    ∃ r ∈ w.returned now, r.toCandleKey = row.toCandleKey := by
  have honce := collect_once hnew (offered_query.mpr ⟨row, hrow, rfl, hvis⟩)
  have hpos : 0 < (w.returned now).countP (fun r => r.toCandleKey = row.toCandleKey) := by
    rw [returned, honce]
    exact Nat.one_pos
  simpa using List.countP_pos_iff.mp hpos

/-- A poll delivers confirmed candles only, exactly when it finds no other. -/
theorem poll_confirmed (hrows : w.RowsTrue final) :
    (∀ d ∈ w.deliveries watched (w.returned now), d.Confirmed final) ↔
      ReadsConfirmed watched w (.poll now : StreamEvent final) := by
  constructor
  · intro hall row hrow hwatched hvis hnew o ho
    obtain ⟨r, hr, hkey⟩ := exists_returned hrow hvis hnew
    rw [← hkey] at hwatched ho ⊢
    exact (hall _ (mem_deliveries.mpr ⟨r, hr, hwatched, o, ho, rfl⟩)).1
  · intro hreads d hd
    obtain ⟨r, hr, hwatched, o, ho, rfl⟩ := mem_deliveries.mp hd
    obtain ⟨row, hrow, rfl, hvis, hnew⟩ := collect_row hr
    have hmem := List.mem_of_mem_filter hrow
    obtain ⟨o', ho', hfinal⟩ := hrows row hmem
    have hclosed := hreads row hmem hwatched hvis hnew o ho
    obtain rfl := Option.some.inj (ho'.symm.trans ho)
    exact ⟨hclosed, hfinal hclosed⟩

theorem step_confirmed (e : StreamEvent final) (hrows : w.RowsTrue final)
    (h : w.AllConfirmed final) :
    (w.step watched e).AllConfirmed final ↔ ReadsConfirmed watched w e := by
  cases e with
  | candle e writtenAt applied =>
    refine iff_of_true ?_ trivial
    rw [AllConfirmed, StreamWorld.step, processRaw]
    split
    · exact h
    · dsimp only
      split <;> exact h
  | poll now =>
    rw [AllConfirmed, StreamWorld.step, poll_delivered, List.forall_mem_append,
      poll_confirmed hrows]
    exact and_iff_left h

end StreamWorld

/-- In every state of a run all candles given to the strategies are confirmed ones, exactly when
no poll finds one in its window that was fetched before its close. -/
theorem strategies_see_confirmed (final : FinalValues) (watched : CandleKey → Bool) (started : ℚ)
    (es : List (StreamEvent final)) :
    AlongRun (StreamWorld.step watched) (StreamWorld.AllConfirmed final)
        (StreamWorld.init started) es ↔
      StepsMeet (StreamWorld.step watched) (ReadsConfirmed watched) (StreamWorld.init started)
        es := by
  refine alongRun_iff (I := StreamWorld.RowsTrue final) (D := fun _ => True)
    (fun w e _ hw => hw.step e)
    (fun w e _ hw h => StreamWorld.step_confirmed e hw h) es (fun _ _ => trivial) _ ?_ ?_
  · exact fun row hrow => absurd hrow List.not_mem_nil
  · exact fun d hd => absurd hd List.not_mem_nil

def infyMinute : CandleId := ⟨⟨"NSE", "INFY"⟩, "minute", 0⟩

def infyFinal : FinalValues := fun _ => ⟨1500, 1510, 1495, 1505, 1000⟩

/-- Half a minute into its candle. -/
def formingCandle : FetchedCandle infyFinal where
  toCandleId := infyMinute
  values := ⟨1500, 1502, 1499, 1501, 400⟩
  fetchedAt := 30
  open_le := by norm_num [infyMinute]
  final_of_closed h := by
    norm_num [infyMinute, CandleId.key, CandleKey.closeTime, intervalMinutes] at h

/-- The forming candle is written and read a second later. -/
theorem forming_candle_delivered :
    ¬ ∀ (final : FinalValues) (watched : CandleKey → Bool) (started : ℚ)
      (es : List (StreamEvent final)),
      AlongRun (StreamWorld.step watched) (StreamWorld.AllConfirmed final)
        (StreamWorld.init started) es := by
  intro h
  have hlast := (h infyFinal (fun _ => true) 0
    [.poll 0, .candle formingCandle 30 true, .poll 31]).last
  revert hlast
  decide +kernel

end QuantEmbrace.Candles
