import QuantEmbrace.CandleStream
import QuantEmbrace.Indicators
import Mathlib.Data.List.Chain

/-! Overlapping responses. The stream passes over a candle that opens when the last processed one
did; a response brings several candles, and the next one most of them again. -/
namespace QuantEmbrace.Candles
open GuardedRun Indicators

/-- What is stored, handed on and kept of one candle of the stream. -/
structure CandleData where
  openTime : ℚ
  values : Ohlcv
  dataQuality : String := "NORMAL"
  deriving DecidableEq, Repr

/-- An item of a response. The date may be missing, and the rest may not parse. -/
structure RawCandle where
  date : Option ℚ
  values : Option Ohlcv
  dataQuality : String := "NORMAL"
  deriving DecidableEq, Repr

/-- What the loop of `_fetch_candles` gets through to: items that do not parse are passed over,
and one without a date ends the fetch with an `AttributeError`. -/
def parsed : List RawCandle → List CandleData
  | [] => []
  | raw :: raws =>
    match raw.values, raw.date with
    | none, _ => parsed raws
    | some _, none => []
    | some values, some date => ⟨date, values, raw.dataQuality⟩ :: parsed raws

/-- The open times ascend. -/
def Increasing (cs : List CandleData) : Prop := cs.Pairwise fun c d => c.openTime < d.openTime

instance : DecidablePred Increasing := fun cs =>
  inferInstanceAs (Decidable (cs.Pairwise fun c d => c.openTime < d.openTime))

/-- A window of candles in order; one that is empty stands for a call that fails too. -/
structure HistoricalWindow where
  candlesRaw : List RawCandle
  increasing : Increasing (parsed candlesRaw)

/-- What the stream of one interval is built with. -/
structure Wiring where
  interval : String
  dynamo : Bool
  onCandle : Bool
  features : Bool
  deriving DecidableEq, Repr

/-- `_maybe_compute_features` goes on to compute. -/
def Wiring.computes (w : Wiring) : Bool := w.features && w.interval = "minute"

def featureHistorySize : ℕ := 40

/-- The entries of one instrument and interval. The last four fields are what was done. -/
structure IntradayCandleStream where
  lastCandleDt : Option ℚ := none
  candleHistory : List CandleData := []
  written : List CandleData := []
  calledBack : List CandleData := []
  appended : List CandleData := []
  computed : List (List CandleData) := []
  deriving DecidableEq, Repr

namespace IntradayCandleStream
variable (w : Wiring)

/-- `_update_candle_history` and `_maybe_compute_features` -/
def updateHistory (s : IntradayCandleStream) (candle : CandleData) : IntradayCandleStream :=
  let history := push featureHistorySize s.candleHistory candle
  { s with
    candleHistory := history
    appended := s.appended ++ [candle]
    computed := if w.computes then s.computed ++ [history] else s.computed }

/-- A turn of the loop. Errors of the put and of the callback are logged. -/
def process (s : IntradayCandleStream) (candle : CandleData) : IntradayCandleStream :=
  if s.lastCandleDt = some candle.openTime then s
  else
    updateHistory w
      { s with
        lastCandleDt := some candle.openTime
        written := if w.dynamo then s.written ++ [candle] else s.written
        calledBack := if w.onCandle then s.calledBack ++ [candle] else s.calledBack } candle

def fetchCandles (s : IntradayCandleStream) (r : HistoricalWindow) : IntradayCandleStream :=
  (parsed r.candlesRaw).foldl (process w) s

/-- Nothing was done twice for one open time, and all features come of ascending candles. -/
structure OncePerCandle (s : IntradayCandleStream) : Prop where
  written : (s.written.map CandleData.openTime).Nodup
  calledBack : (s.calledBack.map CandleData.openTime).Nodup
  appended : (s.appended.map CandleData.openTime).Nodup
  computed : ∀ history ∈ s.computed, Increasing history

/-- The candles of a response less a first one that is the last processed. -/
def fresh (s : IntradayCandleStream) (candles : List CandleData) : List CandleData :=
  candles.dropWhile fun c => s.lastCandleDt = some c.openTime

/-- The response begins no earlier than the last candle processed. Where no features are computed,
it brings no other candle than a first one that was processed before. -/
def Admits (s : IntradayCandleStream) (r : HistoricalWindow) : Prop :=
  if w.computes then
    ∀ c ∈ (parsed r.candlesRaw).head?, ∀ t ∈ s.lastCandleDt, t ≤ c.openTime
  else ∀ c ∈ s.fresh (parsed r.candlesRaw), ∀ a ∈ s.appended, a.openTime ≠ c.openTime

end IntradayCandleStream

section Increasing
variable {cs ds : List CandleData} {c : CandleData}

theorem Increasing.nodup (h : Increasing cs) : (cs.map CandleData.openTime).Nodup :=
  List.pairwise_map.mpr (h.imp fun hlt => hlt.ne)

theorem Increasing.sublist (h : Increasing cs) (hsub : ds.Sublist cs) : Increasing ds :=
  List.Pairwise.sublist hsub h

theorem increasing_append : Increasing (cs ++ ds) ↔
    Increasing cs ∧ Increasing ds ∧ ∀ c ∈ cs, ∀ d ∈ ds, c.openTime < d.openTime :=
  List.pairwise_append

/-- In an ascending list the last candle is the latest. -/
theorem Increasing.le_last (h : Increasing cs) (hlast : cs.getLast? = some c) {d : CandleData}
    (hd : d ∈ cs) : d.openTime ≤ c.openTime := by
  obtain ⟨pre, rfl⟩ := List.getLast?_eq_some_iff.mp hlast
  obtain hpre | hc := List.mem_append.mp hd
  · exact ((increasing_append.mp h).2.2 d hpre c List.mem_cons_self).le
  · rw [List.mem_singleton.mp hc]

theorem Increasing.head_le (h : Increasing cs) (hhead : cs.head? = some c) {d : CandleData}
    (hd : d ∈ cs) : c.openTime ≤ d.openTime := by
  obtain ⟨tail, rfl⟩ := List.head?_eq_some_iff.mp hhead
  obtain rfl | htail := List.mem_cons.mp hd
  · exact le_rfl
  · exact (List.rel_of_pairwise_cons h htail).le

/-- Histories of two candles and more show whether the next one ascends. -/
theorem increasing_snoc {n : ℕ} (hn : 2 ≤ n) :
    Increasing (cs ++ [c]) ↔ Increasing cs ∧ Increasing (lastN n (cs ++ [c])) := by
  constructor
  · intro h
    exact ⟨(increasing_append.mp h).1, h.sublist (List.drop_sublist _ _)⟩
  · intro ⟨hcs, hlast⟩
    refine increasing_append.mpr ⟨hcs, List.pairwise_singleton _ _, fun d hd e he => ?_⟩
    rw [List.mem_singleton.mp he]
    obtain rfl | ⟨pre, b, rfl⟩ := List.eq_nil_or_concat cs
    · cases hd
    · -- the last two candles are in the history
      have hdrop : lastN n (pre.concat b ++ [c]) = pre.drop (pre.length + 2 - n) ++ [b, c] := by
        rw [lastN, List.concat_eq_append, List.append_assoc, List.length_append]
        exact List.drop_append_of_le_length (by simp; omega)
      rw [hdrop] at hlast
      have hbc : b.openTime < c.openTime :=
        List.rel_of_pairwise_cons (increasing_append.mp hlast).2.1 List.mem_cons_self
      refine lt_of_le_of_lt (hcs.le_last ?_ hd) hbc
      rw [List.concat_eq_append, List.getLast?_concat]

end Increasing

namespace IntradayCandleStream
variable (w : Wiring) {s : IntradayCandleStream} {c : CandleData} {cs : List CandleData}

/-- What the fields say of each other in every state. -/
structure Tracks (s : IntradayCandleStream) : Prop where
  last_eq : s.lastCandleDt = s.appended.getLast?.map CandleData.openTime
  history_eq : s.candleHistory = lastN featureHistorySize s.appended
  written_sub : s.written.Sublist s.appended
  calledBack_sub : s.calledBack.Sublist s.appended
  computed_iff : (∀ history ∈ s.computed, Increasing history) ↔
    (w.computes = true → Increasing s.appended)

theorem tracks_init : Tracks w {} where
  last_eq := rfl
  history_eq := rfl
  written_sub := List.Sublist.refl _
  calledBack_sub := List.Sublist.refl _
  computed_iff := by simp [Increasing]

variable {w}

theorem process_of_last (h : s.lastCandleDt = some c.openTime) : s.process w c = s := if_pos h

/-- A candle that is not passed over is appended, and remembered. -/
theorem process_new (h : s.lastCandleDt ≠ some c.openTime) :
    (s.process w c).lastCandleDt = some c.openTime ∧
      (s.process w c).appended = s.appended ++ [c] := by
  rw [process, if_neg h]
  exact ⟨rfl, rfl⟩

theorem Tracks.process (h : s.Tracks w) (c : CandleData) : (s.process w c).Tracks w := by
  rw [IntradayCandleStream.process]
  split
  · exact h
  have hhistory : push featureHistorySize s.candleHistory c =
      lastN featureHistorySize (s.appended ++ [c]) := by
    rw [h.history_eq, push_lastN]
  refine ⟨?_, hhistory, ?_, ?_, ?_⟩
  · simp [updateHistory]
  · dsimp only [updateHistory]
    split
    · exact h.written_sub.append_right _
    · exact h.written_sub.trans (List.sublist_append_left _ _)
  · dsimp only [updateHistory]
    split
    · exact h.calledBack_sub.append_right _
    · exact h.calledBack_sub.trans (List.sublist_append_left _ _)
  · have hold := h.computed_iff
    dsimp only [updateHistory]
    cases hcomputes : w.computes with
    | false =>
      rw [hcomputes] at hold
      simpa using hold
    | true =>
      rw [hcomputes] at hold
      simp only [forall_const, if_true] at hold ⊢
      rw [List.forall_mem_append, List.forall_mem_singleton, hold, hhistory]
      exact (increasing_snoc (by decide)).symm

theorem Tracks.foldl (h : s.Tracks w) (cs : List CandleData) :
    (cs.foldl (IntradayCandleStream.process w) s).Tracks w := by
  induction cs generalizing s with
  | nil => exact h
  | cons c cs ih => exact ih (h.process c)

/-- Candles that all open after the remembered time are all appended. -/
theorem appended_of_later (hlast : ∀ t ∈ s.lastCandleDt, ∀ c ∈ cs, t < c.openTime)
    (h : Increasing cs) : (cs.foldl (process w) s).appended = s.appended ++ cs := by
  induction cs generalizing s with
  | nil => exact (List.append_nil _).symm
  | cons c cs ih =>
    have hne : s.lastCandleDt ≠ some c.openTime :=
      fun heq => (hlast _ heq c List.mem_cons_self).false
    obtain ⟨hdt, happended⟩ := process_new (w := w) hne
    rw [List.foldl_cons, ih ?_ h.of_cons, happended, List.append_assoc, List.singleton_append]
    intro t ht d hd
    rw [hdt, Option.mem_some_iff] at ht
    exact ht ▸ List.rel_of_pairwise_cons h hd

theorem fresh_cons_of_last (hlast : s.lastCandleDt = some c.openTime) (h : Increasing (c :: cs)) :
    s.fresh (c :: cs) = cs := by
  rw [fresh, List.dropWhile_cons_of_pos (by simpa using hlast)]
  cases cs with
  | nil => rfl
  | cons d cs =>
    refine List.dropWhile_cons_of_neg ?_
    have hlt : c.openTime < d.openTime := List.rel_of_pairwise_cons h List.mem_cons_self
    simpa [hlast] using hlt.ne

theorem fresh_cons_of_ne (hlast : s.lastCandleDt ≠ some c.openTime) :
    s.fresh (c :: cs) = c :: cs :=
  List.dropWhile_cons_of_neg (by simpa using hlast)

/-- After its first candle no other one of an ascending response is passed over. -/
theorem fetch_appended (h : Increasing cs) :
    (cs.foldl (process w) s).appended = s.appended ++ s.fresh cs := by
  cases cs with
  | nil => exact (List.append_nil _).symm
  | cons c cs =>
    have hlater : ∀ d ∈ cs, c.openTime < d.openTime := fun d hd => List.rel_of_pairwise_cons h hd
    by_cases hlast : s.lastCandleDt = some c.openTime
    · rw [fresh_cons_of_last hlast h, List.foldl_cons, process_of_last hlast]
      refine appended_of_later (fun t ht d hd => ?_) h.of_cons
      rw [hlast, Option.mem_some_iff] at ht
      exact ht ▸ hlater d hd
    · obtain ⟨hdt, happended⟩ := process_new (w := w) hlast
      rw [fresh_cons_of_ne hlast, List.foldl_cons, appended_of_later ?_ h.of_cons, happended,
        List.append_assoc, List.singleton_append]
      intro t ht d hd
      rw [hdt, Option.mem_some_iff] at ht
      exact ht ▸ hlater d hd

/-- What is appended decides. -/
theorem Tracks.once_iff (h : s.Tracks w) : s.OncePerCandle ↔
    (s.appended.map CandleData.openTime).Nodup ∧ (w.computes = true → Increasing s.appended) := by
  constructor
  · intro honce
    exact ⟨honce.appended, h.computed_iff.mp honce.computed⟩
  · intro ⟨hnodup, hinc⟩
    exact
      { written := hnodup.sublist (h.written_sub.map _)
        calledBack := hnodup.sublist (h.calledBack_sub.map _)
        appended := hnodup
        computed := h.computed_iff.mpr hinc }

/-- Ascending candles go on ascending exactly with a response that begins at the last or later. -/
theorem Tracks.increasing_fresh (h : s.Tracks w) (hs : Increasing s.appended)
    (hcs : Increasing cs) : Increasing (s.appended ++ s.fresh cs) ↔
      ∀ c ∈ cs.head?, ∀ t ∈ s.lastCandleDt, t ≤ c.openTime := by
  cases cs with
  | nil => simpa [fresh] using hs
  | cons c cs =>
    have hlater : ∀ d ∈ cs, c.openTime < d.openTime := fun d hd => List.rel_of_pairwise_cons hcs hd
    rw [List.head?_cons]
    constructor
    · rintro hinc _ ⟨⟩ t ht
      by_cases hlast : s.lastCandleDt = some c.openTime
      · exact (Option.some.inj (ht.symm.trans hlast)).le
      · rw [fresh_cons_of_ne hlast] at hinc
        obtain ⟨b, hb, rfl⟩ := Option.map_eq_some_iff.mp (h.last_eq.symm.trans ht)
        exact ((increasing_append.mp hinc).2.2 b (List.mem_of_getLast? hb) c
          List.mem_cons_self).le
    · intro hle
      refine increasing_append.mpr ⟨hs, hcs.sublist (List.dropWhile_sublist _), fun a ha d hd => ?_⟩
      obtain ⟨b, hb⟩ : ∃ b, s.appended.getLast? = some b :=
        Option.isSome_iff_exists.mp (List.getLast?_isSome.mpr (List.ne_nil_of_mem ha))
      have hdt : s.lastCandleDt = some b.openTime := by rw [h.last_eq, hb, Option.map_some]
      have hbc : b.openTime ≤ c.openTime := hle c rfl _ hdt
      refine (hs.le_last hb ha).trans_lt ?_
      by_cases hlast : s.lastCandleDt = some c.openTime
      · rw [fresh_cons_of_last hlast hcs] at hd
        exact hbc.trans_lt (hlater d hd)
      · rw [fresh_cons_of_ne hlast] at hd
        have hne : b.openTime ≠ c.openTime := fun heq => hlast (heq ▸ hdt)
        exact (hbc.lt_of_ne hne).trans_le (hcs.head_le rfl hd)

/-- Where nothing was done twice yet, a response leaves it so exactly if it is admitted. -/
theorem Tracks.once_fetch (h : s.Tracks w) (hs : s.OncePerCandle) (r : HistoricalWindow) :
    (s.fetchCandles w r).OncePerCandle ↔ s.Admits w r := by
  have hold := h.once_iff.mp hs
  rw [fetchCandles, (h.foldl _).once_iff, fetch_appended r.increasing, Admits]
  cases hcomputes : w.computes with
  | true =>
    rw [if_pos rfl, ← h.increasing_fresh (hold.2 hcomputes) r.increasing]
    exact ⟨fun hall => hall.2 rfl, fun hinc => ⟨hinc.nodup, fun _ => hinc⟩⟩
  | false =>
    have hfresh : ((s.fresh (parsed r.candlesRaw)).map CandleData.openTime).Nodup :=
      (r.increasing.sublist (List.dropWhile_sublist _)).nodup
    rw [if_neg Bool.false_ne_true, and_iff_left fun hf => absurd hf Bool.false_ne_true,
      List.map_append, List.nodup_append]
    constructor
    · intro hall c hc a ha
      exact hall.2.2 _ (List.mem_map_of_mem ha) _ (List.mem_map_of_mem hc)
    · intro hadmit
      refine ⟨hold.1, hfresh, ?_⟩
      rintro _ ha _ hc
      obtain ⟨a, ha', rfl⟩ := List.mem_map.mp ha
      obtain ⟨c, hc', rfl⟩ := List.mem_map.mp hc
      exact hadmit c hc' a ha'

end IntradayCandleStream

/-- In every state of a run of fetches nothing was done twice for one open time and all features
come of ascending candles, exactly if every response is admitted. -/
theorem processed_once_iff (w : Wiring) (responses : List HistoricalWindow) :
    AlongRun (IntradayCandleStream.fetchCandles w) IntradayCandleStream.OncePerCandle {}
        responses ↔
      StepsMeet (IntradayCandleStream.fetchCandles w) (IntradayCandleStream.Admits w) {}
        responses := by
  refine alongRun_iff (I := IntradayCandleStream.Tracks w) (D := fun _ => True)
    (fun s r _ hs => hs.foldl _) (fun s r _ hs honce => hs.once_fetch honce r) responses
    (fun _ _ => trivial) _ (IntradayCandleStream.tracks_init w) ?_
  exact (IntradayCandleStream.tracks_init w).once_iff.mpr
    ⟨List.nodup_nil, fun _ => List.Pairwise.nil⟩

/-- The minutes 0 and 1, as a response. -/
def twoMinutes : HistoricalWindow where
  candlesRaw := [⟨some 0, some ⟨100, 101, 99, 100, 10⟩, "NORMAL"⟩,
    ⟨some 60, some ⟨100, 102, 100, 101, 12⟩, "NORMAL"⟩]
  increasing := by decide +kernel

/-- The same two minutes fetched twice are processed twice. -/
theorem same_window_processed_again :
    ¬ ∀ (w : Wiring) (responses : List HistoricalWindow),
      AlongRun (IntradayCandleStream.fetchCandles w) IntradayCandleStream.OncePerCandle {}
        responses := by
  intro h
  have hlast := (h ⟨"minute", true, true, true⟩ [twoMinutes, twoMinutes]).last.written
  revert hlast
  decide +kernel

end QuantEmbrace.Candles
