import QuantEmbrace.AiSignals
import QuantEmbrace.Lib.GuardedRun
import QuantEmbrace.Lib.OffsetLog
import Mathlib.Logic.Function.Basic

/-! The processing loop of the AI engine over the partitions of `signals.pending`: which messages
make it fail, and what its committed offsets pass. -/
namespace QuantEmbrace.AiEngine
open GuardedRun IsoFormat LossyUtf8 OffsetLog PythonValue SignalFlow

/-- What an iteration meets besides its message; `commits` is the commit of a malformed one. -/
structure Turn where
  now : DateTime
  enrichedNow : DateTime
  enrichment : EnrichmentOutcome
  env : Envelope
  accepted : Bool := true
  commits : Bool := true

inductive Outcome where
  | skipped
  | raised (e : Exc)
  | encoded (e : EnrichedSignal)

/-- `except (KeyError, ValueError, json.JSONDecodeError)`; a valid body lacks no key. -/
def caught (e : Exc) : Bool := e.isValueError

/-- What the loop makes of a message before `produce`. -/
def outcome (lib : Library) (turn : Turn) (value : Bytes) : Outcome :=
  match parseMessage lib turn.now value with
  | .error e => if caught e then .skipped else .raised e
  | .ok none => .skipped
  | .ok (some event) =>
    let e := enrich turn.enrichedNow event turn.enrichment
    match encodeEnriched lib turn.env e with
    | .error exc => .raised exc
    | .ok _ => .encoded e

section Escaping
variable (lib : Library)

def Reads {α : Type} (x : Py α) : Prop := ∃ a, x = .ok a

def InstrumentEscapes (value : Json) : Prop := ∀ t, value ≠ .text t

def TimeReads (value : Json) : Prop := ∀ t, value = .text t → lib.fromisoformat t ≠ none

/-- An element that is no sequence, or a pair whose key is a list or an object -/
def ItemEscapes : Json → Prop
  | .list [.list _, _] | .list [.dict _, _] => True
  | .list _ | .text _ | .dict _ => False
  | _ => True

/-- A pair of which `dict` makes an item -/
def IsItem : Json → Prop
  | .list [.list _, _] | .list [.dict _, _] => False
  | .list [_, _] | .text [_, _] | .dict [_, _] => True
  | _ => False

/-- A value that is true and no collection, or a list in which the first element that is no item is
no sequence, or has a key that is a list or an object -/
def MetadataEscapes : Json → Prop
  | .bool b => b = true
  | .int n => n ≠ 0
  | .float x => x ≠ .finite 0
  | .list elements => ∃ pre element rest, elements = pre ++ element :: rest ∧
      (∀ p ∈ pre, IsItem p) ∧ ItemEscapes element
  | _ => False

def QuantityEscapes : Json → Prop
  | .null | .list _ | .dict _ | .float (.infinity _) => True
  | _ => False

def NumberEscapes : Json → Prop
  | .null | .list _ | .dict _ => True
  | .int n => Double.ofInt n = none
  | _ => False

/-- Of the fields of a valid body, the first that cannot be read is of a type that nobody catches:
an instrument that is no text, metadata that make no `dict`, or a quantity, price or confidence
that is no number, or too large a one. -/
def FieldsEscape (entries : Entries) : Prop :=
  let field := Json.field entries
  InstrumentEscapes (field "instrument_id") ∨ (Reads (splitInstrument (field "instrument_id")) ∧
    TimeReads lib (field "signal_time") ∧ TimeReads lib (field "expires_at") ∧
    (MetadataEscapes (field "metadata") ∨ (Reads (dictItems (field "metadata")) ∧
      Reads (toDirection (field "direction")) ∧
      (QuantityEscapes (field "quantity") ∨
        (Reads ((field "quantity").toInt lib.intOfText lib.repr) ∧
        (NumberEscapes (field "price_at_signal") ∨
          (Reads (toFloat lib (field "price_at_signal")) ∧
          NumberEscapes (field "confidence"))))))))

/-- A symbol with half of a surrogate pair, or an event that cannot be dumped -/
def Undeliverable (turn : Turn) (event : AiSignalEvent) : Prop :=
  event.signal.symbol.chars = none ∨
    ∃ e, lib.dumps ((enrich turn.enrichedNow event turn.enrichment).payload turn.env)
      event.signal.metadata = .error e

/-- JSON that is no object, or a valid body of which a field escapes or that is undeliverable -/
def MessageEscapes (turn : Turn) (value : Bytes) : Prop :=
  match decodeStrict value with
  | .error _ => False
  | .ok text =>
    match lib.loads text with
    | .error e => caught e = false
    | .ok (.dict entries) => Valid entries ∧ (FieldsEscape lib entries ∨
        ∃ event, readEvent lib turn.now entries = .ok event ∧ Undeliverable lib turn event)
    | .ok _ => True

end Escaping

section Fields
variable {lib : Library} {now : DateTime}

theorem bind_ok {α β : Type} (a : α) (f : α → Py β) : ((.ok a : Py α) >>= f) = f a := rfl

@[simp] theorem reads_pure {α : Type} (a : α) : Reads (pure a : Py α) := ⟨a, rfl⟩

theorem reads_bind {α β : Type} (x : Py α) (f : α → Py β) :
    Reads (x >>= f) ↔ ∃ a, x = .ok a ∧ Reads (f a) := by
  simp only [Reads, bind_eq_ok]
  tauto

theorem escapes_splitInstrument (value : Json) :
    Escapes caught (splitInstrument value) ↔ InstrumentEscapes value := by
  cases value with
  | text t =>
    rw [splitInstrument]
    split <;> simp [InstrumentEscapes, caught, Exc.isValueError]
  | _ => simp [splitInstrument, InstrumentEscapes, caught, Exc.isValueError]

theorem not_escapes_parseDt (value : Json) : ¬ Escapes caught (parseDt lib now value) := by
  cases value with
  | text t =>
    rw [parseDt]
    split <;> simp [caught, Exc.isValueError]
  | _ => simp [parseDt]

theorem reads_parseDt (now : DateTime) (value : Json) :
    Reads (parseDt lib now value) ↔ TimeReads lib value := by
  cases value with
  | text t =>
    rw [parseDt]
    split
    · next time htime => simp [Reads, TimeReads, htime]
    · next hnone => simp [Reads, TimeReads, hnone]
  | _ => simp [parseDt, Reads, TimeReads]

theorem escapes_hashable (value : Json) : Escapes caught (hashable value) ↔
    (∃ items, value = .list items) ∨ ∃ entries, value = .dict entries := by
  cases value <;> simp [hashable, caught, Exc.isValueError]

theorem escapes_itemOf (i : ℕ) (value : Json) :
    Escapes caught (itemOf i value) ↔ ItemEscapes value := by
  have hlength (n : ℕ) : ¬ Escapes caught (.error (wrongLength i n) : Py (Json × Json)) := by
    simp [wrongLength, caught, Exc.isValueError]
  have hwrong : ¬ ItemEscapes value → ∀ n, itemOf i value = .error (wrongLength i n) →
      (Escapes caught (itemOf i value) ↔ ItemEscapes value) := by
    intro hnot n he
    rw [he]
    exact iff_of_false (hlength n) hnot
  cases value with
  | list items =>
    obtain _ | ⟨key, _ | ⟨value, _ | ⟨third, rest⟩⟩⟩ := items
    · exact hwrong (by simp [ItemEscapes]) _ rfl
    · exact hwrong (by simp [ItemEscapes]) _ rfl
    · simp only [itemOf, escapes_bind, escapes_hashable, escapes_pure, and_false, exists_false,
        or_false]
      cases key <;> simp [ItemEscapes]
    · exact hwrong (by simp [ItemEscapes]) _ rfl
  | text t =>
    obtain _ | ⟨key, _ | ⟨value, _ | ⟨third, rest⟩⟩⟩ := t
    · exact hwrong (by simp [ItemEscapes]) _ rfl
    · exact hwrong (by simp [ItemEscapes]) _ rfl
    · exact iff_of_false (escapes_ok _) id
    · exact hwrong (by simp [ItemEscapes]) _ rfl
  | dict entries =>
    obtain _ | ⟨key, _ | ⟨value, _ | ⟨third, rest⟩⟩⟩ := entries
    · exact hwrong (by simp [ItemEscapes]) _ rfl
    · exact hwrong (by simp [ItemEscapes]) _ rfl
    · exact iff_of_false (escapes_ok _) id
    · exact hwrong (by simp [ItemEscapes]) _ rfl
  | _ => simp [itemOf, ItemEscapes, caught, Exc.isValueError]

theorem reads_itemOf (i : ℕ) (value : Json) : Reads (itemOf i value) ↔ IsItem value := by
  have hwrong : ¬ IsItem value → ∀ e, itemOf i value = .error e →
      (Reads (itemOf i value) ↔ IsItem value) := by
    intro hnot e he
    refine iff_of_false ?_ hnot
    rintro ⟨a, ha⟩
    rw [he] at ha
    cases ha
  cases value with
  | list items =>
    obtain _ | ⟨key, _ | ⟨value, _ | ⟨third, rest⟩⟩⟩ := items
    · exact hwrong (by simp [IsItem]) _ rfl
    · exact hwrong (by simp [IsItem]) _ rfl
    · cases key with
      | list items => exact hwrong id _ rfl
      | dict entries => exact hwrong id _ rfl
      | _ => exact iff_of_true ⟨_, rfl⟩ trivial
    · exact hwrong (by simp [IsItem]) _ rfl
  | text t =>
    obtain _ | ⟨key, _ | ⟨value, _ | ⟨third, rest⟩⟩⟩ := t
    · exact hwrong (by simp [IsItem]) _ rfl
    · exact hwrong (by simp [IsItem]) _ rfl
    · exact iff_of_true ⟨_, rfl⟩ trivial
    · exact hwrong (by simp [IsItem]) _ rfl
  | dict entries =>
    obtain _ | ⟨key, _ | ⟨value, _ | ⟨third, rest⟩⟩⟩ := entries
    · exact hwrong (by simp [IsItem]) _ rfl
    · exact hwrong (by simp [IsItem]) _ rfl
    · exact iff_of_true ⟨_, rfl⟩ trivial
    · exact hwrong (by simp [IsItem]) _ rfl
  | _ => simp [itemOf, Reads, IsItem]

/-- The first element that is no item decides. -/
theorem escapes_itemsFrom (i : ℕ) (elements : List Json) :
    Escapes caught (itemsFrom i elements) ↔ ∃ pre element rest, elements = pre ++ element :: rest ∧
      (∀ p ∈ pre, IsItem p) ∧ ItemEscapes element := by
  induction elements generalizing i with
  | nil => simp [itemsFrom]
  | cons element elements ih =>
    have hlater : (∃ a, itemOf i element = .ok a ∧
        Escapes caught ((itemsFrom (i + 1) elements) >>= fun items => pure (a :: items))) ↔
        IsItem element ∧ Escapes caught (itemsFrom (i + 1) elements) := by
      simp only [escapes_bind, escapes_pure, and_false, exists_false, or_false, exists_and_right]
      exact and_congr_left fun _ => reads_itemOf i element
    rw [itemsFrom, escapes_bind, escapes_itemOf, hlater, ih]
    constructor
    · rintro (hitem | ⟨hitem, pre, e, rest, rfl, hpre, he⟩)
      · exact ⟨[], element, elements, rfl, by simp, hitem⟩
      · exact ⟨element :: pre, e, rest, rfl, List.forall_mem_cons.mpr ⟨hitem, hpre⟩, he⟩
    · rintro ⟨pre, e, rest, heq, hpre, he⟩
      cases pre with
      | nil =>
        obtain ⟨rfl, rfl⟩ := List.cons.inj heq
        exact .inl he
      | cons p pre =>
        obtain ⟨rfl, rfl⟩ := List.cons.inj heq
        obtain ⟨hitem, hpre⟩ := List.forall_mem_cons.mp hpre
        exact .inr ⟨hitem, pre, e, rest, rfl, hpre, he⟩

theorem escapes_dictItems (value : Json) :
    Escapes caught (dictItems value) ↔ MetadataEscapes value := by
  have hdefault : ¬ Escapes caught (dictItems (.dict [])) := by simp [dictItems, Json.orElse]
  have hfalse {v : Json} (hv : v.truthy = false) : dictItems v = dictItems (.dict []) := by
    rw [dictItems, Json.orElse, hv]
    rfl
  have htrue {v : Json} (hv : v.truthy = true) : v.orElse (.dict []) = v := by
    rw [Json.orElse, if_pos hv]
  have htype (v : Json) : Escapes caught (.error (.typeError (Text.of ("'" ++ v.typeName ++
      "' object is not iterable"))) : Py (List (Json × Json))) := ⟨_, rfl, rfl⟩
  cases htruthy : value.truthy with
  | false =>
    rw [hfalse htruthy, iff_false_left hdefault]
    cases value with
    | list elements =>
      cases elements with
      | nil => simp [MetadataEscapes]
      | cons e es => cases htruthy
    | _ => simp_all [MetadataEscapes, Json.truthy]
  | true =>
    rw [dictItems, htrue htruthy]
    cases value with
    | null => cases htruthy
    | bool b => exact iff_of_true (htype _) htruthy
    | int n =>
      exact iff_of_true (htype _) (by simpa [Json.truthy, MetadataEscapes] using htruthy)
    | float x =>
      exact iff_of_true (htype _) (by simpa [Json.truthy, MetadataEscapes] using htruthy)
    | text t =>
      refine iff_of_false ?_ id
      rw [escapes_itemsFrom]
      rintro ⟨pre, element, rest, heq, -, he⟩
      have hmem : element ∈ t.map fun c => Json.text [c] := by
        rw [heq]
        simp
      obtain ⟨c, -, rfl⟩ := List.mem_map.mp hmem
      exact he
    | list elements => exact escapes_itemsFrom 0 elements
    | dict entries => exact iff_of_false (escapes_ok _) id

theorem escapes_toFloat (value : Json) :
    Escapes caught (toFloat lib value) ↔ NumberEscapes value := by
  cases value with
  | int n =>
    rw [toFloat]
    split <;> simp_all [NumberEscapes, caught, Exc.isValueError]
  | text t =>
    rw [toFloat]
    split <;> simp [NumberEscapes, caught, Exc.isValueError]
  | _ => simp [toFloat, NumberEscapes, caught, Exc.isValueError]

theorem escapes_quantity (value : Json) :
    Escapes caught (value.toInt lib.intOfText lib.repr) ↔ QuantityEscapes value := by
  cases value with
  | float x => cases x <;> simp [Json.toInt, QuantityEscapes, caught, Exc.isValueError]
  | text t =>
    rw [Json.toInt]
    split <;> simp [QuantityEscapes, caught, Exc.isValueError]
  | _ => simp [Json.toInt, Json.intTypeError, QuantityEscapes, caught, Exc.isValueError]

theorem not_escapes_toDirection (value : Json) : ¬ Escapes caught (toDirection value) := by
  rw [toDirection]
  split
  · simp
  split <;> simp [caught, Exc.isValueError]

theorem escapes_readEvent (entries : Entries) :
    Escapes caught (readEvent lib now entries) ↔ FieldsEscape lib entries := by
  simp only [readEvent, escapes_bind, escapes_splitInstrument, not_escapes_parseDt,
    escapes_dictItems, not_escapes_toDirection, escapes_quantity, escapes_toFloat, escapes_pure,
    false_or, and_false, exists_false, or_false, exists_and_right, Prod.exists, FieldsEscape,
    ← reads_parseDt now, Reads]

/-- Whether an event is read does not depend on the clock, which stands in for missing times. -/
theorem reads_readEvent (now' : DateTime) (entries : Entries) :
    Reads (readEvent lib now entries) ↔ Reads (readEvent lib now' entries) := by
  have htime (value : Json) : Reads (parseDt lib now value) ↔ Reads (parseDt lib now' value) :=
    (reads_parseDt now value).trans (reads_parseDt now' value).symm
  simp only [Reads] at htime
  simp only [readEvent, reads_bind, reads_pure, and_true, exists_and_right, Prod.exists, htime]

theorem encodeEnriched_error (lib : Library) (turn : Turn) (event : AiSignalEvent) :
    (∃ e, encodeEnriched lib turn.env (enrich turn.enrichedNow event turn.enrichment) = .error e) ↔
      Undeliverable lib turn event := by
  have hsymbol : (enrich turn.enrichedNow event turn.enrichment).symbol = event.signal.symbol := by
    cases turn.enrichment <;> rfl
  have hmetadata : (enrich turn.enrichedNow event turn.enrichment).metadata =
      event.signal.metadata := by
    cases turn.enrichment <;> rfl
  rw [encodeEnriched, Undeliverable, hsymbol, hmetadata, Text.encodeStrict]
  cases event.signal.symbol.chars with
  | none => exact iff_of_true ⟨_, rfl⟩ (.inl rfl)
  | some cs =>
    cases lib.dumps ((enrich turn.enrichedNow event turn.enrichment).payload turn.env)
        event.signal.metadata with
    | error e => exact iff_of_true ⟨_, rfl⟩ (.inr ⟨e, rfl⟩)
    | ok value =>
      refine iff_of_false ?_ (by simp)
      rintro ⟨e, he⟩
      cases he

theorem outcome_eq_raised (turn : Turn) (value : Bytes) :
    (∃ e, outcome lib turn value = .raised e) ↔ Escapes caught (parseMessage lib turn.now value) ∨
      ∃ event, parseMessage lib turn.now value = .ok (some event) ∧
        Undeliverable lib turn event := by
  rw [outcome]
  cases parseMessage lib turn.now value with
  | error e => cases hcaught : caught e <;> simp [hcaught]
  | ok event =>
    cases event with
    | none => simp
    | some event =>
      simp only [escapes_ok, false_or, Except.ok.injEq, Option.some.injEq, exists_eq_left',
        ← encodeEnriched_error]
      cases encodeEnriched lib turn.env
        (enrich turn.enrichedNow event turn.enrichment) <;> simp

/-- A message makes the loop fail exactly where it escapes. -/
theorem outcome_raised_iff (turn : Turn) (value : Bytes) :
    (∃ e, outcome lib turn value = .raised e) ↔ MessageEscapes lib turn value := by
  rw [outcome_eq_raised, parseMessage, MessageEscapes]
  cases hdecode : decodeStrict value with
  | error e =>
    rw [decodeStrict] at hdecode
    split at hdecode
    · cases hdecode
    · cases hdecode
      exact iff_of_false (by simp [Escapes, bind, Except.bind, caught, Exc.isValueError]) id
  | ok text =>
    simp only [bind_ok]
    cases lib.loads text with
    | error e => simp [Escapes, bind, Except.bind]
    | ok body =>
      simp only [bind_ok]
      cases body with
      | dict entries =>
        simp only [Json.entries, bind_ok]
        by_cases hvalid : Valid entries
        · rw [if_pos hvalid, and_iff_right hvalid, escapes_bind, escapes_readEvent]
          have hread (event : AiSignalEvent) : (readEvent lib turn.now entries >>= fun e =>
              pure (some e)) = .ok (some event) ↔ readEvent lib turn.now entries = .ok event := by
            cases readEvent lib turn.now entries <;> simp [bind, Except.bind, pure, Except.pure]
          simp only [hread, escapes_pure, and_false, exists_false, or_false]
        · rw [if_neg hvalid]
          refine iff_of_false ?_ fun h => hvalid h.1
          rintro (⟨e, he, -⟩ | ⟨event, he, -⟩)
          · cases he
          · cases he
      | _ => exact iff_of_true (.inl ⟨_, rfl, rfl⟩) trivial

theorem reads_parseMessage (now' : DateTime) (value : Bytes) :
    (∃ event, parseMessage lib now value = .ok (some event)) →
      ∃ event, parseMessage lib now' value = .ok (some event) := by
  simp only [parseMessage, bind_eq_ok]
  rintro ⟨event, text, htext, body, hbody, entries, hentries, h⟩
  split at h
  · next hvalid =>
    obtain ⟨event, hevent, -⟩ := bind_eq_ok.mp h
    obtain ⟨event', hevent'⟩ := (reads_readEvent now' entries).mp ⟨event, hevent⟩
    refine ⟨event', text, htext, body, hbody, entries, hentries, ?_⟩
    rw [if_pos hvalid, hevent']
    rfl
  · cases h

theorem parsed_of_encoded {turn : Turn} {value : Bytes} {e : EnrichedSignal}
    (h : outcome lib turn value = .encoded e) :
    ∃ event, parseMessage lib turn.now value = .ok (some event) := by
  rw [outcome] at h
  split at h
  · split at h <;> cases h
  · cases h
  · next event hevent => exact ⟨event, hevent⟩

theorem not_parsed_of_skipped {turn : Turn} {value : Bytes} (h : outcome lib turn value = .skipped)
    (now : DateTime) (event : AiSignalEvent) : parseMessage lib now value ≠ .ok (some event) := by
  intro hparsed
  obtain ⟨event', hevent'⟩ := reads_parseMessage turn.now value ⟨event, hparsed⟩
  rw [outcome, hevent'] at h
  simp only at h
  split at h <;> cases h

end Fields

/-- The consumer group over its partitions, from the offsets `base` on; `published` is the partition
whose message is enqueued and not committed yet. -/
structure World {κ : Type*} (base : κ → ℕ) where
  offsets : (k : κ) → Offsets (base k) := fun k => .init (base k)
  published : Option κ := none
  produced : List EnrichedSignal := []
  acknowledged : List EnrichedSignal := []
  failed : List (κ × ℕ) := []

/-- `delivery` is the report on the `i`-th event that was produced. -/
inductive Event (κ : Type*) where
  | turn (k : κ) (turn : Turn)
  | commit (succeeds : Bool)
  | delivery (i : ℕ) (delivered : Bool)
  | rebalance (k : κ)
  | restart

section Run
variable {κ : Type*} [DecidableEq κ] {base : κ → ℕ} (lib : Library) (log : κ → ℕ → Bytes)

def World.setOffsets (w : World base) (k : κ) (c : Offsets (base k)) : World base :=
  { w with offsets := Function.update w.offsets k c }

def step (w : World base) : Event κ → World base
  | .turn k turn =>
    match w.published with
    | some _ => w
    | none =>
      let c := w.offsets k
      match outcome lib turn (log k c.position) with
      | .skipped => w.setOffsets k (if turn.commits then c.commit else c.skip)
      | .raised _ => { w.setOffsets k c.skip with failed := (k, c.position) :: w.failed }
      | .encoded e =>
        if turn.accepted then { w with published := some k, produced := w.produced ++ [e] }
        else w.setOffsets k c.skip
  | .commit succeeds =>
    match w.published with
    | none => w
    | some k =>
      let c := w.offsets k
      { w.setOffsets k (if succeeds then c.commit else c.skip) with published := none }
  | .delivery i delivered =>
    { w with
      acknowledged := (if delivered then w.produced[i]?.toList else []) ++ w.acknowledged }
  -- partitions are assigned inside `poll`
  | .rebalance k =>
    match w.published with
    | some _ => w
    | none => w.setOffsets k (w.offsets k).reset
  | .restart => { w with offsets := fun k => (w.offsets k).reset, published := none }

/-- If the message validates and parses, an enriched event with its signal is acknowledged. -/
def PassedOn (w : World base) (k : κ) (m : ℕ) : Prop :=
  ∀ now event, parseMessage lib now (log k m) = .ok (some event) →
    ∃ e ∈ w.acknowledged, e.signalId = event.signal.signalId

/-- Every message below a committed offset is passed on, and none has made the loop fail. -/
structure AllPassedOn (w : World base) : Prop where
  covered : ∀ k, (w.offsets k).Covered (PassedOn lib log w k)
  failed : w.failed = []

/-- The message of an iteration does not escape; and a commit finds every earlier message of its
partition passed on since the last one, and its own. -/
def Admits (w : World base) : Event κ → Prop
  | .turn k turn => w.published = none →
      ¬ MessageEscapes lib turn (log k (w.offsets k).position) ∧
      (turn.commits = true →
        (∀ now event, parseMessage lib now (log k (w.offsets k).position) ≠ .ok (some event)) →
        (w.offsets k).NoneLeft (PassedOn lib log w k))
  | .commit succeeds => succeeds = true → ∀ k ∈ w.published,
      (w.offsets k).NoneLeft (PassedOn lib log w k) ∧ PassedOn lib log w k (w.offsets k).position
  | _ => True

variable {lib log} {w : World base} {k : κ}

@[simp] theorem setOffsets_self (c : Offsets (base k)) : (w.setOffsets k c).offsets k = c := by
  simp [World.setOffsets]

@[simp] theorem setOffsets_of_ne (c : Offsets (base k)) {j : κ} (hj : j ≠ k) :
    (w.setOffsets k c).offsets j = w.offsets j := by
  simp [World.setOffsets, hj]

@[simp] theorem passedOn_setOffsets (c : Offsets (base k)) :
    PassedOn lib log (w.setOffsets k c) = PassedOn lib log w := rfl

theorem AllPassedOn.setOffsets_iff (h : AllPassedOn lib log w) {c : Offsets (base k)} :
    AllPassedOn lib log (w.setOffsets k c) ↔ c.Covered (PassedOn lib log w k) := by
  constructor
  · intro h'
    have hk := h'.covered k
    rwa [setOffsets_self, passedOn_setOffsets] at hk
  · intro hc
    refine ⟨fun j => ?_, h.failed⟩
    by_cases hj : j = k
    · subst hj
      rwa [setOffsets_self, passedOn_setOffsets]
    · rw [setOffsets_of_ne c hj, passedOn_setOffsets]
      exact h.covered j

theorem AllPassedOn.turn_iff (h : AllPassedOn lib log w) (turn : Turn) :
    AllPassedOn lib log (step lib log w (.turn k turn)) ↔ Admits lib log w (.turn k turn) := by
  rw [step, Admits]
  cases w.published with
  | some j => exact iff_of_true h nofun
  | none =>
    rw [forall_prop_of_true rfl, ← outcome_raised_iff]
    dsimp only
    cases hout : outcome lib turn (log k (w.offsets k).position) with
    | skipped =>
      have hnone := not_parsed_of_skipped hout
      have hown : PassedOn lib log w k (w.offsets k).position := fun now event hevent =>
        absurd hevent (hnone now event)
      have hraised : ¬ ∃ e, Outcome.skipped = .raised e := nofun
      rw [and_iff_right hraised, forall_prop_of_true hnone]
      cases turn.commits with
      | true =>
        rw [forall_prop_of_true rfl]
        refine h.setOffsets_iff.trans ((h.covered k).commit_iff.trans ?_)
        exact and_iff_left hown
      | false => exact iff_of_true (h.setOffsets_iff.mpr (h.covered k).skip) nofun
    | raised e =>
      refine iff_of_false (fun h' => ?_) fun h' => h'.1 ⟨e, rfl⟩
      exact absurd h'.failed (List.cons_ne_nil _ _)
    | encoded e =>
      obtain ⟨event, hevent⟩ := parsed_of_encoded hout
      refine iff_of_true ?_ ⟨nofun, fun _ hnone => absurd hevent (hnone _ _)⟩
      cases turn.accepted with
      | true => exact ⟨h.covered, h.failed⟩
      | false => exact h.setOffsets_iff.mpr (h.covered k).skip

theorem AllPassedOn.commit_iff (h : AllPassedOn lib log w) (succeeds : Bool) :
    AllPassedOn lib log (step lib log w (.commit succeeds)) ↔
      Admits lib log w (.commit succeeds) := by
  have hunpublished {w' : World base} : AllPassedOn lib log { w' with published := none } ↔
      AllPassedOn lib log w' := ⟨fun h => ⟨h.covered, h.failed⟩, fun h => ⟨h.covered, h.failed⟩⟩
  rw [step, Admits]
  cases w.published with
  | none => exact iff_of_true h fun _ => nofun
  | some k =>
    refine hunpublished.trans (h.setOffsets_iff.trans ?_)
    cases succeeds with
    | true => simp [(h.covered k).commit_iff]
    | false => exact iff_of_true (h.covered k).skip nofun

theorem AllPassedOn.step_iff (h : AllPassedOn lib log w) (e : Event κ) :
    AllPassedOn lib log (step lib log w e) ↔ Admits lib log w e := by
  cases e with
  | turn k turn => exact h.turn_iff turn
  | commit succeeds => exact h.commit_iff succeeds
  | delivery i delivered =>
    refine iff_of_true ⟨fun k => (h.covered k).mono ?_, h.failed⟩ trivial
    intro m hm now event hevent
    obtain ⟨e, he, hid⟩ := hm now event hevent
    exact ⟨e, List.mem_append_right _ he, hid⟩
  | rebalance k =>
    refine iff_of_true ?_ trivial
    rw [step]
    split
    · exact h
    · exact h.setOffsets_iff.mpr (h.covered k).reset
  | restart => exact iff_of_true ⟨fun k => (h.covered k).reset, h.failed⟩ trivial

theorem step_encoded {turn : Turn} {e : EnrichedSignal} (hidle : w.published = none)
    (hencoded : outcome lib turn (log k (w.offsets k).position) = .encoded e)
    (haccepted : turn.accepted = true) : step lib log w (.turn k turn) =
      { w with published := some k, produced := w.produced ++ [e] } := by
  simp only [step, hidle, hencoded, haccepted, if_true]

omit [DecidableEq κ] in
theorem allPassedOn_start : AllPassedOn lib log ({} : World base) :=
  ⟨fun _ => Offsets.init_covered _, rfl⟩

/-- In every state of a run all that was committed is passed on, and no message has made the loop
fail, exactly where every step is admitted. -/
theorem signals_pass_on_iff (lib : Library) (log : κ → ℕ → Bytes) (base : κ → ℕ)
    (es : List (Event κ)) :
    AlongRun (step lib log) (AllPassedOn lib log) ({} : World base) es ↔
      StepsMeet (step lib log) (Admits lib log) ({} : World base) es :=
  alongRun_iff (I := fun _ => True) (D := fun _ => True) (fun _ _ _ h => h)
    (fun _ e _ _ h => h.step_iff e) es (fun _ _ => trivial) _ trivial allPassedOn_start

end Run

section Instances

/-- A pending sale, as the strategy engine sends it -/
def pendingSale : List (String × Json) := [
  ("event_id", .string "e-1"),
  ("trace_id", .string "t-1"),
  ("event_type", .string "SIGNAL_PENDING"),
  ("schema_version", .string "3.0"),
  ("source", .string "strategy_engine"),
  ("published_time", .string "2026-01-05T09:20:00+00:00"),
  ("signal_id", .string "s-1"),
  ("strategy_id", .string "momentum"),
  ("strategy_name", .string "momentum"),
  ("instrument_id", .string "NSE:INFY"),
  ("market", .string "NSE"),
  ("direction", .string "SELL"),
  ("quantity", .int 25),
  ("stop_loss", .null),
  ("take_profit", .null),
  ("product_type", .string "MIS"),
  ("confidence", .float (.finite 1)),
  ("price_at_signal", .float (.finite 1500)),
  ("signal_time", .string "2026-01-05T09:20:00+00:00"),
  ("expires_at", .string "2026-01-05T09:20:30+00:00"),
  ("paper_trade", .bool true),
  ("metadata", .dict [])]

def pendingText : String := "\x7b\"event_id\": \"e-1\", \"trace_id\": \"t-1\", " ++
  "\"event_type\": \"SIGNAL_PENDING\", \"schema_version\": \"3.0\", " ++
  "\"source\": \"strategy_engine\", \"published_time\": \"2026-01-05T09:20:00+00:00\", " ++
  "\"signal_id\": \"s-1\", \"strategy_id\": \"momentum\", \"strategy_name\": \"momentum\", " ++
  "\"instrument_id\": \"NSE:INFY\", \"market\": \"NSE\", \"direction\": \"SELL\", " ++
  "\"quantity\": 25, \"stop_loss\": null, \"take_profit\": null, \"product_type\": \"MIS\", " ++
  "\"confidence\": 1.0, \"price_at_signal\": 1500.0, " ++
  "\"signal_time\": \"2026-01-05T09:20:00+00:00\", " ++
  "\"expires_at\": \"2026-01-05T09:20:30+00:00\", " ++
  "\"paper_trade\": true, \"metadata\": \x7b\x7d\x7d"

def enrichedText : String := "\x7b\"schema_version\":\"4.0\",\"signal_id\":\"s-1\"," ++
  "\"strategy_name\":\"momentum\",\"strategy_id\":\"momentum\"," ++
  "\"instrument_id\":\"NSE:INFY\",\"symbol\":\"INFY\",\"market\":\"NSE\"," ++
  "\"direction\":\"SELL\",\"quantity\":25,\"confidence\":1.0,\"price_at_signal\":1500.0," ++
  "\"generated_at\":\"2026-01-05T09:20:00+00:00\"," ++
  "\"signal_time\":\"2026-01-05T09:20:00+00:00\"," ++
  "\"expires_at\":\"2026-01-05T09:20:30+00:00\",\"stop_loss\":null,\"take_profit\":null," ++
  "\"paper_trade\":true,\"product_type\":\"MIS\",\"trace_id\":\"t-1\"," ++
  "\"metadata\":\x7b\"strategy_id\":\"momentum\",\"product_type\":\"MIS\"," ++
  "\"expires_at\":\"2026-01-05T09:20:30+00:00\"\x7d,\"regime\":\"unknown\"," ++
  "\"regime_confidence\":0.0,\"quality_score\":0.5,\"filtered\":false," ++
  "\"enriched_at\":\"2026-01-05T09:20:00+00:00\",\"enrichment_latency_ms\":0.0," ++
  "\"model_versions\":\x7b\x7d,\"event_id\":\"e-2\",\"event_type\":\"SIGNAL_ENRICHED\"," ++
  "\"source\":\"ai_engine\",\"published_time\":\"2026-01-05T09:20:00+00:00\"\x7d"

def saleLoads (text : Text) : Py Json :=
  if text = Text.of "[]" then .ok (.list [])
  else if text = Text.of pendingText then .ok (.dict (pendingSale.map fun e => (Text.of e.1, e.2)))
  else .error (.jsonDecodeError text)

theorem thirty_lt_sixty : 30 < 60 := by decide

def saleExpiry : DateTime := { emitted with second := ⟨30, thirty_lt_sixty⟩ }

def saleTime (text : Text) : Option DateTime :=
  if text = Text.of "2026-01-05T09:20:00+00:00" then some emitted
  else if text = Text.of "2026-01-05T09:20:30+00:00" then some saleExpiry
  else none

/-- What the library makes of an empty array and of the sale -/
def saleLibrary : Library where
  loads := saleLoads
  dumps _ _ := .ok (encode enrichedText.toList)
  fromisoformat := saleTime
  intOfText text := text.chars.bind PythonInt.parse
  floatOfText _ := none
  repr text := text

def saleTurn : Turn :=
  ⟨emitted, emitted, .failed (.finite 0), ⟨"ai_engine", "e-2", emitted⟩, true, true⟩

theorem decodeStrict_encode (text : String) :
    decodeStrict (encode text.toList) = .ok (Text.of text) := by
  rw [decodeStrict, decode_encode]
  rfl

theorem field_body (body : List (String × Json)) (name : String) :
    Json.field (body.map fun e => (Text.of e.1, e.2)) name = (body.lookup name).getD .null := by
  induction body with
  | nil => rfl
  | cons e body ih =>
    rw [List.map_cons, List.lookup_cons]
    by_cases hname : name = e.1
    · subst hname
      rw [Json.field_cons_self, beq_self_eq_true]
      rfl
    · rw [Json.field_cons_ne hname, ih, beq_false_of_ne hname]

theorem present_body {body : List (String × Json)} {name : String} (h : name ∈ body.map Prod.fst) :
    Present (body.map fun e => (Text.of e.1, e.2)) name := by
  rw [Present, List.map_map]
  obtain ⟨e, he, rfl⟩ := List.mem_map.mp h
  exact List.mem_map.mpr ⟨e, he, rfl⟩

theorem valid_pendingSale : Valid (pendingSale.map fun e => (Text.of e.1, e.2)) := by
  refine ⟨?_, ?_, fun name hname => present_body ?_⟩
  · rw [HasText, field_body]
    exact Json.asString_string _
  · rw [HasText, field_body]
    exact Json.asString_string _
  · revert name
    change ∀ name ∈ EventType.signalPending.requiredFields, name ∈ ["event_id", "trace_id",
      "event_type", "schema_version", "source", "published_time", "signal_id", "strategy_id",
      "strategy_name", "instrument_id", "market", "direction", "quantity", "stop_loss",
      "take_profit", "product_type", "confidence", "price_at_signal", "signal_time", "expires_at",
      "paper_trade", "metadata"]
    decide +kernel

theorem sale_loads : saleLibrary.loads (Text.of pendingText) =
    .ok (.dict (pendingSale.map fun e => (Text.of e.1, e.2))) := by
  have hne : Text.of pendingText ≠ Text.of "[]" := fun h =>
    absurd (Text.of_injective h) (by decide +kernel)
  rw [show saleLibrary.loads = saleLoads from rfl, saleLoads, if_neg hne, if_pos rfl]

theorem sale_signalTime : parseDt saleLibrary emitted (.string "2026-01-05T09:20:00+00:00") =
    .ok emitted.aware := by
  have htime : saleLibrary.fromisoformat (Text.of "2026-01-05T09:20:00+00:00") =
      some emitted := by
    rw [show saleLibrary.fromisoformat = saleTime from rfl, saleTime, if_pos rfl]
  rw [Json.string, parseDt, htime]

theorem sale_expiresAt : parseDt saleLibrary emitted (.string "2026-01-05T09:20:30+00:00") =
    .ok saleExpiry.aware := by
  have hne : Text.of "2026-01-05T09:20:30+00:00" ≠ Text.of "2026-01-05T09:20:00+00:00" :=
    fun h => absurd (Text.of_injective h) (by decide +kernel)
  have htime : saleLibrary.fromisoformat (Text.of "2026-01-05T09:20:30+00:00") =
      some saleExpiry := by
    rw [show saleLibrary.fromisoformat = saleTime from rfl, saleTime, if_neg hne, if_pos rfl]
  rw [Json.string, parseDt, htime]

theorem sale_read : ∃ event, readEvent saleLibrary emitted
    (pendingSale.map fun e => (Text.of e.1, e.2)) = .ok event ∧
      event.signal.symbol = Text.of "INFY" := by
  rw [readEvent]
  simp only [field_body]
  have hinstrument : splitInstrument (.string "NSE:INFY") =
      .ok (Text.of "NSE", Text.of "INFY") := rfl
  have hdict : dictItems ((pendingSale.lookup "metadata").getD .null) = .ok [] := rfl
  have hdirection : toDirection ((pendingSale.lookup "direction").getD .null) = .ok .sell := by
    change toDirection (.string "SELL") = _
    rw [toDirection, Json.asString_string]
    rfl
  have hquantity : ((pendingSale.lookup "quantity").getD .null).toInt saleLibrary.intOfText
      saleLibrary.repr = .ok 25 := rfl
  have hprice : toFloat saleLibrary ((pendingSale.lookup "price_at_signal").getD .null) =
      .ok (.finite 1500) := rfl
  have hconfidence : toFloat saleLibrary ((pendingSale.lookup "confidence").getD .null) =
      .ok (.finite 1) := rfl
  have hname : (pendingSale.lookup "instrument_id").getD .null = .string "NSE:INFY" := rfl
  have hsignal : (pendingSale.lookup "signal_time").getD .null =
    .string "2026-01-05T09:20:00+00:00" := rfl
  have hexpires : (pendingSale.lookup "expires_at").getD .null =
    .string "2026-01-05T09:20:30+00:00" := rfl
  rw [hname, hsignal, hexpires, hinstrument, bind_ok, sale_signalTime, bind_ok, sale_expiresAt,
    bind_ok, hdict, bind_ok, hdirection, bind_ok, hquantity, bind_ok, hprice, bind_ok,
    hconfidence, bind_ok]
  exact ⟨_, rfl, rfl⟩

theorem sale_encoded :
    ∃ e, outcome saleLibrary saleTurn (encode pendingText.toList) = .encoded e := by
  obtain ⟨event, hevent, hsymbol⟩ := sale_read
  have hparsed : parseMessage saleLibrary emitted (encode pendingText.toList) =
      .ok (some event) := by
    rw [parseMessage, decodeStrict_encode, bind_ok, sale_loads, bind_ok, Json.entries, bind_ok,
      if_pos valid_pendingSale, hevent]
    rfl
  have hbytes : event.signal.symbol.encodeStrict = .ok (encode "INFY".toList) := by
    rw [hsymbol]
    rfl
  have hkey : encodeEnriched saleLibrary saleTurn.env
      (enrich saleTurn.enrichedNow event saleTurn.enrichment) =
        .ok ⟨encode "INFY".toList, encode enrichedText.toList⟩ := by
    change event.signal.symbol.encodeStrict >>= _ = _
    rw [hbytes]
    rfl
  refine ⟨enrich saleTurn.enrichedNow event saleTurn.enrichment, ?_⟩
  rw [outcome, show saleTurn.now = emitted from rfl, hparsed]
  simp only [hkey]

/-- A JSON array makes the loop fail; and a sale is committed before its event is acknowledged,
which it then never is. -/
theorem signals_lost :
    ¬ AlongRun (step saleLibrary fun (_ : Unit) _ => encode "[]".toList)
      (AllPassedOn saleLibrary fun _ _ => encode "[]".toList)
      ({} : World fun _ => 0) [.turn () saleTurn] ∧
    ¬ AlongRun (step saleLibrary fun (_ : Unit) _ => encode pendingText.toList)
      (AllPassedOn saleLibrary fun _ _ => encode pendingText.toList)
      ({} : World fun _ => 0) [.turn () saleTurn, .commit true, .delivery 0 false] := by
  constructor
  · intro h
    have harray : MessageEscapes saleLibrary saleTurn (encode "[]".toList) := by
      have hloads : saleLibrary.loads (Text.of "[]") = .ok (.list []) := by
        rw [show saleLibrary.loads = saleLoads from rfl, saleLoads, if_pos rfl]
      rw [MessageEscapes, decodeStrict_encode]
      simp only [hloads]
    have hlast := h.last
    rw [List.foldl_cons, List.foldl_nil] at hlast
    have hturn := (allPassedOn_start.turn_iff saleTurn).mp hlast
    exact (hturn rfl).1 harray
  · intro h
    obtain ⟨e, hencoded⟩ := sale_encoded
    obtain ⟨event, hevent⟩ := parsed_of_encoded hencoded
    have hturn : step saleLibrary (fun (_ : Unit) _ => encode pendingText.toList)
        ({} : World fun _ => 0) (.turn () saleTurn) =
          { published := some (), produced := [e] } := step_encoded rfl hencoded rfl
    have hbefore := h [.turn () saleTurn] ⟨_, rfl⟩
    have hafter := h [.turn () saleTurn, .commit true] ⟨_, rfl⟩
    rw [List.foldl_cons, List.foldl_nil, hturn] at hbefore
    rw [List.foldl_cons, List.foldl_cons, List.foldl_nil, hturn] at hafter
    have hcommit := (hbefore.commit_iff true).mp hafter
    obtain ⟨e', he', -⟩ := (hcommit rfl () rfl).2 _ _ hevent
    cases he'

end Instances

end QuantEmbrace.AiEngine
