import QuantEmbrace.OrderTransition

/-! Simulated execution of paper signals: any number of `_handle_paper_order` calls for
one signal, one step for each suspension, with the failures the handler swallows. -/
namespace QuantEmbrace
open GuardedRun
open OrderStatus (isValidStatusTransition)
variable {ι : Type*}

def OrderStatus.value : OrderStatus → String
  | pending => "PENDING"
  | ackUnknown => "ACK_UNKNOWN"
  | placed => "PLACED"
  | partiallyFilled => "PARTIALLY_FILLED"
  | filled => "FILLED"
  | cancelled => "CANCELLED"
  | rejected => "REJECTED"
  | flattening => "FLATTENING"

/-- `_paper_partial_quantity`; `bucket` is the hash of the signal id, between 0 and 1. -/
def paperPartialQuantity (qty minPct bucket : ℚ) : ℚ :=
  if qty ≤ 1 then qty
  else
    let minPct := min (max minPct (1 / 100)) (99 / 100)
    let fillPct := minPct + (95 / 100 - minPct) * bucket
    max 1 (min (qty - 1) (qty * fillPct).floor)

/-- The signal and the draws of `_paper_probability_hit` for it, the same in every call. -/
structure PaperSignal where
  quantity : ℚ
  fillPrice : ℚ
  minPct : ℚ
  bucket : ℚ
  circuitLock : Bool
  rejects : Bool
  partially : Bool
  deriving DecidableEq, Repr

namespace PaperSignal
variable (s : PaperSignal)

def rejectReason : Option String :=
  if s.circuitLock then some "PAPER_CIRCUIT_LOCK"
  else if s.rejects then some "PAPER_REJECTED_BY_SIMULATOR" else none

def filledQuantity : ℚ :=
  if s.rejectReason ≠ none then 0
  else if s.partially then paperPartialQuantity s.quantity s.minPct s.bucket else s.quantity

def status : OrderStatus :=
  if s.rejectReason ≠ none then .rejected
  else if s.partially ∧ s.filledQuantity < s.quantity then .partiallyFilled else .filled

def response (paperOrderId : String) : OrderResponse where
  brokerOrderId := paperOrderId
  status := s.status
  filledQuantity := s.filledQuantity
  avgFillPrice := if s.filledQuantity > 0 then s.fillPrice else 0
  brokerMessage := s.rejectReason.getD s.status.value

end PaperSignal

inductive PaperPhase where
  | idle
  | looking
  | sleeping
  | submitting
  | recording (c : CallPhase)
  | publishing
  | applying
  | finished
  deriving DecidableEq, Repr

inductive PaperEvent where
  | begin
  | look
  | wake
  | submit
  | submitRaises (landed : Bool)
  | record (e : CallEvent)
  | resume
  | publish
  | publishRaises (sent : Bool)
  | apply
  | applyRaises (landed : Bool)
  | crash
  deriving DecidableEq, Repr

/-- The order row, under the call whose order id it has, and who published what and
moved the position. -/
structure PaperWorld (ι : Type*) where
  row : Option (ι × OrderRow)
  phase : ι → PaperPhase
  fills : List ι
  rejections : List ι
  applied : List ι

namespace PaperWorld

def start : PaperWorld ι := ⟨none, fun _ => .idle, [], [], []⟩

/-- `submit_order` for the order id of call `i`. -/
def reserve (w : PaperWorld ι) (i : ι) : PaperWorld ι := { w with row := some (i, .reserved) }

def publishEvent (w : PaperWorld ι) (s : PaperSignal) (i : ι) : PaperWorld ι :=
  if s.status = .rejected then { w with rejections := i :: w.rejections }
  else { w with fills := i :: w.fills }

def applyFill (w : PaperWorld ι) (i : ι) : PaperWorld ι := { w with applied := i :: w.applied }

variable [DecidableEq ι]

def setPhase (w : PaperWorld ι) (i : ι) (p : PaperPhase) : PaperWorld ι :=
  { w with phase := Function.update w.phase i p }

/- A lookup by signal id goes through an index and may miss the order, or fail. A
   cancelled transaction answers false; anything else that goes wrong before or in it is
   caught, and the call goes on as if the order were recorded. -/
inductive Step (s : PaperSignal) (paperOrderId : ι → String)
    (Sees : OrderRow → OrderStatus → Prop) :
    PaperWorld ι → ι × PaperEvent → PaperWorld ι → Prop
  | begin {w : PaperWorld ι} {i : ι} : w.phase i = .idle →
      Step s paperOrderId Sees w (i, .begin) (w.setPhase i .looking)
  | duplicate {w : PaperWorld ι} {i : ι} : w.phase i = .looking → w.row ≠ none →
      Step s paperOrderId Sees w (i, .look) (w.setPhase i .finished)
  | unseen {w : PaperWorld ι} {i : ι} : w.phase i = .looking →
      Step s paperOrderId Sees w (i, .look) (w.setPhase i .sleeping)
  | wake {w : PaperWorld ι} {i : ι} : w.phase i = .sleeping →
      Step s paperOrderId Sees w (i, .wake) (w.setPhase i .submitting)
  | submit {w : PaperWorld ι} {i : ι} : w.phase i = .submitting → w.row = none →
      Step s paperOrderId Sees w (i, .submit)
        ((w.reserve i).setPhase i (.recording (recordOrder (s.response (paperOrderId i))).start))
  | cancelled {w : PaperWorld ι} {i : ι} : w.phase i = .submitting →
      Step s paperOrderId Sees w (i, .submit) (w.setPhase i .finished)
  | submitFails {w : PaperWorld ι} {i : ι} : w.phase i = .submitting →
      Step s paperOrderId Sees w (i, .submitRaises false) (w.setPhase i .publishing)
  | submitUnanswered {w : PaperWorld ι} {i : ι} : w.phase i = .submitting → w.row = none →
      Step s paperOrderId Sees w (i, .submitRaises true) ((w.reserve i).setPhase i .publishing)
  | record {w : PaperWorld ι} {i : ι} {r r' : OrderRow} {c c' : CallPhase} {e : CallEvent} :
      w.phase i = .recording c → w.row = some (i, r) →
      CallStep (Sees r) (recordOrder (s.response (paperOrderId i))) r c e r' c' →
      Step s paperOrderId Sees w (i, .record e)
        ({ w with row := some (i, r') }.setPhase i (.recording c'))
  -- `record_order` raises when the transition answers false, and that is caught too
  | recorded {w : PaperWorld ι} {i : ι} {ok : Bool} : w.phase i = .recording (.returned ok) →
      Step s paperOrderId Sees w (i, .resume) (w.setPhase i .publishing)
  | publish {w : PaperWorld ι} {i : ι} : w.phase i = .publishing →
      Step s paperOrderId Sees w (i, .publish) ((w.publishEvent s i).setPhase i .applying)
  | publishFails {w : PaperWorld ι} {i : ι} : w.phase i = .publishing →
      Step s paperOrderId Sees w (i, .publishRaises false) (w.setPhase i .applying)
  | publishUnanswered {w : PaperWorld ι} {i : ι} : w.phase i = .publishing →
      Step s paperOrderId Sees w (i, .publishRaises true)
        ((w.publishEvent s i).setPhase i .applying)
  | apply {w : PaperWorld ι} {i : ι} : w.phase i = .applying →
      0 < s.filledQuantity → s.status ≠ .rejected →
      Step s paperOrderId Sees w (i, .apply) ((w.applyFill i).setPhase i .finished)
  | applyFails {w : PaperWorld ι} {i : ι} : w.phase i = .applying →
      0 < s.filledQuantity → s.status ≠ .rejected →
      Step s paperOrderId Sees w (i, .applyRaises false) (w.setPhase i .finished)
  | applyUnanswered {w : PaperWorld ι} {i : ι} : w.phase i = .applying →
      0 < s.filledQuantity → s.status ≠ .rejected →
      Step s paperOrderId Sees w (i, .applyRaises true) ((w.applyFill i).setPhase i .finished)
  | nothingFilled {w : PaperWorld ι} {i : ι} : w.phase i = .applying →
      ¬ (0 < s.filledQuantity ∧ s.status ≠ .rejected) →
      Step s paperOrderId Sees w (i, .resume) (w.setPhase i .finished)
  | crash {w : PaperWorld ι} {i : ι} : w.phase i ≠ .idle →
      Step s paperOrderId Sees w (i, .crash) (w.setPhase i .finished)

end PaperWorld

namespace PaperPhase

/-- Past the reservation, with the fill still to publish or to apply. -/
def Passed : PaperPhase → Prop
  | .recording _ | .publishing | .applying => True
  | _ => False

end PaperPhase

namespace PaperWorld
variable {s : PaperSignal} {paperOrderId : ι → String} {Sees : OrderRow → OrderStatus → Prop}
  {w w' : PaperWorld ι} {ev : ι × PaperEvent}

/-- A `submit_order` that raises has made the reservation all the same. -/
def RaisesReserved (_ : PaperWorld ι) (ev : ι × PaperEvent) : Prop :=
  ev.2 ≠ .submitRaises false

/-- The call whose order id the row has. -/
def owner (w : PaperWorld ι) : Option ι := w.row.map Prod.fst

/-- One list of effects: at most one, the owner's, in a phase that comes after it. -/
def OnceBy (w : PaperWorld ι) (done : List ι) (after : PaperPhase → Prop) : Prop :=
  done = [] ∨ ∃ i, done = [i] ∧ w.owner = some i ∧ after (w.phase i)

structure Sound (w : PaperWorld ι) : Prop where
  passed : ∀ i, (w.phase i).Passed → w.owner = some i
  fills : w.OnceBy w.fills fun p => p = .applying ∨ p = .finished
  applied : w.OnceBy w.applied fun p => p = .finished

theorem start_sound : Sound (start : PaperWorld ι) :=
  ⟨fun _ h => absurd h id, Or.inl rfl, Or.inl rfl⟩

theorem OnceBy.length_le {done : List ι} {after : PaperPhase → Prop} (h : w.OnceBy done after) :
    done.length ≤ 1 := by
  obtain h | ⟨i, h, _⟩ := h <;> rw [h] <;> simp

variable [DecidableEq ι]

@[simp] theorem setPhase_row (i : ι) (p : PaperPhase) : (w.setPhase i p).row = w.row := rfl

@[simp] theorem setPhase_owner (i : ι) (p : PaperPhase) : (w.setPhase i p).owner = w.owner := rfl

theorem OnceBy.setPhase {done : List ι} {after : PaperPhase → Prop} (h : w.OnceBy done after)
    {i : ι} {p : PaperPhase} (hp : after (w.phase i) → after p) :
    (w.setPhase i p).OnceBy done after := by
  obtain h | ⟨j, hdone, ho, hj⟩ := h
  · exact Or.inl h
  · refine Or.inr ⟨j, hdone, ho, ?_⟩
    by_cases hji : j = i
    · subst hji
      simpa [PaperWorld.setPhase] using hp hj
    · simpa [PaperWorld.setPhase, hji] using hj

/-- The owner does it now, and has not done it before. -/
theorem OnceBy.cons {done : List ι} {after : PaperPhase → Prop} (h : w.OnceBy done after)
    {i : ι} {p : PaperPhase} (ho : w.owner = some i) (hi : ¬ after (w.phase i)) (hp : after p) :
    (w.setPhase i p).OnceBy (i :: done) after := by
  obtain h | ⟨j, _, hj, hafter⟩ := h
  · exact Or.inr ⟨i, by rw [h], ho, by simpa [PaperWorld.setPhase] using hp⟩
  · cases ho.symm.trans hj
    exact absurd hafter hi

theorem passed_setPhase (hw : Sound w) {i : ι} {p : PaperPhase} (hp : p.Passed → w.owner = some i) :
    ∀ j, ((w.setPhase i p).phase j).Passed → w.owner = some j :=
  (Function.forall_update_iff w.phase fun j p => p.Passed → w.owner = some j).mpr
    ⟨hp, fun j _ => hw.passed j⟩

/-- A call moves on without writing anything. -/
theorem Sound.move (hw : Sound w) {i : ι} {p : PaperPhase} (hp : p.Passed → (w.phase i).Passed)
    (hfills : w.phase i = .applying ∨ w.phase i = .finished → p = .applying ∨ p = .finished)
    (happlied : w.phase i = .finished → p = .finished) : Sound (w.setPhase i p) :=
  ⟨passed_setPhase hw fun h => hw.passed i (hp h), hw.fills.setPhase hfills,
    hw.applied.setPhase happlied⟩

omit [DecidableEq ι] in
theorem Sound.unreserved (hw : Sound w) (hr : w.row = none) :
    (∀ i, ¬ (w.phase i).Passed) ∧ w.fills = [] ∧ w.applied = [] := by
  have hnone : w.owner = none := by simp [owner, hr]
  refine ⟨fun i hi => ?_, ?_, ?_⟩
  · cases hnone.symm.trans (hw.passed i hi)
  · obtain h | ⟨i, _, ho, _⟩ := hw.fills
    · exact h
    · cases hnone.symm.trans ho
  · obtain h | ⟨i, _, ho, _⟩ := hw.applied
    · exact h
    · cases hnone.symm.trans ho

theorem Sound.reserve (hw : Sound w) (hr : w.row = none) (i : ι) (p : PaperPhase) :
    Sound ((w.reserve i).setPhase i p) := by
  obtain ⟨hpassed, hfills, happlied⟩ := hw.unreserved hr
  refine ⟨?_, Or.inl hfills, Or.inl happlied⟩
  exact (Function.forall_update_iff w.phase fun j p => p.Passed → some i = some j).mpr
    ⟨fun _ => rfl, fun j _ h => absurd h (hpassed j)⟩

theorem Sound.record (hw : Sound w) {i : ι} {r r' : OrderRow} {c c' : CallPhase}
    (hi : w.phase i = .recording c) (hr : w.row = some (i, r)) :
    Sound ({ w with row := some (i, r') }.setPhase i (.recording c')) := by
  have ho : ({ w with row := some (i, r') } : PaperWorld ι).owner = w.owner := by
    simp [owner, hr]
  have hsame : Sound { w with row := some (i, r') } :=
    ⟨fun j hj => ho.trans (hw.passed j hj), by simpa only [OnceBy, ho] using hw.fills,
      by simpa only [OnceBy, ho] using hw.applied⟩
  refine hsame.move (fun _ => ?_) ?_ ?_
  · simp only [hi]
    trivial
  · simp [hi]
  · simp [hi]

theorem Sound.published (hw : Sound w) {i : ι} (hi : w.phase i = .publishing) :
    Sound ((w.publishEvent s i).setPhase i .applying) := by
  have hpassed : (w.phase i).Passed := by
    rw [hi]
    trivial
  unfold publishEvent
  split
  · exact ⟨passed_setPhase hw fun _ => hw.passed i hpassed,
      hw.fills.setPhase fun _ => Or.inl rfl, hw.applied.setPhase fun h => by simp [hi] at h⟩
  · exact ⟨passed_setPhase hw fun _ => hw.passed i hpassed,
      hw.fills.cons (hw.passed i hpassed) (by simp [hi]) (Or.inl rfl),
      hw.applied.setPhase fun h => by simp [hi] at h⟩

theorem Sound.appliedBy (hw : Sound w) {i : ι} (hi : w.phase i = .applying) :
    Sound ((w.applyFill i).setPhase i .finished) := by
  have hpassed : (w.phase i).Passed := by
    rw [hi]
    trivial
  exact ⟨passed_setPhase hw fun h => absurd h id, hw.fills.setPhase fun _ => Or.inr rfl,
    hw.applied.cons (hw.passed i hpassed) (by simp [hi]) rfl⟩

theorem step_sound (hw : Sound w) (hok : RaisesReserved w ev)
    (h : Step s paperOrderId Sees w ev w') : Sound w' := by
  cases h with
  | begin hi | unseen hi | wake hi =>
    exact hw.move (fun h => absurd h id) (by simp [hi]) (by simp [hi])
  | duplicate hi _ | cancelled hi =>
    exact hw.move (fun h => absurd h id) (fun _ => Or.inr rfl) (fun _ => rfl)
  | submit _ hr => exact hw.reserve hr _ _
  | submitFails => exact absurd rfl hok
  | submitUnanswered _ hr => exact hw.reserve hr _ _
  | record hi hr _ => exact hw.record hi hr
  | recorded hi => exact hw.move (fun _ => by rw [hi]; trivial) (by simp [hi]) (by simp [hi])
  | publish hi | publishUnanswered hi => exact hw.published hi
  | publishFails hi =>
    exact hw.move (fun _ => by rw [hi]; trivial) (fun _ => Or.inl rfl) (by simp [hi])
  | apply hi _ _ | applyUnanswered hi _ _ => exact hw.appliedBy hi
  | applyFails | nothingFilled | crash =>
    exact hw.move (fun h => absurd h id) (fun _ => Or.inr rfl) (fun _ => rfl)

/-- When a reservation that raises has been made all the same, one call at most gets past
it, and the fill of a paper signal is published once and applied once at most. -/
theorem paper_fill_at_most_once
    (hr : Reaches (Step s paperOrderId Sees) RaisesReserved start w) :
    w.fills.length ≤ 1 ∧ w.applied.length ≤ 1 := by
  have hw := Reaches.invariant (I := Sound) (fun _ _ _ hs ho hst => step_sound hs ho hst) hr
    start_sound
  exact ⟨hw.fills.length_le, hw.applied.length_le⟩

/-- Ten shares, filled at once. -/
def tenShares : PaperSignal := ⟨10, 100, 1 / 4, 0, false, false, false⟩

/-- One delivery that runs to the end while another waits. -/
theorem paper_fill_at_most_once_delivered :
    ∃ w : PaperWorld (Fin 2), w.fills = [0] ∧ w.applied = [0] ∧
      w.fills.length ≤ 1 ∧ w.applied.length ≤ 1 := by
  have h1 : Reaches (Step tenShares (fun _ => "PAPER-0") fun r st => st = r.status)
      RaisesReserved start _ :=
    Reaches.next (e := ((0 : Fin 2), .begin)) .refl (by nofun) (.begin rfl)
  have h2 := h1.next (by nofun) (.unseen (i := 0) rfl)
  have h3 := h2.next (by nofun) (.wake (i := 0) rfl)
  have h4 := h3.next (by nofun) (.begin (i := 1) rfl)
  have h5 := h4.next (by nofun) (.unseen (i := 1) rfl)
  have h6 := h5.next (by nofun) (.submit (i := 0) rfl rfl)
  have h7 := h6.next (by nofun) (.record (i := 0) rfl rfl (.read .pending rfl))
  have h8 := h7.next (by nofun) (.record (i := 0) rfl rfl (.write rfl))
  have h9 := h8.next (by nofun) (.recorded (i := 0) rfl)
  have h10 := h9.next (by nofun) (.publish (i := 0) rfl)
  have h11 := h10.next (by nofun) (.apply (i := 0) rfl (by decide +kernel) (by decide +kernel))
  exact ⟨_, rfl, rfl, paper_fill_at_most_once h11⟩

/-- The store refuses the first reservation with an error; the handler logs it, publishes
the fill and moves the position, and a second delivery does so once more. -/
theorem failed_reservation_fills_twice :
    ¬ ∀ w : PaperWorld (Fin 2),
      Reaches (Step tenShares (fun _ => "PAPER-0") fun r st => st = r.status) (fun _ _ => True)
        start w → w.fills.length ≤ 1 ∧ w.applied.length ≤ 1 := by
  intro hall
  have h1 : Reaches (Step tenShares (fun _ => "PAPER-0") fun r st => st = r.status)
      (fun _ _ => True) start _ :=
    Reaches.next (e := ((0 : Fin 2), .begin)) .refl trivial (.begin rfl)
  have h2 := h1.next trivial (.unseen (i := 0) rfl)
  have h3 := h2.next trivial (.wake (i := 0) rfl)
  have h4 := h3.next trivial (.submitFails (i := 0) rfl)
  have h5 := h4.next trivial (.publish (i := 0) rfl)
  have h6 := h5.next trivial (.apply (i := 0) rfl (by decide +kernel) (by decide +kernel))
  have h7 := h6.next trivial (.begin (i := 1) rfl)
  have h8 := h7.next trivial (.unseen (i := 1) rfl)
  have h9 := h8.next trivial (.wake (i := 1) rfl)
  have h10 := h9.next trivial (.submit (i := 1) rfl rfl)
  have h11 := h10.next trivial (.record (i := 1) rfl rfl (.read .pending rfl))
  have h12 := h11.next trivial (.record (i := 1) rfl rfl (.write rfl))
  have h13 := h12.next trivial (.recorded (i := 1) rfl)
  have h14 := h13.next trivial (.publish (i := 1) rfl)
  have h15 := h14.next trivial (.apply (i := 1) rfl (by decide +kernel) (by decide +kernel))
  exact absurd (hall _ h15).1 (by decide)

end PaperWorld
end QuantEmbrace
