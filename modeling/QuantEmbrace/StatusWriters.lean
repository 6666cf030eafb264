import QuantEmbrace.OrderTransition
import Mathlib.Tactic.NormNum

/-! The places that write an order's status, each with the fill figure it passes:
a broker report, a row read earlier, or the default zero. -/
namespace QuantEmbrace
open GuardedRun

/-- What the broker answers about an order at one moment. -/
structure BrokerReport where
  status : OrderStatus
  filledQuantity : ℚ
  avgFillPrice : ℚ
  message : String
  deriving DecidableEq, Repr

def BrokerReport.response (r : BrokerReport) (brokerOrderId : String) : OrderResponse :=
  ⟨brokerOrderId, r.status, r.filledQuantity, r.avgFillPrice, r.message⟩

section Writes
variable (stored : OrderRow) (r : BrokerReport) (reason : String)

/-- `_handle_fill` -/
def pollFillWrite : StatusWrite :=
  updateOrderStatus .filled r.filledQuantity r.avgFillPrice r.message

/-- `_handle_partial` -/
def pollPartialWrite : StatusWrite :=
  updateOrderStatus .partiallyFilled r.filledQuantity r.avgFillPrice r.message

/-- `_handle_terminal`: the only writer that looks at the stored quantity first. -/
def pollTerminalWrite : StatusWrite :=
  updateOrderStatus (if r.status = .cancelled then .cancelled else .rejected)
    (max r.filledQuantity stored.filledQuantity)
    (if r.avgFillPrice = 0 then stored.avgFillPrice else r.avgFillPrice) r.message

/-- `_reconcile_state`, second pass. -/
def reconcileWrite : StatusWrite :=
  updateOrderStatus r.status r.filledQuantity r.avgFillPrice

/-- `_cancel_one_open_order_for_kill_switch`, no broker order id. -/
def cancelLocalWrite : StatusWrite :=
  updateOrderStatus .cancelled stored.filledQuantity stored.avgFillPrice
    s!"Cancelled locally by execution kill switch: {reason}"

/-- `_cancel_one_open_order_for_kill_switch`, after the broker cancelled. -/
def cancelAtBrokerWrite (brokerMessage : String) : StatusWrite :=
  updateOrderStatus .cancelled stored.filledQuantity stored.avgFillPrice
    (if brokerMessage = "" then s!"Cancelled by kill switch: {reason}" else brokerMessage)

def placementRejectedWrite : StatusWrite :=
  updateOrderStatus .rejected 0 0 "Non-retryable broker rejection during placement"

def corruptPendingWrite : StatusWrite :=
  updateOrderStatus .rejected 0 0 "Corrupt PENDING record: missing signal_id/risk_decision_id"

/-- `_handle_protective_stop_failure` -/
def stopFailureWrite : StatusWrite :=
  updateOrderStatus .rejected 0 0
    "Protective stop could not be confirmed; emergency flatten attempted"

end Writes

/-- The rows `_poll_cycle` follows. -/
def OrderRow.Tracked (row : OrderRow) : Prop :=
  row.brokerOrderId ≠ none ∧ (row.status = .placed ∨ row.status = .partiallyFilled)

/-- A writer between its snapshot of the row, if it takes one, and the end of its
call. The times are the broker's: of the fill in the snapshot, and of the fill in
the call's argument, none for a call that leaves the argument at its default. -/
inductive WriterPhase where
  | idle
  | looked (stored : OrderRow) (asOf : ℕ)
  | calling (write : StatusWrite) (asOf : Option ℕ) (call : CallPhase)

/-- The call a writer makes from what it holds, `r` being the report of time `now`. -/
inductive Begins (r : BrokerReport) (now : ℕ) : WriterPhase → StatusWrite → Option ℕ → Prop
  | pollFill {stored : OrderRow} {t : ℕ} : stored.Tracked → r.status = .filled →
      Begins r now (.looked stored t) (pollFillWrite r) (some now)
  | pollPartial {stored : OrderRow} {t : ℕ} : stored.Tracked →
      r.status = .partiallyFilled → stored.filledQuantity < r.filledQuantity →
      Begins r now (.looked stored t) (pollPartialWrite r) (some now)
  | pollTerminal {stored : OrderRow} {t : ℕ} : stored.Tracked →
      r.status = .cancelled ∨ r.status = .rejected →
      Begins r now (.looked stored t) (pollTerminalWrite stored r) (some now)
  | reconcile {stored : OrderRow} {t : ℕ} : stored.Tracked → r.status ≠ stored.status →
      Begins r now (.looked stored t) (reconcileWrite r) (some now)
  | cancelLocal {stored : OrderRow} {t : ℕ} (reason : String) : stored.status = .pending →
      stored.brokerOrderId = none →
      Begins r now (.looked stored t) (cancelLocalWrite stored reason) (some t)
  | cancelAtBroker {stored : OrderRow} {t : ℕ} (reason message : String) :
      ¬ stored.status.Terminal → stored.brokerOrderId ≠ none →
      Begins r now (.looked stored t) (cancelAtBrokerWrite stored reason message) (some t)
  | placementAck (brokerOrderId : String) :
      Begins r now .idle (recordOrder (r.response brokerOrderId)) (some now)
  | ackUnknown (message : String) : Begins r now .idle (markOrderAckUnknown message) none
  | placementRejected : Begins r now .idle placementRejectedWrite none
  | corruptPending : Begins r now .idle corruptPendingWrite none
  | stopFailure : Begins r now .idle stopFailureWrite none

/-- One order with its writers. `asOf` is the broker time of the stored fill. -/
structure FillWorld (ι : Type*) where
  row : OrderRow
  asOf : ℕ
  now : ℕ
  tasks : ι → WriterPhase

inductive WriterEvent (ι : Type*) where
  | tick
  | look (i : ι)
  | begin (i : ι)
  | call (i : ι) (e : CallEvent)
  | finish (i : ι)

/-- The event writes the row when the status is the one the call had checked. -/
def CallEvent.lands (e : CallEvent) : Bool := e = .write || e = .fail true

namespace FillWorld
variable {ι : Type*}

def start : FillWorld ι := ⟨.reserved, 0, 0, fun _ => .idle⟩

/-- A status write of task `i` takes effect at event `e`. -/
def Lands (w : FillWorld ι) (i : ι) (e : CallEvent) (wr : StatusWrite) (asOf : Option ℕ) : Prop :=
  e.lands ∧ w.tasks i = .calling wr asOf (.writing w.row.status)

/- `broker t` is the broker's view of the order at its time `t`. A writer may take
   any number of turns. -/
inductive Step [DecidableEq ι] (Sees : OrderRow → OrderStatus → Prop) (broker : ℕ → BrokerReport) :
    FillWorld ι → WriterEvent ι → FillWorld ι → Prop
  | tick {w : FillWorld ι} : Step Sees broker w .tick { w with now := w.now + 1 }
  | look {w : FillWorld ι} {i : ι} : w.tasks i = .idle →
      Step Sees broker w (.look i)
        { w with tasks := Function.update w.tasks i (.looked w.row w.asOf) }
  | begin {w : FillWorld ι} {i : ι} {wr : StatusWrite} {asOf : Option ℕ} :
      Begins (broker w.now) w.now (w.tasks i) wr asOf →
      Step Sees broker w (.begin i)
        { w with tasks := Function.update w.tasks i (.calling wr asOf wr.start) }
  | quiet {w : FillWorld ι} {i : ι} {e : CallEvent} {wr : StatusWrite} {asOf : Option ℕ}
      {c c' : CallPhase} : w.tasks i = .calling wr asOf c →
      CallStep (Sees w.row) wr w.row c e w.row c' → ¬ w.Lands i e wr asOf →
      Step Sees broker w (.call i e)
        { w with tasks := Function.update w.tasks i (.calling wr asOf c') }
  | lands {w : FillWorld ι} {i : ι} {e : CallEvent} {wr : StatusWrite} {asOf : Option ℕ}
      {c' : CallPhase} : w.Lands i e wr asOf →
      CallStep (Sees w.row) wr w.row (.writing w.row.status) e (wr.set w.row) c' →
      Step Sees broker w (.call i e)
        { w with
          row := wr.set w.row
          asOf := asOf.getD w.asOf
          tasks := Function.update w.tasks i (.calling wr asOf c') }
  | finish {w : FillWorld ι} {i : ι} {wr : StatusWrite} {asOf : Option ℕ} {ok : Bool} :
      w.tasks i = .calling wr asOf (.returned ok) →
      Step Sees broker w (.finish i) { w with tasks := Function.update w.tasks i .idle }

/-- What a task holds is a fill figure the broker once reported, or zero. -/
def PhaseSound (broker : ℕ → BrokerReport) (now : ℕ) : WriterPhase → Prop
  | .idle => True
  | .looked stored t => t ≤ now ∧ stored.filledQuantity = (broker t).filledQuantity
  | .calling wr (some t) _ => t ≤ now ∧ wr.filledQuantity = (broker t).filledQuantity
  | .calling wr none _ => wr.filledQuantity = 0

structure Sound (broker : ℕ → BrokerReport) (w : FillWorld ι) : Prop where
  ahead : w.asOf ≤ w.now
  stored : w.row.filledQuantity = (broker w.asOf).filledQuantity
  phases : ∀ i, PhaseSound broker w.now (w.tasks i)

/-- A write lands in order: its figure is not older than the stored one, or the
broker filled nothing in between, and a default zero meets a row with no fill. -/
def InOrder (broker : ℕ → BrokerReport) (w : FillWorld ι) (ev : WriterEvent ι) : Prop :=
  ∀ i e wr asOf, ev = .call i e → w.Lands i e wr asOf →
    match asOf with
    | some t => w.asOf ≤ t ∨ (broker t).filledQuantity = (broker w.asOf).filledQuantity
    | none => w.row.filledQuantity = 0

theorem start_sound {broker : ℕ → BrokerReport} (hzero : (broker 0).filledQuantity = 0) :
    Sound broker (start : FillWorld ι) :=
  ⟨le_rfl, by simp [start, OrderRow.reserved, hzero], fun _ => trivial⟩

variable [DecidableEq ι] {Sees : OrderRow → OrderStatus → Prop} {broker : ℕ → BrokerReport}
  {w w' : FillWorld ι} {ev : WriterEvent ι}

theorem begins_sound {now : ℕ} {p : WriterPhase} {wr : StatusWrite} {asOf : Option ℕ}
    (hmono : Monotone fun t => (broker t).filledQuantity) (hp : PhaseSound broker now p)
    (h : Begins (broker now) now p wr asOf) (c : CallPhase) :
    PhaseSound broker now (.calling wr asOf c) := by
  cases h with
  | pollTerminal =>
    obtain ⟨ht, hq⟩ := hp
    have hle := hmono ht
    refine ⟨le_rfl, ?_⟩
    simp only [pollTerminalWrite, updateOrderStatus, hq]
    exact max_eq_left hle
  | cancelLocal | cancelAtBroker => exact hp
  | pollFill | pollPartial | reconcile | placementAck => exact ⟨le_rfl, rfl⟩
  | _ => rfl

theorem PhaseSound.mono {now : ℕ} {p : WriterPhase} (h : PhaseSound broker now p) :
    PhaseSound broker (now + 1) p := by
  cases p with
  | looked stored t => exact ⟨Nat.le_succ_of_le h.1, h.2⟩
  | idle => trivial
  | calling wr asOf c =>
    cases asOf with
    | some t => exact ⟨Nat.le_succ_of_le h.1, h.2⟩
    | none => exact h

theorem phases_update (h : ∀ j, PhaseSound broker w.now (w.tasks j)) {i : ι} {p : WriterPhase}
    (hp : PhaseSound broker w.now p) (j : ι) :
    PhaseSound broker w.now (Function.update w.tasks i p j) := by
  by_cases hj : j = i
  · subst hj
    simpa using hp
  · rw [Function.update_of_ne hj]
    exact h j

omit [DecidableEq ι] in
/-- A write that lands in order keeps the stored fill a figure of the broker's. -/
theorem lands_stored (hmono : Monotone fun t => (broker t).filledQuantity)
    (hw : Sound broker w) {i : ι} {e : CallEvent} {wr : StatusWrite} {asOf : Option ℕ}
    (hl : w.Lands i e wr asOf) (hok : InOrder broker w (.call i e)) :
    asOf.getD w.asOf ≤ w.now ∧
      wr.filledQuantity = (broker (asOf.getD w.asOf)).filledQuantity ∧
      w.row.filledQuantity ≤ wr.filledQuantity := by
  have hp := hw.phases i
  rw [hl.2] at hp
  have hin := hok i e wr asOf rfl hl
  cases asOf with
  | some t =>
    obtain ⟨ht, hq⟩ := hp
    refine ⟨ht, hq, ?_⟩
    rw [hw.stored, hq]
    obtain hle | heq := hin
    · exact hmono hle
    · exact heq.ge
  | none => exact ⟨hw.ahead, hp.trans (hin.symm.trans hw.stored), by rw [hin]; exact hp.ge⟩

theorem step_sound (hmono : Monotone fun t => (broker t).filledQuantity) (hw : Sound broker w)
    (hok : InOrder broker w ev) (h : Step Sees broker w ev w') : Sound broker w' := by
  cases h with
  | tick => exact ⟨Nat.le_succ_of_le hw.ahead, hw.stored, fun i => (hw.phases i).mono⟩
  | look hi => exact ⟨hw.ahead, hw.stored, phases_update hw.phases ⟨hw.ahead, hw.stored⟩⟩
  | begin hb =>
    exact ⟨hw.ahead, hw.stored, phases_update hw.phases (begins_sound hmono (hw.phases _) hb _)⟩
  | @quiet i _ _ asOf _ _ hi _ _ =>
    have hp := hw.phases i
    rw [hi] at hp
    refine ⟨hw.ahead, hw.stored, phases_update hw.phases ?_⟩
    cases asOf <;> exact hp
  | @lands i _ _ asOf _ hl _ =>
    have hp := hw.phases i
    rw [hl.2] at hp
    obtain ⟨ht, hq, _⟩ := lands_stored hmono hw hl hok
    refine ⟨ht, hq, phases_update hw.phases ?_⟩
    cases asOf <;> exact hp
  | finish hi => exact ⟨hw.ahead, hw.stored, phases_update hw.phases trivial⟩

theorem step_fill_mono (hmono : Monotone fun t => (broker t).filledQuantity)
    (hw : Sound broker w) (hok : InOrder broker w ev) (h : Step Sees broker w ev w') :
    w.row.filledQuantity ≤ w'.row.filledQuantity := by
  cases h with
  | lands hl _ => exact (lands_stored hmono hw hl hok).2.2
  | _ => exact le_rfl

/-- In every run whose status writes land in order, no step makes the stored
cumulative fill smaller, and it stays a figure the broker reported. -/
theorem stored_fill_never_decreases (hmono : Monotone fun t => (broker t).filledQuantity)
    (hzero : (broker 0).filledQuantity = 0)
    (hr : Reaches (Step Sees broker) (InOrder broker) (start : FillWorld ι) w)
    (hok : InOrder broker w ev) (h : Step Sees broker w ev w') :
    w.row.filledQuantity ≤ w'.row.filledQuantity ∧
      w'.row.filledQuantity = (broker w'.asOf).filledQuantity := by
  have hw : Sound broker w :=
    Reaches.invariant (I := Sound broker) (fun _ _ _ hs ho hst => step_sound hmono hs ho hst) hr
      (start_sound hzero)
  exact ⟨step_fill_mono hmono hw hok h, (step_sound hmono hw hok h).stored⟩

omit [DecidableEq ι] in
theorem inOrder_of_ne_call (h : ∀ i e, ev ≠ .call i e) : InOrder broker w ev :=
  fun i e _ _ he _ => absurd he (h i e)

omit [DecidableEq ι] in
theorem inOrder_read (i : ι) (st : OrderStatus) : InOrder broker w (.call i (.read st)) := by
  intro j e wr asOf he hl
  cases he
  cases hl.1

omit [DecidableEq ι] in
theorem inOrder_recent {i : ι} {wr : StatusWrite} {t : ℕ} {c : CallPhase}
    (hi : w.tasks i = .calling wr (some t) c) (ht : w.asOf ≤ t) (e : CallEvent) :
    InOrder broker w (.call i e) := by
  intro j e' wr' asOf he hl
  cases he
  have htask := hl.2
  rw [hi] at htask
  cases htask
  exact Or.inl ht

/-- Reads that see the row as it is. -/
def Current (row : OrderRow) (st : OrderStatus) : Prop := st = row.status

/-- Placed at time 0, five shares filled from time 1 on. -/
def fiveFilled (t : ℕ) : BrokerReport :=
  if t = 0 then ⟨.placed, 0, 0, ""⟩ else ⟨.partiallyFilled, 5, 100, ""⟩

theorem fiveFilled_mono : Monotone fun t => (fiveFilled t).filledQuantity := by
  refine monotone_nat_of_le_succ fun t => ?_
  cases t <;> simp [fiveFilled]

/-- The acknowledgement of an order that is already half filled. -/
theorem stored_fill_never_decreases_acknowledged :
    ∃ w w' : FillWorld Unit, w.row.filledQuantity = 0 ∧ w'.row.filledQuantity = 5 ∧
      w.row.filledQuantity ≤ w'.row.filledQuantity := by
  have h1 : Reaches (Step Current fiveFilled) (InOrder fiveFilled) (start : FillWorld Unit) _ :=
    Reaches.next (e := .tick) .refl (inOrder_of_ne_call nofun) .tick
  have h2 := h1.next (e := .begin ()) (inOrder_of_ne_call nofun)
    (.begin (i := ()) (.placementAck "B1"))
  have h3 := h2.next (inOrder_read _ _) (.quiet (i := ()) rfl (.read _ rfl) nofun)
  exact ⟨_, _, rfl, by decide +kernel, (stored_fill_never_decreases fiveFilled_mono
    (by simp [fiveFilled]) h3 (inOrder_recent rfl (Nat.zero_le 1) .write)
    (.lands (i := ()) ⟨rfl, rfl⟩ (.write rfl))).1⟩

/-- The kill switch looks at the row before the poller records five shares and
cancels after it: its zero replaces the five. -/
theorem stale_cancel_lowers_stored_fill :
    ¬ ∀ broker : ℕ → BrokerReport, Monotone (fun t => (broker t).filledQuantity) →
      (broker 0).filledQuantity = 0 → ∀ (w w' : FillWorld (Fin 3)) (ev : WriterEvent (Fin 3)),
      Reaches (Step Current broker) (fun _ _ => True) start w → Step Current broker w ev w' →
      w.row.filledQuantity ≤ w'.row.filledQuantity := by
  intro hall
  have h1 : Reaches (Step Current fiveFilled) (fun _ _ => True) (start : FillWorld (Fin 3)) _ :=
    Reaches.next .refl trivial (.begin (i := 0) (.placementAck "B1"))
  have h2 := h1.next trivial (.quiet (i := 0) rfl (.read _ rfl) nofun)
  have h3 := h2.next trivial (.lands (i := 0) ⟨rfl, rfl⟩ (.write rfl))
  have h4 := h3.next trivial (.look (i := 2) rfl)
  have h5 := h4.next trivial .tick
  have h6 := h5.next trivial (.look (i := 1) rfl)
  have h7 := h6.next trivial (.begin (i := 1) (.pollPartial ⟨nofun, Or.inl rfl⟩ rfl
    (by decide +kernel)))
  have h8 := h7.next trivial (.quiet (i := 1) rfl (.read _ rfl) nofun)
  have h9 := h8.next trivial (.lands (i := 1) ⟨rfl, rfl⟩ (.write rfl))
  have h10 := h9.next trivial (.begin (i := 2) (.cancelAtBroker "" ""
    (by decide) nofun))
  have h11 := h10.next trivial (.quiet (i := 2) rfl (.read _ rfl) nofun)
  have hlow := hall fiveFilled fiveFilled_mono (by simp [fiveFilled]) _ _ _ h11
    (.lands (i := 2) ⟨rfl, rfl⟩ (.write rfl))
  exact absurd hlow (by decide +kernel)

end FillWorld
end QuantEmbrace
