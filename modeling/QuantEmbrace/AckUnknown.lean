import QuantEmbrace.KillSwitchCancel

/-! One order whose broker answer may get lost: every path that can pick its row up again,
as any number of tasks that read the row, as it is or as it was, and then act on it. The
texts of the status messages are those of an entry. -/
namespace QuantEmbrace
open GuardedRun
variable {ι : Type*}

/-- What one task is doing with the order. `stop` marks the call of
`_maybe_place_protective_stop` that created the row. -/
inductive AckPhase where
  | idle
  | placing (stop : Bool) (p : Placement)
  | recovering (stop : Bool) (p : Placement)
  | failing (c : CallPhase)
  | settling (w : StatusWrite) (c : CallPhase)
  | byBrokerId (w : StatusWrite) (c : CallPhase)
  | done
  deriving DecidableEq, Repr

inductive AckEvent where
  | arm
  | recover
  | placement (e : PlacementEvent)
  | failing (e : CallEvent)
  | settle
  | settling (e : CallEvent)
  | meet
  | byBrokerId (e : CallEvent)
  | crash
  deriving DecidableEq, Repr

/-- The order a lookup under the idempotency key has just shown. -/
def Placement.shown : Placement → List OrderResponse
  | .found (some r) | .scanned (some r) => [r]
  | _ => []

namespace AckPhase

/-- Where a placement goes on: marked, in `_recover_ack_unknown_order`; raised for a new
stop, in the failure path, unless it is the record of a response that raised. -/
def after (here : Placement → AckPhase) (stop : Bool) (p : Placement) : Placement → AckPhase
  | .raised =>
    if stop = true ∧ p.response = none then .failing stopFailureWrite.start else .done
  | .recorded _ => .done
  | .scanning => .recovering stop .scanning
  | p' => here p'

def ofCall (here : CallPhase → AckPhase) : CallPhase → AckPhase
  | .returned _ => .done
  | c => here c

end AckPhase

/-- The row and all rows it held before, the tasks, and the responses lookups have shown. -/
structure AckWorld (ι : Type*) where
  row : OrderRow
  past : List OrderRow
  phase : ι → AckPhase
  found : List OrderResponse

/-- No broker status is translated to ACK_UNKNOWN. -/
def OrderResponse.Translated (r : OrderResponse) : Prop := r.status ≠ .ackUnknown

namespace AckWorld

/-- The order has just been reserved. -/
def start : AckWorld ι := ⟨.reserved, [.reserved], fun _ => .idle, []⟩

def Sees (w : AckWorld ι) (st : OrderStatus) : Prop := ∃ r ∈ w.past, r.status = st

def Finds (o : Option OrderResponse) : Prop := ∀ r, o = some r → r.Translated

def Answers (a : Answer) : Prop := ∀ r, a = .accepted r → r.Translated

def setRow (w : AckWorld ι) (row : OrderRow) (shown : List OrderResponse) : AckWorld ι :=
  { w with row, past := row :: w.past, found := shown ++ w.found }

variable [DecidableEq ι]

def setPhase (w : AckWorld ι) (i : ι) (p : AckPhase) : AckWorld ι :=
  { w with phase := Function.update w.phase i p }

/- `arm` is the reservation itself, a redelivery or a reconciliation that takes the row for
   PENDING; `settle` the kill-switch pass or the reconciliation that takes it for a local
   matter; `meet` whoever goes by the broker order id: the poller, the second pass of the
   reconciliation, a cancellation at the broker. -/
inductive Step (protective : Bool) : AckWorld ι → ι × AckEvent → AckWorld ι → Prop
  | arm {w : AckWorld ι} {i : ι} {stored : OrderRow} {stop : Bool} : w.phase i = .idle →
      stored ∈ w.past → stored.status = .pending → (stop = true → protective = true) →
      Step protective w (i, .arm) (w.setPhase i (.placing stop .finding))
  | recover {w : AckWorld ι} {i : ι} {stored : OrderRow} : w.phase i = .idle →
      stored ∈ w.past → stored.status = .ackUnknown →
      Step protective w (i, .recover) (w.setPhase i (.recovering false .scanning))
  | placing {w : AckWorld ι} {i : ι} {stop : Bool} {p p' : Placement} {e : PlacementEvent}
      {row : OrderRow} : w.phase i = .placing stop p →
      PlacementStep Finds Answers w.Sees w.row p e row p' →
      Step protective w (i, .placement e)
        ((w.setRow row p'.shown).setPhase i (.after (.placing stop) stop p p'))
  | recovering {w : AckWorld ι} {i : ι} {stop : Bool} {p p' : Placement} {e : PlacementEvent}
      {row : OrderRow} : w.phase i = .recovering stop p →
      PlacementStep Finds Answers w.Sees w.row p e row p' →
      Step protective w (i, .placement e)
        ((w.setRow row p'.shown).setPhase i (.after (.recovering stop) stop p p'))
  | failing {w : AckWorld ι} {i : ι} {c c' : CallPhase} {e : CallEvent} {row : OrderRow} :
      w.phase i = .failing c → CallStep w.Sees stopFailureWrite w.row c e row c' →
      Step protective w (i, .failing e) ((w.setRow row []).setPhase i (.ofCall .failing c'))
  | settle {w : AckWorld ι} {i : ι} {stored : OrderRow} {s : StatusWrite} :
      w.phase i = .idle → protective = false → stored ∈ w.past → stored.status = .pending →
      ¬ stored.HasBrokerOrderId →
      (∃ reason, s = cancelLocalWrite stored reason) ∨ s = corruptPendingWrite →
      Step protective w (i, .settle) (w.setPhase i (.settling s s.start))
  | settling {w : AckWorld ι} {i : ι} {s : StatusWrite} {c c' : CallPhase} {e : CallEvent}
      {row : OrderRow} : w.phase i = .settling s c → CallStep w.Sees s w.row c e row c' →
      Step protective w (i, .settling e) ((w.setRow row []).setPhase i (.ofCall (.settling s) c'))
  | meet {w : AckWorld ι} {i : ι} {stored : OrderRow} {s : StatusWrite} : w.phase i = .idle →
      stored ∈ w.past → stored.HasBrokerOrderId → s.newStatus ≠ .ackUnknown →
      Step protective w (i, .meet) (w.setPhase i (.byBrokerId s s.start))
  | byBrokerId {w : AckWorld ι} {i : ι} {s : StatusWrite} {c c' : CallPhase} {e : CallEvent}
      {row : OrderRow} : w.phase i = .byBrokerId s c → CallStep w.Sees s w.row c e row c' →
      Step protective w (i, .byBrokerId e)
        ((w.setRow row []).setPhase i (.ofCall (.byBrokerId s) c'))
  | crash {w : AckWorld ι} {i : ι} : Step protective w (i, .crash) (w.setPhase i .done)

end AckWorld

/-- Between its read of the row and the end of its work on the order. -/
def AckPhase.Busy : AckPhase → Prop
  | placing _ _ | recovering _ _ | failing _ => True
  | _ => False

namespace AckWorld

/-- A placement is armed only while the row is the reservation that nobody else works on;
a local write does not land on ACK_UNKNOWN; the placement of a new stop does not give up
its scan while the row is ACK_UNKNOWN. -/
def Orderly (w : AckWorld ι) : ι × AckEvent → Prop
  | (_, .arm) => (∀ r ∈ w.past, r.status = .pending ∧ ¬ r.HasBrokerOrderId) ∧
    ∀ j, ¬ (w.phase j).Busy
  | (_, .settling e) => e.lands → w.row.status ≠ .ackUnknown
  | (i, .placement e) => (∃ p, w.phase i = .recovering true p ∧
    (e = .fail ∨ p = .scanned none)) → w.row.status ≠ .ackUnknown
  | _ => True

end AckWorld

namespace Placement

/-- The ACK_UNKNOWN mark has not been written. -/
def Unmarked : Placement → Prop
  | .marking _ (.returned _) => False
  | _ => True

/-- The record of a response has not begun. -/
def Unrecorded : Placement → Prop
  | .recording _ _ => False
  | _ => True

/-- The task is still in the part of the call that it was in. -/
def Going : Placement → Prop
  | .scanning | .recorded _ | .raised => False
  | _ => True

theorem Going.ne {p : Placement} (h : p.Going) :
    p ≠ .raised ∧ (∀ r, p ≠ .recorded r) ∧ p ≠ .scanning :=
  ⟨fun he => by rw [he] at h; exact h, fun r he => by rw [he] at h; exact h,
    fun he => by rw [he] at h; exact h⟩

/-- The scan under the idempotency key and what follows it. -/
def Rescan : Placement → Prop
  | .scanning | .scanned _ | .recording _ _ => True
  | _ => False

end Placement

theorem StatusWrite.hasBrokerOrderId_set {w : StatusWrite} {row : OrderRow}
    (hw : w.brokerOrderId = none) : (w.set row).HasBrokerOrderId ↔ row.HasBrokerOrderId := by
  simp [OrderRow.HasBrokerOrderId, StatusWrite.set, hw]

section Steps
variable {Finds : Option OrderResponse → Prop} {Answers : Answer → Prop}
  {Sees : OrderStatus → Prop} {row row' : OrderRow} {p p' : Placement} {e : PlacementEvent}

theorem CallStep.set_cases {w : StatusWrite} {c c' : CallPhase} {e : CallEvent}
    (h : CallStep Sees w row c e row' c') :
    row' = row ∨ (row' = w.set row ∧ c = .writing row.status ∧ e.lands = true ∧
      ∃ ok, c' = .returned ok) := by
  cases h with
  | write hp => exact Or.inr ⟨rfl, by rw [hp], rfl, _, rfl⟩
  | failWritten hp => exact Or.inr ⟨rfl, by rw [hp], rfl, _, rfl⟩
  | _ => exact Or.inl rfl

/-- All a placement does to the row: the mark, the rejection, or the record of a response. -/
theorem PlacementStep.row_cases (h : PlacementStep Finds Answers Sees row p e row' p') :
    row' = row ∨
    (∃ exc ok, p' = .marking exc (.returned ok) ∧ p.Unmarked ∧ p.Unrecorded ∧
      row' = (markOrderAckUnknown (ackUnknownMessage exc)).set row) ∨
    (∃ ok, p' = .rejecting (.returned ok) ∧ row' = placementRejectedWrite.set row) ∨
    (∃ r ok, p.response = some r ∧ p' = .recording r (.returned ok) ∧
      row' = (recordOrder r).set row) := by
  cases h with
  | mark hc =>
    obtain hrow | ⟨hrow, rfl, _, ok, rfl⟩ := hc.set_cases
    · exact Or.inl hrow
    · exact Or.inr (Or.inl ⟨_, ok, rfl, trivial, trivial, hrow⟩)
  | reject hc =>
    obtain hrow | ⟨hrow, _, _, ok, rfl⟩ := hc.set_cases
    · exact Or.inl hrow
    · exact Or.inr (Or.inr (Or.inl ⟨ok, rfl, hrow⟩))
  | record hc =>
    obtain hrow | ⟨hrow, _, _, ok, rfl⟩ := hc.set_cases
    · exact Or.inl hrow
    · exact Or.inr (Or.inr (Or.inr ⟨_, ok, rfl, rfl, hrow⟩))
  | _ => exact Or.inl rfl

theorem PlacementStep.unmarked (h : PlacementStep Finds Answers Sees row p e row' p')
    (hp' : p'.Unmarked) : p.Unmarked ∨ p' = .scanning := by
  cases h with
  | @mark exc c c' _ _ hc =>
    cases hc with
    | read | write | refused | reread | failRead | failWrite | failWritten | failReread =>
      exact Or.inl trivial
  | marked => exact Or.inr rfl
  | _ => exact Or.inl trivial

theorem PlacementStep.unrecorded (h : PlacementStep Finds Answers Sees row p e row' p')
    (hp' : p'.Unrecorded) : p.Unrecorded ∨ p' = .raised ∨ ∃ r, p' = .recorded r := by
  cases h with
  | record => exact absurd hp' id
  | recorded => exact Or.inr (Or.inr ⟨_, rfl⟩)
  | illegal => exact Or.inr (Or.inl rfl)
  | _ => exact Or.inl trivial

/-- A response comes from a lookup or from the answer of the call. -/
theorem PlacementStep.response_cases {r : OrderResponse}
    (h : PlacementStep Finds Answers Sees row p e row' p') (hr : p'.response = some r) :
    p.response = some r ∨ (r ∈ p'.shown ∧ Finds (some r)) ∨
      (p = .placing ∧ Answers (.accepted r)) := by
  cases h with
  | find ho | scan ho =>
    obtain rfl : _ = some r := hr
    exact Or.inr (Or.inl ⟨List.mem_singleton_self r, ho⟩)
  | @answer a ha =>
    cases a with
    | accepted r' =>
      cases hr
      exact Or.inr (Or.inr ⟨rfl, ha⟩)
    | _ => cases hr
  | hit | accepted | recovered | record | recorded => exact Or.inl hr
  | _ => cases hr

/-- A recovery never gets back to `place_order`. -/
theorem PlacementStep.rescan (h : PlacementStep Finds Answers Sees row p e row' p')
    (hp : p.Rescan) : (p'.Rescan ∨ p' = .raised ∨ ∃ r, p' = .recorded r) ∧ e ≠ .place := by
  cases h with
  | scan | recovered | record => exact ⟨Or.inl trivial, nofun⟩
  | unresolved | illegal | scanFails => exact ⟨Or.inr (Or.inl rfl), nofun⟩
  | recorded => exact ⟨Or.inr (Or.inr ⟨_, rfl⟩), nofun⟩
  | _ => exact absurd hp id

/-- A placement raises before it has a response, or when the record of it raises. -/
theorem PlacementStep.raised_rescan (h : PlacementStep Finds Answers Sees row p e row' .raised)
    (hp : p.Rescan) (hr : p.response = none) : e = .fail ∨ p = .scanned none := by
  cases h with
  | unresolved => exact Or.inr rfl
  | scanFails => exact Or.inl rfl
  | illegal => cases hr
  | rejected | findFails | limiterFails => exact absurd hp id

/-- A recovery writes the row only with a response that a lookup has shown. -/
theorem PlacementStep.rescan_row
    (h : PlacementStep Finds Answers Sees row p e row' p') (hp : p.Rescan) :
    row' = row ∨ ∃ r, p.response = some r ∧ row' = (recordOrder r).set row := by
  obtain hrow | ⟨_, _, rfl, _⟩ | ⟨_, rfl, _⟩ | ⟨r, _, hr, _, hrow⟩ := h.row_cases
  · exact Or.inl hrow
  · obtain h | h | ⟨_, h⟩ := (h.rescan hp).1 <;> cases h
  · obtain h | h | ⟨_, h⟩ := (h.rescan hp).1 <;> cases h
  · exact Or.inr ⟨r, hr, hrow⟩

end Steps

/-- A placement that may still call the broker or mark the row. -/
def AckPhase.Armed : AckPhase → Prop
  | placing _ p => p.Unmarked
  | _ => False

theorem AckPhase.Armed.busy {p : AckPhase} (h : p.Armed) : p.Busy := by
  cases p with
  | placing | recovering | failing => trivial
  | _ => exact h

namespace AckWorld
variable {w w' : AckWorld ι} {ev : ι × AckEvent} {i : ι} {protective : Bool}

/-- What a task in this phase may rely on. -/
def Good (w : AckWorld ι) : AckPhase → Prop
  | .placing _ p => (∀ r, p.response = some r → r.Translated) ∧
    (p.Unmarked → (∀ r ∈ w.past, r.status ≠ .ackUnknown) ∧
      (p.Unrecorded → ∀ r ∈ w.past, ¬ r.HasBrokerOrderId))
  | .recovering _ p => p.Rescan ∧ ∀ r, p.response = some r → r.Translated ∧ r ∈ w.found
  | .failing _ => w.row.status ≠ .ackUnknown
  | .settling s _ => s.newStatus ≠ .ackUnknown ∧ s.brokerOrderId = none
  | .byBrokerId s _ => s.newStatus ≠ .ackUnknown ∧ ∃ r ∈ w.past, r.HasBrokerOrderId
  | _ => True

structure Sound (w : AckWorld ι) : Prop where
  current : w.row ∈ w.past
  good : ∀ i, Good w (w.phase i)
  alone : ∀ i j, (w.phase i).Armed → (w.phase j).Busy → j = i
  untraced : w.row.status = .ackUnknown → ∀ r ∈ w.past, ¬ r.HasBrokerOrderId

theorem start_sound : Sound (start : AckWorld ι) where
  current := List.mem_singleton_self _
  good _ := trivial
  alone _ _ h := absurd h id
  untraced h := OrderStatus.noConfusion h

/-- What a step does to the row: nothing; a status other than ACK_UNKNOWN, with a broker
order id only if there was one or nobody is armed; or the mark of the one busy task. -/
inductive RowMove (w : AckWorld ι) (i : ι) (row : OrderRow) : Prop
  | same : row = w.row → RowMove w i row
  | known : row.status ≠ .ackUnknown →
      (row.HasBrokerOrderId → (∃ r ∈ w.past, r.HasBrokerOrderId) ∨
        ∀ j, j ≠ i → ¬ (w.phase j).Armed) → RowMove w i row
  | marked : (∀ j, j ≠ i → ¬ (w.phase j).Busy) → (∀ r ∈ row :: w.past, ¬ r.HasBrokerOrderId) →
      RowMove w i row

theorem Sound.good_setRow (h : Sound w) {row : OrderRow} {shown : List OrderResponse}
    (hrow : RowMove w i row) {j : ι} (hj : j ≠ i) : Good (w.setRow row shown) (w.phase j) := by
  have hgood := h.good j
  cases hp : w.phase j with
  | placing stop p =>
    rw [hp] at hgood
    refine ⟨hgood.1, fun hopen => ?_⟩
    have harmed : (w.phase j).Armed := by
      rw [hp]
      exact hopen
    obtain ⟨hstatus, hids⟩ := hgood.2 hopen
    cases hrow with
    | same he =>
      have hmem : ∀ r ∈ row :: w.past, r ∈ w.past :=
        List.forall_mem_cons.mpr ⟨he ▸ h.current, fun _ hr => hr⟩
      exact ⟨fun r hr => hstatus r (hmem r hr), fun hun r hr => hids hun r (hmem r hr)⟩
    | known hne hid =>
      refine ⟨List.forall_mem_cons.mpr ⟨hne, hstatus⟩, fun hun => List.forall_mem_cons.mpr
        ⟨fun hhas => ?_, hids hun⟩⟩
      obtain ⟨r, hr, hold⟩ | hnone := hid hhas
      · exact hids hun r hr hold
      · exact hnone j hj harmed
    | marked hidle _ => exact absurd harmed.busy (hidle j hj)
  | recovering stop p =>
    rw [hp] at hgood
    exact ⟨hgood.1, fun r hr => ⟨(hgood.2 r hr).1, List.mem_append_right _ (hgood.2 r hr).2⟩⟩
  | failing c =>
    rw [hp] at hgood
    cases hrow with
    | same he => exact fun hack => hgood (he ▸ hack)
    | known hne _ => exact hne
    | marked hidle _ =>
      refine absurd ?_ (hidle j hj)
      rw [hp]
      trivial
  | byBrokerId s c =>
    rw [hp] at hgood
    obtain ⟨hs, r, hr, hid⟩ := hgood
    exact ⟨hs, r, List.mem_cons_of_mem _ hr, hid⟩
  | settling s c =>
    rw [hp] at hgood
    exact hgood
  | idle | done => trivial

variable [DecidableEq ι]

/-- A task takes up a phase that the others leave room for. -/
theorem Sound.of_others {p : AckPhase} (hcurrent : w.row ∈ w.past)
    (huntraced : w.row.status = .ackUnknown → ∀ r ∈ w.past, ¬ r.HasBrokerOrderId)
    (hothers : ∀ j, j ≠ i → Good w (w.phase j))
    (halone : ∀ a b, (w.phase a).Armed → (w.phase b).Busy → b = a) (hgood : Good w p)
    (harmed : p.Armed → ∀ j, j ≠ i → ¬ (w.phase j).Busy)
    (hbusy : p.Busy → (w.phase i).Busy ∨ ∀ j, j ≠ i → ¬ (w.phase j).Armed) :
    Sound (w.setPhase i p) where
  current := hcurrent
  good := (Function.forall_update_iff w.phase fun _ p => Good w p).mpr ⟨hgood, hothers⟩
  alone := by
    intro a b ha hb
    change (Function.update w.phase i p a).Armed at ha
    change (Function.update w.phase i p b).Busy at hb
    by_cases hai : a = i
    · subst hai
      rw [Function.update_self] at ha
      by_contra hba
      rw [Function.update_of_ne hba] at hb
      exact harmed ha b hba hb
    · rw [Function.update_of_ne hai] at ha
      by_cases hbi : b = i
      · subst hbi
        rw [Function.update_self] at hb
        obtain hold | hnone := hbusy hb
        · exact halone a b ha hold
        · exact absurd ha (hnone a hai)
      · rw [Function.update_of_ne hbi] at hb
        exact halone a b ha hb
  untraced := huntraced

theorem Sound.setPhase (h : Sound w) {p : AckPhase} (hgood : Good w p)
    (harmed : p.Armed → ∀ j, j ≠ i → ¬ (w.phase j).Busy)
    (hbusy : p.Busy → ∀ j, j ≠ i → ¬ (w.phase j).Armed) : Sound (w.setPhase i p) :=
  Sound.of_others h.current h.untraced (fun j _ => h.good j) h.alone hgood harmed
    fun hp => Or.inr (hbusy hp)

theorem Sound.move (h : Sound w) {row : OrderRow} {shown : List OrderResponse} {p : AckPhase}
    (hrow : RowMove w i row) (hgood : Good (w.setRow row shown) p)
    (harmed : p.Armed → ∀ j, j ≠ i → ¬ (w.phase j).Busy) (hbusy : p.Busy → (w.phase i).Busy) :
    Sound ((w.setRow row shown).setPhase i p) := by
  refine Sound.of_others List.mem_cons_self ?_ (fun j hj => h.good_setRow hrow hj) h.alone hgood
    harmed fun hp => Or.inl (hbusy hp)
  intro hack
  cases hrow with
  | same he =>
    subst he
    exact List.forall_mem_cons.mpr ⟨h.untraced hack _ h.current, h.untraced hack⟩
  | known hne _ => exact absurd hack hne
  | marked _ hids => exact hids

omit [DecidableEq ι] in
theorem Sound.others_idle (h : Sound w) (hi : (w.phase i).Armed) :
    ∀ j, j ≠ i → ¬ (w.phase j).Busy := fun j hj hb => hj (h.alone i j hi hb)

omit [DecidableEq ι] in
theorem Sound.none_armed (h : Sound w) (hi : (w.phase i).Busy) :
    ∀ j, j ≠ i → ¬ (w.phase j).Armed := fun j hj ha => hj (h.alone j i ha hi).symm

end AckWorld

namespace AckPhase

/-- The ways on from a placement step. -/
theorem after_cases (here : Placement → AckPhase) (stop : Bool) (p p' : Placement) :
    (p' = .raised ∧ stop = true ∧ p.response = none ∧
      after here stop p p' = .failing stopFailureWrite.start) ∨
    after here stop p p' = .done ∨
    (p' = .scanning ∧ after here stop p p' = .recovering stop .scanning) ∨
    (p'.Going ∧ after here stop p p' = here p') := by
  cases p' with
  | raised =>
    by_cases h : stop = true ∧ p.response = none
    · exact Or.inl ⟨rfl, h.1, h.2, if_pos h⟩
    · exact Or.inr (Or.inl (if_neg h))
  | recorded r => exact Or.inr (Or.inl rfl)
  | scanning => exact Or.inr (Or.inr (Or.inl ⟨rfl, rfl⟩))
  | _ => exact Or.inr (Or.inr (Or.inr ⟨trivial, rfl⟩))

theorem ofCall_cases (here : CallPhase → AckPhase) (c : CallPhase) :
    ofCall here c = .done ∨ ofCall here c = here c := by
  cases c with
  | returned ok => exact Or.inl rfl
  | _ => exact Or.inr rfl

end AckPhase

namespace AckWorld
variable {w w' : AckWorld ι} {ev : ι × AckEvent} {i : ι} {protective : Bool} {stop : Bool}
  {p p' : Placement} {e : PlacementEvent} {row : OrderRow}

theorem Sound.placing_row (h : Sound w) (hi : w.phase i = .placing stop p)
    (hstep : PlacementStep Finds Answers w.Sees w.row p e row p') : RowMove w i row := by
  have hgood := h.good i
  rw [hi] at hgood
  obtain rfl | ⟨exc, ok, rfl, hun, hunrec, rfl⟩ | ⟨ok, rfl, rfl⟩ | ⟨r, ok, hr, rfl, rfl⟩ :=
    hstep.row_cases
  · exact .same rfl
  · have hids := (hgood.2 hun).2 hunrec
    refine .marked (h.others_idle (by rw [hi]; exact hun)) (List.forall_mem_cons.mpr ⟨?_, hids⟩)
    rw [StatusWrite.hasBrokerOrderId_set rfl]
    exact hids _ h.current
  · exact .known nofun fun hid => Or.inl
      ⟨_, h.current, (StatusWrite.hasBrokerOrderId_set rfl).mp hid⟩
  · exact .known (hgood.1 r hr) fun _ => Or.inr (h.none_armed (by rw [hi]; trivial))

theorem Sound.placing_good (h : Sound w) (hi : w.phase i = .placing stop p)
    (hstep : PlacementStep Finds Answers w.Sees w.row p e row p') :
    Good (w.setRow row p'.shown) (.after (.placing stop) stop p p') := by
  have hgood := h.good i
  rw [hi] at hgood
  obtain ⟨rfl, _, _, ha⟩ | ha | ⟨_, ha⟩ | ⟨hgo, ha⟩ :=
    AckPhase.after_cases (.placing stop) stop p p'
  · rw [ha]
    have hun : p.Unmarked := (hstep.unmarked trivial).resolve_right nofun
    obtain rfl | ⟨_, _, hp', _⟩ | ⟨_, hp', _⟩ | ⟨_, _, _, hp', _⟩ := hstep.row_cases
    · exact (hgood.2 hun).1 _ h.current
    · cases hp'
    · cases hp'
    · cases hp'
  · rw [ha]
    trivial
  · rw [ha]
    exact ⟨trivial, nofun⟩
  · obtain ⟨hraised, hrecorded, hscan⟩ := hgo.ne
    rw [ha]
    refine ⟨fun r hr => ?_, fun hun' => ?_⟩
    · obtain hr | ⟨_, hf⟩ | ⟨_, hans⟩ := hstep.response_cases hr
      · exact hgood.1 r hr
      · exact hf r rfl
      · exact hans r rfl
    · have hun : p.Unmarked := (hstep.unmarked hun').resolve_right hscan
      obtain ⟨hstatus, hids⟩ := hgood.2 hun
      obtain rfl | ⟨_, _, rfl, _⟩ | ⟨_, rfl, rfl⟩ | ⟨r, _, hr, rfl, rfl⟩ := hstep.row_cases
      · refine ⟨List.forall_mem_cons.mpr ⟨hstatus _ h.current, hstatus⟩, fun hunrec' => ?_⟩
        have hunrec : p.Unrecorded := (hstep.unrecorded hunrec').resolve_right
          fun hor => hor.elim hraised fun ⟨r, hr⟩ => hrecorded r hr
        exact List.forall_mem_cons.mpr ⟨hids hunrec _ h.current, hids hunrec⟩
      · exact absurd hun' id
      · refine ⟨List.forall_mem_cons.mpr ⟨nofun, hstatus⟩, fun hunrec' => ?_⟩
        have hunrec : p.Unrecorded := (hstep.unrecorded hunrec').resolve_right
          fun hor => hor.elim hraised fun ⟨r, hr⟩ => hrecorded r hr
        refine List.forall_mem_cons.mpr ⟨?_, hids hunrec⟩
        rw [StatusWrite.hasBrokerOrderId_set rfl]
        exact hids hunrec _ h.current
      · exact ⟨List.forall_mem_cons.mpr ⟨hgood.1 r hr, hstatus⟩, fun hunrec' => absurd hunrec' id⟩

theorem Sound.recovering_row (h : Sound w) (hi : w.phase i = .recovering stop p)
    (hstep : PlacementStep Finds Answers w.Sees w.row p e row p') : RowMove w i row := by
  have hgood := h.good i
  rw [hi] at hgood
  obtain rfl | ⟨r, hr, rfl⟩ := hstep.rescan_row hgood.1
  · exact .same rfl
  · exact .known (hgood.2 r hr).1 fun _ => Or.inr (h.none_armed (by rw [hi]; trivial))

theorem Sound.recovering_good (h : Sound w) (hi : w.phase i = .recovering stop p)
    (hok : Orderly w (i, .placement e))
    (hstep : PlacementStep Finds Answers w.Sees w.row p e row p') :
    Good (w.setRow row p'.shown) (.after (.recovering stop) stop p p') := by
  have hgood := h.good i
  rw [hi] at hgood
  obtain ⟨rfl, rfl, hnone, ha⟩ | ha | ⟨_, ha⟩ | ⟨hgo, ha⟩ :=
    AckPhase.after_cases (.recovering stop) stop p p'
  · rw [ha]
    have hne := hok ⟨p, hi, hstep.raised_rescan hgood.1 hnone⟩
    obtain rfl | ⟨r, hr, _⟩ := hstep.rescan_row hgood.1
    · exact hne
    · cases hnone.symm.trans hr
  · rw [ha]
    trivial
  · rw [ha]
    exact ⟨trivial, nofun⟩
  · obtain ⟨hraised, hrecorded, _⟩ := hgo.ne
    rw [ha]
    refine ⟨(hstep.rescan hgood.1).1.resolve_right fun hor => hor.elim hraised fun ⟨r, hr⟩ =>
      hrecorded r hr, fun r hr => ?_⟩
    obtain hr | ⟨hmem, hf⟩ | ⟨rfl, _⟩ := hstep.response_cases hr
    · exact ⟨(hgood.2 r hr).1, List.mem_append_right _ (hgood.2 r hr).2⟩
    · exact ⟨hf r rfl, List.mem_append_left _ hmem⟩
    · exact absurd hgood.1 id

variable [DecidableEq ι]

/-- Nobody is armed once the row has been ACK_UNKNOWN. -/
theorem Sound.recover_step (h : Sound w) {stored : OrderRow} (hmem : stored ∈ w.past)
    (hack : stored.status = .ackUnknown) :
    Sound (w.setPhase i (.recovering false .scanning)) := by
  refine h.setPhase ⟨trivial, nofun⟩ (fun ha => absurd ha id) fun _ j _ ha => ?_
  have hgood := h.good j
  cases hp : w.phase j with
  | placing stop p =>
    rw [hp] at hgood ha
    exact (hgood.2 ha).1 stored hmem hack
  | _ =>
    rw [hp] at ha
    exact ha

theorem Sound.placing_step (h : Sound w) {stop : Bool} {p p' : Placement} {e : PlacementEvent}
    {row : OrderRow} (hi : w.phase i = .placing stop p)
    (hstep : PlacementStep Finds Answers w.Sees w.row p e row p') :
    Sound ((w.setRow row p'.shown).setPhase i (.after (.placing stop) stop p p')) := by
  refine h.move (h.placing_row hi hstep) (h.placing_good hi hstep) (fun ha => ?_)
    fun _ => by rw [hi]; trivial
  refine h.others_idle ?_
  rw [hi]
  obtain ⟨_, _, _, he⟩ | he | ⟨_, he⟩ | ⟨hgo, he⟩ :=
    AckPhase.after_cases (.placing stop) stop p p'
  · rw [he] at ha
    exact absurd ha id
  · rw [he] at ha
    exact absurd ha id
  · rw [he] at ha
    exact absurd ha id
  · rw [he] at ha
    exact (hstep.unmarked ha).resolve_right hgo.ne.2.2

/-- A status write ends, or goes on in the same phase. -/
theorem Sound.after_call (h : Sound w) {here : CallPhase → AckPhase} {c : CallPhase}
    {row : OrderRow} (hrow : RowMove w i row) (hgood : Good (w.setRow row []) (here c))
    (harmed : ¬ (here c).Armed) (hbusy : (here c).Busy → (w.phase i).Busy) :
    Sound ((w.setRow row []).setPhase i (.ofCall here c)) := by
  obtain he | he := AckPhase.ofCall_cases here c
  · rw [he]
    exact h.move hrow trivial (fun ha => absurd ha id) fun hb => absurd hb id
  · rw [he]
    exact h.move hrow hgood (fun ha => absurd ha harmed) hbusy

theorem Sound.failing_step (h : Sound w) {c c' : CallPhase} {e : CallEvent} {row : OrderRow}
    (hi : w.phase i = .failing c) (hcall : CallStep w.Sees stopFailureWrite w.row c e row c') :
    Sound ((w.setRow row []).setPhase i (.ofCall .failing c')) := by
  have hgood := h.good i
  rw [hi] at hgood
  have hne : row.status ≠ .ackUnknown := by
    obtain rfl | ⟨rfl, _⟩ := hcall.set_cases
    · exact hgood
    · exact nofun
  have hrow : RowMove w i row := .known hne fun hid => Or.inl ⟨_, h.current, by
    obtain rfl | ⟨rfl, _⟩ := hcall.set_cases
    · exact hid
    · exact (StatusWrite.hasBrokerOrderId_set rfl).mp hid⟩
  exact h.after_call hrow hne id fun _ => by rw [hi]; trivial

theorem Sound.settling_step (h : Sound w) {s : StatusWrite} {c c' : CallPhase} {e : CallEvent}
    {row : OrderRow} (hi : w.phase i = .settling s c) (hcall : CallStep w.Sees s w.row c e row c') :
    Sound ((w.setRow row []).setPhase i (.ofCall (.settling s) c')) := by
  have hgood := h.good i
  rw [hi] at hgood
  have hrow : RowMove w i row := by
    obtain rfl | ⟨rfl, _⟩ := hcall.set_cases
    · exact .same rfl
    · exact .known hgood.1 fun hid => Or.inl
        ⟨_, h.current, (StatusWrite.hasBrokerOrderId_set hgood.2).mp hid⟩
  exact h.after_call hrow hgood id fun hb => absurd hb id

theorem Sound.byBrokerId_step (h : Sound w) {s : StatusWrite} {c c' : CallPhase} {e : CallEvent}
    {row : OrderRow} (hi : w.phase i = .byBrokerId s c)
    (hcall : CallStep w.Sees s w.row c e row c') :
    Sound ((w.setRow row []).setPhase i (.ofCall (.byBrokerId s) c')) := by
  have hgood := h.good i
  rw [hi] at hgood
  have hrow : RowMove w i row := by
    obtain rfl | ⟨rfl, _⟩ := hcall.set_cases
    · exact .same rfl
    · exact .known hgood.1 fun _ => Or.inl hgood.2
  obtain ⟨r, hr, hid⟩ := hgood.2
  exact h.after_call hrow ⟨hgood.1, r, List.mem_cons_of_mem _ hr, hid⟩ id fun hb => absurd hb id

theorem step_sound (h : Sound w) (hok : Orderly w ev) (hs : Step protective w ev w') :
    Sound w' := by
  cases hs with
  | @arm i stored stop hi _ _ _ =>
    obtain ⟨hpast, hidle⟩ := hok
    refine h.setPhase ⟨nofun, fun _ => ⟨fun r hr hack => ?_, fun _ r hr => (hpast r hr).2⟩⟩
      (fun _ j _ => hidle j) fun _ j _ ha => hidle j ha.busy
    cases (hpast r hr).1.symm.trans hack
  | recover _ hmem hack => exact h.recover_step hmem hack
  | placing hi hstep => exact h.placing_step hi hstep
  | @recovering i stop p p' e row hi hstep =>
    refine h.move (h.recovering_row hi hstep) (h.recovering_good hi hok hstep) (fun ha => ?_)
      fun _ => by rw [hi]; trivial
    obtain ⟨_, _, _, he⟩ | he | ⟨_, he⟩ | ⟨_, he⟩ :=
      AckPhase.after_cases (.recovering stop) stop p p'
    all_goals
      rw [he] at ha
      exact absurd ha id
  | failing hi hcall => exact h.failing_step hi hcall
  | @settle i stored s hi _ _ _ _ hw =>
    refine h.setPhase ?_ (fun ha => absurd ha id) fun hb => absurd hb id
    obtain ⟨reason, rfl⟩ | rfl := hw
    · exact ⟨nofun, rfl⟩
    · exact ⟨nofun, rfl⟩
  | settling hi hcall => exact h.settling_step hi hcall
  | @meet i stored s hi hmem hid hne =>
    exact h.setPhase ⟨hne, stored, hmem, hid⟩ (fun ha => absurd ha id) fun hb => absurd hb id
  | byBrokerId hi hcall => exact h.byBrokerId_step hi hcall
  | crash => exact h.setPhase trivial (fun ha => absurd ha id) fun hb => absurd hb id

omit [DecidableEq ι] in
/-- An armed placement is past no mark. -/
theorem Sound.unmarked_of_armed (h : Sound w) (hi : w.phase i = .placing stop p)
    (hun : p.Unmarked) : ∀ r ∈ w.past, r.status ≠ .ackUnknown := by
  have hgood := h.good i
  rw [hi] at hgood
  exact (hgood.2 hun).1

/-- Once the row has been ACK_UNKNOWN, a step calls no `place_order`, and it takes the row
out of ACK_UNKNOWN only to the status of an order that a lookup has shown. -/
def Recovers (w : AckWorld ι) (ev : ι × AckEvent) (w' : AckWorld ι) : Prop :=
  (∃ r ∈ w.past, r.status = .ackUnknown) → ev.2 ≠ .placement .place ∧
    (w.row.status = .ackUnknown → w'.row.status ≠ .ackUnknown →
      ∃ r ∈ w.found, w'.row.status = r.status)

theorem Sound.recovers (h : Sound w) (hok : Orderly w ev) (hs : Step protective w ev w') :
    Recovers w ev w' := by
  intro ⟨marked, hmem, hmark⟩
  cases hs with
  | @placing i stop p p' e row hi hstep =>
    constructor
    · intro he
      cases he
      obtain ⟨rfl, _, _⟩ := hstep.place_of
      exact h.unmarked_of_armed hi trivial marked hmem hmark
    · intro hack hleft
      exfalso
      have hchanged (hun : p.Unmarked) : False :=
        h.unmarked_of_armed hi hun _ h.current hack
      obtain rfl | ⟨_, _, _, hun, _⟩ | ⟨_, rfl, _⟩ | ⟨_, _, _, rfl, _⟩ := hstep.row_cases
      · exact hleft hack
      · exact hchanged hun
      · exact hchanged ((hstep.unmarked trivial).resolve_right nofun)
      · exact hchanged ((hstep.unmarked trivial).resolve_right nofun)
  | @recovering i stop p p' e row hi hstep =>
    have hgood := h.good i
    rw [hi] at hgood
    refine ⟨fun he => (hstep.rescan hgood.1).2 (AckEvent.placement.inj he), fun hack hleft => ?_⟩
    obtain rfl | ⟨r, hr, rfl⟩ := hstep.rescan_row hgood.1
    · exact absurd hack hleft
    · exact ⟨r, (hgood.2 r hr).2, rfl⟩
  | @failing i c c' e row hi hcall =>
    have hgood := h.good i
    rw [hi] at hgood
    exact ⟨nofun, fun hack _ => absurd hack hgood⟩
  | @settling i s c c' e row hi hcall =>
    refine ⟨nofun, fun hack hleft => ?_⟩
    obtain rfl | ⟨_, _, hlands, _⟩ := hcall.set_cases
    · exact absurd hack hleft
    · exact absurd hack (hok hlands)
  | @byBrokerId i s c c' e row hi hcall =>
    have hgood := h.good i
    rw [hi] at hgood
    obtain ⟨_, r, hr, hid⟩ := hgood
    exact ⟨nofun, fun hack _ => absurd hid (h.untraced hack r hr)⟩
  | arm | recover | settle | meet | crash => exact ⟨nofun, fun hack hleft => absurd hack hleft⟩

/-- In an orderly run an order whose acknowledgement was lost is never placed again, and
only a lookup under its idempotency key brings its row on. -/
theorem ack_unknown_only_recovered
    (hr : Reaches (Step protective) Orderly (start : AckWorld ι) w) (hok : Orderly w ev)
    (hs : Step protective w ev w') : Recovers w ev w' :=
  (hr.invariant (fun _ _ _ hI ho hst => step_sound hI ho hst) start_sound).recovers hok hs

/-- The answer to the placement is lost, the row marked, and the scan has begun. -/
theorem marked_reaches (protective stop : Bool) (hstop : stop = true → protective = true)
    (ok : AckWorld Unit → Unit × AckEvent → Prop) (harm : ok start ((), .arm))
    (hok : ∀ w e p, w.phase () = .placing stop p → ok w ((), .placement e)) :
    ∃ past, (∃ r ∈ past, r.status = .ackUnknown) ∧ ∃ row : OrderRow, row.status = .ackUnknown ∧
      row ∈ past ∧ Reaches (Step protective) ok start
        (⟨row, past, fun _ => .recovering stop .scanning, []⟩ : AckWorld Unit) := by
  have hstep : Step protective (start : AckWorld Unit) ((), .arm)
      (start.setPhase () (.placing stop .finding)) := .arm rfl List.mem_cons_self rfl hstop
  have h1 : Reaches (Step protective) ok (start : AckWorld Unit) _ := Reaches.next .refl harm hstep
  have h2 := h1.next (hok _ _ _ rfl) (.placing rfl (.find (o := none) nofun))
  have h3 := h2.next (hok _ _ _ rfl) (.placing rfl .miss)
  have h4 := h3.next (hok _ _ _ rfl) (.placing rfl .place)
  have h5 := h4.next (hok _ _ _ rfl) (.placing rfl (.answer (a := .unknown "timeout") nofun))
  have h6 := h5.next (hok _ _ _ rfl) (.placing rfl .unknown)
  have h7 := h6.next (hok _ _ _ rfl)
    (.placing rfl (.mark (.read .pending ⟨.reserved, List.mem_cons_self, rfl⟩)))
  have h8 := h7.next (hok _ _ _ rfl) (.placing rfl (.mark (.write rfl)))
  have h9 := h8.next (hok _ _ _ rfl) (.placing rfl .marked)
  exact ⟨_, ⟨_, List.mem_cons_self, rfl⟩, _, rfl, List.mem_cons_self, h9⟩

def filledResponse : OrderResponse :=
  { brokerOrderId := "B1", status := .filled, filledQuantity := 10, avgFillPrice := 100 }

/-- The scan finds the order filled, and the row becomes FILLED. -/
theorem ack_unknown_only_recovered_filled :
    ∃ (w w' : AckWorld Unit) (ev : Unit × AckEvent), w.row.status = .ackUnknown ∧
      w'.row.status = .filled ∧ Recovers w ev w' := by
  have hplace (w : AckWorld Unit) (e : PlacementEvent) (p : Placement)
      (h : w.phase () = .placing false p) : Orderly w ((), .placement e) :=
    fun ⟨_, hp, _⟩ => AckPhase.noConfusion (h.symm.trans hp)
  have hscan (w : AckWorld Unit) (e : PlacementEvent) (p : Placement)
      (h : w.phase () = .recovering false p) : Orderly w ((), .placement e) :=
    fun ⟨_, hp, _⟩ => Bool.noConfusion (AckPhase.recovering.inj (h.symm.trans hp)).1
  have hstart : Orderly (start : AckWorld Unit) ((), .arm) := by
    refine ⟨fun r hr => ?_, fun _ hb => hb⟩
    rw [List.mem_singleton.mp hr]
    exact ⟨rfl, fun h => h rfl⟩
  obtain ⟨past, ⟨r, hr, hack⟩, row, hrow, _, h⟩ :=
    marked_reaches false false nofun Orderly hstart hplace
  have h1 := h.next (hscan _ _ _ rfl) (.recovering (i := ()) rfl
    (.scan (o := some filledResponse) fun r' hr' => by cases hr'; exact nofun))
  have h2 := h1.next (hscan _ _ _ rfl) (.recovering (i := ()) rfl .recovered)
  have h3 := h2.next (hscan _ _ _ rfl) (.recovering (i := ()) rfl (.record (.read .ackUnknown
    ⟨r, List.mem_cons_of_mem _ (List.mem_cons_of_mem _ hr), hack⟩)))
  exact ⟨_, _, _, hrow, rfl, ack_unknown_only_recovered h3 (hscan _ _ _ rfl)
    (.recovering (i := ()) rfl (.record (.write hrow)))⟩

/-- The scan for a protective stop finds nothing yet, and the failure path rejects the row. -/
theorem unconfirmed_stop_rejected :
    ¬ ∀ (w w' : AckWorld Unit) (ev : Unit × AckEvent),
      Reaches (Step true) (fun _ _ => True) start w → Step true w ev w' → Recovers w ev w' := by
  intro hall
  obtain ⟨past, ⟨r, hr, hack⟩, row, hrow, _, h⟩ :=
    marked_reaches true true (fun _ => rfl) (fun _ _ => True) trivial fun _ _ _ _ => trivial
  have h1 := h.next trivial (.recovering (i := ()) rfl (.scan (o := none) nofun))
  have h2 := h1.next trivial (.recovering (i := ()) rfl .unresolved)
  have hseen : ∃ x ∈ row :: row :: past, x.status = .ackUnknown := ⟨row, List.mem_cons_self, hrow⟩
  have h3 := h2.next trivial (.failing (i := ()) rfl (.read .ackUnknown hseen))
  obtain ⟨x, hx, _⟩ := (hall _ _ _ h3 (.failing (i := ()) rfl (.write hrow))
    ⟨row, List.mem_cons_self, hrow⟩).2 hrow nofun
  cases hx

end AckWorld
end QuantEmbrace
