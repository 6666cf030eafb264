import QuantEmbrace.Lib.GuardedRun
import QuantEmbrace.Lib.Journal
import QuantEmbrace.Lib.Role

/-! Reserve, publish and mark of an approval. The world is that of one `signal_id`: its
reservation row, any number of deliveries in either loop of any process, and the records
handed to the producers. -/
namespace QuantEmbrace
open GuardedRun Journal
variable {ι : Type*}

inductive RiskDecisionStatus where
  | APPROVED
  | REJECTED
  deriving DecidableEq, Repr

structure RiskDecision where
  riskDecisionId : String
  status : RiskDecisionStatus
  deriving DecidableEq, Repr

/-- The `publish_status` of a row; rows written before the attribute existed have none. -/
inductive PublishStatus where
  | absent
  | PENDING
  | PUBLISHED
  | unknown (value : String)
  deriving DecidableEq, Repr

structure Reservation where
  riskDecisionId : String
  publishStatus : PublishStatus
  deriving DecidableEq, Repr

/-- What a delivery does about a reservation it reads. -/
inductive Replay where
  | republish (riskDecisionId : String)
  | suppress
  | raise
  deriving DecidableEq, Repr

inductive RiskLoop where
  | enriched
  | fallback
  deriving DecidableEq, Repr

/-- `_handle_existing_approval_reservation`, of the fallback loop. -/
def handleExistingApprovalReservation (r : Reservation) : Replay :=
  if r.riskDecisionId = "" then .raise
  else match r.publishStatus with
    | .PENDING => .republish r.riskDecisionId
    | .absent => .suppress
    | .PUBLISHED => .suppress
    | .unknown _ => .raise

/-- The enriched loop, after its first read and after a lost conditional put. -/
def replayPending (r : Reservation) : Replay :=
  if r.publishStatus = .PENDING ∧ r.riskDecisionId ≠ "" then .republish r.riskDecisionId
  else .suppress

def RiskLoop.existing : RiskLoop → Reservation → Replay
  | enriched => replayPending
  | fallback => handleExistingApprovalReservation

theorem RiskLoop.existing_republish {l : RiskLoop} {r : Reservation} {i : String}
    (h : l.existing r = .republish i) : r.publishStatus = .PENDING ∧ r.riskDecisionId = i := by
  cases l with
  | enriched =>
    by_cases hr : r.publishStatus = .PENDING ∧ r.riskDecisionId ≠ ""
    · simp only [existing, replayPending, if_pos hr, Replay.republish.injEq] at h
      exact ⟨hr.1, h⟩
    · simp [existing, replayPending, hr] at h
  | fallback =>
    by_cases hr : r.riskDecisionId = ""
    · simp [existing, handleExistingApprovalReservation, hr] at h
    · cases hs : r.publishStatus <;>
        simp_all [existing, handleExistingApprovalReservation]

/-- How a conditional write ends: `retried` is a write that went through and whose automatic
retry then found its condition false; an `unacknowledged` one raises. -/
inductive WriteOutcome where
  | written
  | retried
  | unacknowledged
  | failed
  deriving DecidableEq, Repr

/-- Where one delivery stands. The loops differ in what they make of a row. -/
inductive ApprovalPhase where
  | idle
  | looking (l : RiskLoop)
  | deciding (l : RiskLoop)
  | validating (l : RiskLoop)
  | reserving (l : RiskLoop) (decision : RiskDecision)
  | rereading (l : RiskLoop)
  | publishing (riskDecisionId : String)
  | awaiting (riskDecisionId : String)
  | marking (riskDecisionId : String)
  | ended
  deriving DecidableEq, Repr

/-- The phases in which a delivery is about to publish, or has published, the decision. -/
def ApprovalPhase.Carries : ApprovalPhase → String → Prop
  | publishing i, k => i = k
  | awaiting i, k => i = k
  | marking i, k => i = k
  | _, _ => False

/-- The phases between the kill-switch check and the reservation. -/
def ApprovalPhase.PastCheck : ApprovalPhase → Prop
  | validating _ => True
  | reserving _ _ => True
  | _ => False

inductive ApprovalEntry (ι : Type*) where
  | started (d : ι)
  | passed (d : ι)
  | reserved (d : ι) (decision : RiskDecision)
  | published (d : ι) (riskDecisionId : String)
  | marked
  deriving DecidableEq, Repr

/-- `versions` are the contents the row has had, this one included: a read that is not a
consistent one may return any of them. -/
structure ApprovalWorld (ι : Type*) where
  row : Option Reservation
  versions : List (Option Reservation)
  phase : ι → ApprovalPhase
  sent : List (ι × String) := []
  journal : List (ApprovalEntry ι) := []

inductive ApprovalEvent (ι : Type*) where
  | start (d : ι) (l : RiskLoop)
  | read (d : ι) (response : Option Reservation)
  | check (d : ι) (active : Bool)
  | decide (d : ι) (decision : RiskDecision)
  | reserve (d : ι) (outcome : WriteOutcome)
  | produce (d : ι)
  | append (d : ι) (riskDecisionId : String)
  | acknowledge (d : ι)
  | mark (d : ι) (outcome : WriteOutcome)
  | stop (d : ι)
  deriving DecidableEq, Repr

namespace ApprovalWorld

/-- No delivery yet; the row is absent or, at most, a legacy one. -/
def start (legacy : Option String) : ApprovalWorld ι where
  row := legacy.map fun i => ⟨i, .absent⟩
  versions := [legacy.map fun i => ⟨i, .absent⟩]
  phase := fun _ => .idle

variable [DecidableEq ι] (w : ApprovalWorld ι) (d : ι)

def setPhase (p : ApprovalPhase) : ApprovalWorld ι :=
  { w with phase := Function.update w.phase d p }

def record (e : ApprovalEntry ι) : ApprovalWorld ι :=
  { w with journal := e :: w.journal }

def putRow (r : Reservation) : ApprovalWorld ι :=
  { w with row := some r, versions := some r :: w.versions }

def replay : Replay → ApprovalWorld ι
  | .republish i => w.setPhase d (.publishing i)
  | .suppress => w.setPhase d .ended
  | .raise => w.setPhase d .ended

/-- What follows `_get_risk_decision_reservation`. -/
def getRiskDecisionReservation (response : Option Reservation) : ApprovalWorld ι :=
  match w.phase d, response with
  | .looking l, none => w.setPhase d (.deciding l)
  | .looking l, some r => w.replay d (l.existing r)
  | .rereading _, none => w.setPhase d .ended
  | .rereading l, some r => w.replay d (l.existing r)
  | _, _ => w

/-- `_reserve_risk_decision`, put with `attribute_not_exists(PK)`. -/
def reserveRiskDecision (l : RiskLoop) (decision : RiskDecision) (outcome : WriteOutcome) :
    ApprovalWorld ι :=
  let written := (w.putRow ⟨decision.riskDecisionId, .PENDING⟩).record (.reserved d decision)
  match w.row, outcome with
  | _, .failed => w.setPhase d .ended
  | none, .written => written.setPhase d (.publishing decision.riskDecisionId)
  | none, .retried => written.setPhase d (.rereading l)
  | none, .unacknowledged => written.setPhase d .ended
  | some _, .unacknowledged => w.setPhase d .ended
  | some _, _ => w.setPhase d (.rereading l)

/-- `_mark_risk_decision_published`, an update on a row with the same decision. -/
def markRiskDecisionPublished (i : String) (outcome : WriteOutcome) : ApprovalWorld ι :=
  match w.row with
  | none => w.setPhase d .ended
  | some r =>
    if r.riskDecisionId = i ∧ outcome ≠ .failed then
      ((w.putRow { r with publishStatus := .PUBLISHED }).record .marked).setPhase d .ended
    else w.setPhase d .ended

/-- One step. `stop` is an exception, a rejection, an expiry or a crash; a record handed to the
producer can reach the topic at any later time, whatever has become of its delivery. -/
def next (w : ApprovalWorld ι) : ApprovalEvent ι → ApprovalWorld ι
  | .start d l =>
    if w.phase d = .idle then (w.record (.started d)).setPhase d (.looking l) else w
  | .read d response =>
    if response ∈ w.versions then w.getRiskDecisionReservation d response else w
  | .check d active =>
    match w.phase d with
    | .deciding l =>
      if active then w.setPhase d .ended
      else (w.record (.passed d)).setPhase d (.validating l)
    | _ => w
  | .decide d decision =>
    match w.phase d with
    | .validating l =>
      if decision.status = .APPROVED then w.setPhase d (.reserving l decision)
      else w.setPhase d .ended
    | _ => w
  | .reserve d outcome =>
    match w.phase d with
    | .reserving l decision => w.reserveRiskDecision d l decision outcome
    | _ => w
  | .produce d =>
    match w.phase d with
    | .publishing i => { w with sent := (d, i) :: w.sent }.setPhase d (.awaiting i)
    | _ => w
  | .append d i =>
    if (d, i) ∈ w.sent then { w with sent := w.sent.erase (d, i) }.record (.published d i) else w
  | .acknowledge d =>
    match w.phase d with
    | .awaiting i =>
      if .published d i ∈ w.journal then w.setPhase d (.marking i) else w
    | _ => w
  | .mark d outcome =>
    match w.phase d with
    | .marking i => w.markRiskDecisionPublished d i outcome
    | _ => w
  | .stop d => w.setPhase d .ended

/-- An approved decision with this id has been reserved. -/
def Backed (journal : List (ApprovalEntry ι)) (i : String) : Prop :=
  ∃ d decision, .reserved d decision ∈ journal ∧ decision.status = .APPROVED ∧
    decision.riskDecisionId = i

/-- The delivery started when the row had been marked. -/
def Late (journal : List (ApprovalEntry ι)) (d : ι) : Prop :=
  After (.started d) .marked journal

instance (journal : List (ApprovalEntry ι)) (d : ι) : Decidable (Late journal d) :=
  inferInstanceAs (Decidable (After _ _ _))

def BackedEntry (older : List (ApprovalEntry ι)) : ApprovalEntry ι → Prop
  | .published _ i => Backed older i
  | _ => True

def TimelyEntry (older : List (ApprovalEntry ι)) : ApprovalEntry ι → Prop
  | .published d _ => ¬ Late older d
  | _ => True

omit [DecidableEq ι] in
theorem Backed.cons {journal : List (ApprovalEntry ι)} {i : String} (h : Backed journal i)
    (e : ApprovalEntry ι) : Backed (e :: journal) i := by
  obtain ⟨d, decision, hmem, happ, hid⟩ := h
  exact ⟨d, decision, List.mem_cons_of_mem e hmem, happ, hid⟩

/-- What a step does; `K` holds of the deliveries that may take up a pending row, `C` of those
that may pass the kill-switch check. -/
inductive Move (K C : ι → Prop) (w : ApprovalWorld ι) : ApprovalWorld ι → Prop
  | rest : Move K C w w
  | start (d l) (h : w.phase d = .idle) :
      Move K C w ((w.record (.started d)).setPhase d (.looking l))
  | pass (d l) (hc : C d) : Move K C w ((w.record (.passed d)).setPhase d (.validating l))
  | advance (d p) (hidle : p ≠ .idle) (hcar : ∀ i, p.Carries i → (w.phase d).Carries i)
      (hcheck : p.PastCheck → (w.phase d).PastCheck)
      (happ : ∀ l decision, p = .reserving l decision → decision.status = .APPROVED) :
      Move K C w (w.setPhase d p)
  | found (d r) (hmem : some r ∈ w.versions) (hr : r.publishStatus = .PENDING) (hk : K d) :
      Move K C w (w.setPhase d (.publishing r.riskDecisionId))
  | reserve (d l decision p) (hrow : w.row = none) (h : w.phase d = .reserving l decision)
      (hp : p = .publishing decision.riskDecisionId ∨ p = .rereading l ∨ p = .ended) :
      Move K C w (((w.putRow ⟨decision.riskDecisionId, .PENDING⟩).record
        (.reserved d decision)).setPhase d p)
  | produce (d i) (h : w.phase d = .publishing i) :
      Move K C w ({ w with sent := (d, i) :: w.sent }.setPhase d (.awaiting i))
  | append (d i) (h : (d, i) ∈ w.sent) :
      Move K C w ({ w with sent := w.sent.erase (d, i) }.record (.published d i))
  | mark (d r) (hrow : w.row = some r) :
      Move K C w (((w.putRow { r with publishStatus := .PUBLISHED }).record .marked).setPhase d
        .ended)

theorem move_ended {K C : ι → Prop} : Move K C w (w.setPhase d .ended) :=
  .advance d .ended (by simp) (fun _ h => h.elim) (fun h => h.elim) (by simp)

theorem replay_move {K C : ι → Prop} (l : RiskLoop) (r : Reservation) (hmem : some r ∈ w.versions)
    (hK : r.publishStatus = .PENDING → K d) : Move K C w (w.replay d (l.existing r)) := by
  cases h : l.existing r with
  | republish i =>
    obtain ⟨hr, rfl⟩ := RiskLoop.existing_republish h
    exact .found d r hmem hr (hK hr)
  | suppress => exact w.move_ended d
  | raise => exact w.move_ended d

theorem getRiskDecisionReservation_move {K C : ι → Prop} (response : Option Reservation)
    (hmem : response ∈ w.versions)
    (hK : ∀ r, response = some r → r.publishStatus = .PENDING → K d) :
    Move K C w (w.getRiskDecisionReservation d response) := by
  unfold getRiskDecisionReservation
  split
  · next l _ =>
    exact .advance d (.deciding l) (by simp) (fun _ h => h.elim) (fun h => h.elim) (by simp)
  · next l r _ => exact w.replay_move d l r hmem (hK r rfl)
  · exact w.move_ended d
  · next l r _ => exact w.replay_move d l r hmem (hK r rfl)
  · exact .rest

theorem reserveRiskDecision_move {K C : ι → Prop} {l : RiskLoop} {decision : RiskDecision}
    (h : w.phase d = .reserving l decision) (outcome : WriteOutcome) :
    Move K C w (w.reserveRiskDecision d l decision outcome) := by
  have hre : Move K C w (w.setPhase d (.rereading l)) :=
    .advance d (.rereading l) (by simp) (fun _ h => h.elim) (fun h => h.elim) (by simp)
  unfold reserveRiskDecision
  cases hrow : w.row with
  | none =>
    cases outcome with
    | written => exact .reserve d l decision _ hrow h (by simp)
    | retried => exact .reserve d l decision _ hrow h (by simp)
    | unacknowledged => exact .reserve d l decision _ hrow h (by simp)
    | failed => exact w.move_ended d
  | some r =>
    cases outcome with
    | written => exact hre
    | retried => exact hre
    | unacknowledged => exact w.move_ended d
    | failed => exact w.move_ended d

theorem markRiskDecisionPublished_move {K C : ι → Prop} (i : String) (outcome : WriteOutcome) :
    Move K C w (w.markRiskDecisionPublished d i outcome) := by
  unfold markRiskDecisionPublished
  cases hrow : w.row with
  | none => exact w.move_ended d
  | some r =>
    dsimp only
    split
    · exact .mark d r hrow
    · exact w.move_ended d

theorem next_move {K C : ι → Prop} {e : ApprovalEvent ι}
    (hK : ∀ d r, e = .read d (some r) → r.publishStatus = .PENDING → K d)
    (hC : ∀ d, e = .check d false → C d) : Move K C w (w.next e) := by
  cases e with
  | start d l =>
    simp only [next]
    split
    · next h => exact .start d l h
    · exact .rest
  | read d response =>
    simp only [next]
    split
    · next hmem =>
      exact w.getRiskDecisionReservation_move d response hmem fun r hr => hK d r (hr ▸ rfl)
    · exact .rest
  | check d active =>
    simp only [next]
    split
    · next l _ =>
      cases active with
      | true => exact w.move_ended d
      | false => exact .pass d l (hC d rfl)
    · exact .rest
  | decide d decision =>
    simp only [next]
    split
    · next l hp =>
      split
      · next happ =>
        refine .advance d (.reserving l decision) (by simp) (fun _ h => h.elim)
          (fun _ => hp ▸ trivial) ?_
        intro l' decision' heq
        cases heq
        exact happ
      · exact w.move_ended d
    · exact .rest
  | reserve d outcome =>
    simp only [next]
    split
    · next h => exact w.reserveRiskDecision_move d h outcome
    · exact .rest
  | produce d =>
    simp only [next]
    split
    · next i h => exact .produce d i h
    · exact .rest
  | append d i =>
    simp only [next]
    split
    · next h => exact .append d i h
    · exact .rest
  | acknowledge d =>
    simp only [next]
    split
    · next i h =>
      split
      · exact .advance d (.marking i) (by simp) (fun _ hk => h ▸ hk) (fun h => h.elim) (by simp)
      · exact .rest
    · exact .rest
  | mark d outcome =>
    simp only [next]
    split
    · next i _ => exact w.markRiskDecisionPublished_move d i outcome
    · exact .rest
  | stop d => exact w.move_ended d

/-- Kept by every step: at most one decision is ever reserved, and it is the one that rows,
deliveries and sent records carry. -/
structure Sound (w : ApprovalWorld ι) : Prop where
  unmarked : w.row = none → .marked ∉ w.journal
  unreserved : w.row = none → ∀ d decision, .reserved d decision ∉ w.journal
  unique : ∀ d e a b, .reserved d a ∈ w.journal → .reserved e b ∈ w.journal → a = b
  pending : ∀ r, some r ∈ w.versions → r.publishStatus = .PENDING →
    Backed w.journal r.riskDecisionId
  approved : ∀ d l decision, w.phase d = .reserving l decision → decision.status = .APPROVED
  carried : ∀ d i, (w.phase d).Carries i → Backed w.journal i
  sent : ∀ d i, (d, i) ∈ w.sent → Backed w.journal i ∧ w.phase d ≠ .idle
  entries : Justified BackedEntry w.journal

omit [DecidableEq ι] in
theorem start_sound (legacy : Option String) : Sound (start legacy : ApprovalWorld ι) where
  unmarked := by simp [start]
  unreserved := by simp [start]
  unique := by simp [start]
  pending := by
    intro r hr hp
    cases legacy with
    | none => simp [start] at hr
    | some i =>
      simp only [start, Option.map_some, List.mem_singleton, Option.some.injEq] at hr
      simp [hr] at hp
  approved := by simp [start]
  carried := fun _ _ h => h.elim
  sent := by simp [start]
  entries := justified_nil

variable {w d}

/-- What holds of the new phase, and of all phases before, holds of all. -/
theorem forall_setPhase {Q : ι → ApprovalPhase → Prop} {p : ApprovalPhase} (hp : Q d p)
    (h : ∀ e, Q e (w.phase e)) : ∀ e, Q e ((w.setPhase d p).phase e) :=
  (Function.forall_update_iff w.phase Q).mpr ⟨hp, fun e _ => h e⟩

theorem Sound.setPhase (hw : Sound w) {p : ApprovalPhase} (hidle : p ≠ .idle)
    (happ : ∀ l decision, p = .reserving l decision → decision.status = .APPROVED)
    (hcar : ∀ i, p.Carries i → Backed w.journal i) : Sound (w.setPhase d p) where
  unmarked := hw.unmarked
  unreserved := hw.unreserved
  unique := hw.unique
  pending := hw.pending
  approved := forall_setPhase
    (Q := fun _ q => ∀ l decision, q = .reserving l decision → decision.status = .APPROVED)
    happ hw.approved
  carried := forall_setPhase (Q := fun _ q => ∀ i, q.Carries i → Backed w.journal i) hcar hw.carried
  sent := forall_setPhase (Q := fun e q => ∀ i, (e, i) ∈ w.sent → Backed w.journal i ∧ q ≠ .idle)
    (fun i h => ⟨(hw.sent d i h).1, hidle⟩) hw.sent
  entries := hw.entries

omit [DecidableEq ι] in
theorem Sound.record (hw : Sound w) {e : ApprovalEntry ι} (hres : ∀ d a, .reserved d a ≠ e)
    (hmark : w.row = none → .marked ≠ e) (he : BackedEntry w.journal e) :
    Sound (w.record e) where
  unmarked := by
    intro hrow
    simp [ApprovalWorld.record, hmark hrow, hw.unmarked hrow]
  unreserved := by
    intro hrow d a
    simp [ApprovalWorld.record, hres, hw.unreserved hrow d a]
  unique := by
    intro d d' a b ha hb
    simp only [ApprovalWorld.record, List.mem_cons, hres, false_or] at ha hb
    exact hw.unique d d' a b ha hb
  pending := fun r hr hp => (hw.pending r hr hp).cons e
  approved := hw.approved
  carried := fun d i h => (hw.carried d i h).cons e
  sent := fun d i h => ⟨(hw.sent d i h).1.cons e, (hw.sent d i h).2⟩
  entries := justified_cons.mpr ⟨he, hw.entries⟩

omit [DecidableEq ι] in
theorem Sound.putRow (hw : Sound w) {r : Reservation} (hr : r.publishStatus ≠ .PENDING) :
    Sound (w.putRow r) where
  unmarked := nofun
  unreserved := nofun
  unique := hw.unique
  pending := by
    intro s hs hp
    obtain heq | hs := List.mem_cons.mp hs
    · cases heq
      exact absurd hp hr
    · exact hw.pending s hs hp
  approved := hw.approved
  carried := hw.carried
  sent := hw.sent
  entries := hw.entries

omit [DecidableEq ι] in
/-- The first reservation: its decision becomes the only one. -/
theorem Sound.reserve (hw : Sound w) (hrow : w.row = none) {a : RiskDecision}
    (ha : a.status = .APPROVED) :
    Sound ((w.putRow ⟨a.riskDecisionId, .PENDING⟩).record (.reserved d a)) where
  unmarked := nofun
  unreserved := nofun
  unique := by
    intro e e' b c hb hc
    have hnone := hw.unreserved hrow
    simp only [ApprovalWorld.record, ApprovalWorld.putRow, List.mem_cons,
      ApprovalEntry.reserved.injEq, hnone, or_false] at hb hc
    rw [hb.2, hc.2]
  pending := by
    intro r hr hp
    obtain heq | hr := List.mem_cons.mp hr
    · cases heq
      exact ⟨d, a, List.mem_cons_self, ha, rfl⟩
    · exact (hw.pending r hr hp).cons _
  approved := hw.approved
  carried := fun e i h => (hw.carried e i h).cons _
  sent := fun e i h => ⟨(hw.sent e i h).1.cons _, (hw.sent e i h).2⟩
  entries := justified_cons.mpr ⟨trivial, hw.entries⟩

theorem Sound.move {K C : ι → Prop} {v : ApprovalWorld ι} (hw : Sound w) (h : Move K C w v) :
    Sound v := by
  cases h with
  | rest => exact hw
  | start d l _ =>
    exact (hw.record (e := .started d) (by simp) (by simp) trivial).setPhase (by simp) (by simp)
      fun _ h => h.elim
  | pass d l _ =>
    exact (hw.record (e := .passed d) (by simp) (by simp) trivial).setPhase (by simp) (by simp)
      fun _ h => h.elim
  | advance d p hidle hcar _ happ =>
    exact hw.setPhase hidle happ fun i h => hw.carried d i (hcar i h)
  | found d r hmem hr _ =>
    refine hw.setPhase (by simp) (by simp) ?_
    rintro i rfl
    exact hw.pending r hmem hr
  | reserve d l a p hrow h hp =>
    have ha : a.status = .APPROVED := hw.approved d l a h
    refine (hw.reserve hrow ha).setPhase ?_ ?_ ?_
    · obtain rfl | rfl | rfl := hp <;> simp
    · obtain rfl | rfl | rfl := hp <;> simp
    · intro i hi
      obtain rfl | rfl | rfl := hp
      · exact ⟨d, a, List.mem_cons_self, ha, hi⟩
      · exact hi.elim
      · exact hi.elim
  | produce d i h =>
    have hb : Backed w.journal i := hw.carried d i (by rw [h]; rfl)
    have hw' : Sound { w with sent := (d, i) :: w.sent } :=
      { hw with
        sent := by
          intro e k hmem
          obtain heq | hmem := List.mem_cons.mp hmem
          · cases heq
            exact ⟨hb, by simp [h]⟩
          · exact hw.sent e k hmem }
    refine hw'.setPhase (by simp) (by simp) ?_
    rintro k rfl
    exact hb
  | append d i h =>
    have hw' : Sound { w with sent := w.sent.erase (d, i) } :=
      { hw with sent := fun e k hmem => hw.sent e k (List.mem_of_mem_erase hmem) }
    exact hw'.record (by simp) (by simp) (hw.sent d i h).1
  | mark d r _ =>
    exact ((hw.putRow (by simp)).record (e := .marked) (by simp) nofun trivial).setPhase
      (by simp) (by simp) fun _ h => h.elim

/-- All that is published carries one decision, approved and reserved before. -/
structure Agreed (w : ApprovalWorld ι) : Prop where
  one : ∀ d e i k, .published d i ∈ w.journal → .published e k ∈ w.journal → i = k
  backed : Justified BackedEntry w.journal

omit [DecidableEq ι] in
theorem Sound.agreed (hw : Sound w) : Agreed w where
  one := by
    intro d e i k hi hk
    obtain ⟨older, hs, d', a, ha, _, rfl⟩ := hw.entries.of_mem hi
    obtain ⟨older', hs', e', b, hb, _, rfl⟩ := hw.entries.of_mem hk
    rw [hw.unique d' e' a b (hs.subset ha) (hs'.subset hb)]
  backed := hw.entries

theorem Sound.next (hw : Sound w) (e : ApprovalEvent ι) : Sound (w.next e) :=
  hw.move (w.next_move (K := fun _ => True) (C := fun _ => True) (fun _ _ _ _ => trivial)
    fun _ _ => trivial)

/-- Whatever versions the reads return. -/
theorem agreed_run (legacy : Option String) (es : List (ApprovalEvent ι)) :
    AlongRun next Agreed (start legacy) es := fun pre hpre =>
  (AlongRun.of_keep (fun _ e hw => hw.next e) (start_sound legacy) es pre hpre).agreed

/-- What needs current reads: a delivery that starts late has nothing to publish. -/
structure Timely (w : ApprovalWorld ι) : Prop where
  carried : ∀ d i, (w.phase d).Carries i → ¬ Late w.journal d
  sent : ∀ d i, (d, i) ∈ w.sent → ¬ Late w.journal d
  entries : Justified TimelyEntry w.journal

omit [DecidableEq ι] in
theorem start_timely (legacy : Option String) : Timely (start legacy : ApprovalWorld ι) where
  carried := fun _ _ h => h.elim
  sent := by simp [start]
  entries := justified_nil

theorem Timely.setPhase (hw : Timely w) {p : ApprovalPhase}
    (hp : ∀ i, p.Carries i → ¬ Late w.journal d) : Timely (w.setPhase d p) where
  carried := forall_setPhase (Q := fun e q => ∀ i, q.Carries i → ¬ Late w.journal e) hp hw.carried
  sent := hw.sent
  entries := hw.entries

omit [DecidableEq ι] in
/-- No entry but the start of a delivery makes one late. -/
theorem late_cons {journal : List (ApprovalEntry ι)} {e : ApprovalEntry ι} :
    Late (e :: journal) d ↔ Late journal d ∨ (.started d = e ∧ .marked ∈ journal) :=
  after_cons

omit [DecidableEq ι] in
theorem Timely.record (hw : Timely w) {e : ApprovalEntry ι} (he : TimelyEntry w.journal e)
    (hcar : ∀ d i, .started d = e → ¬ (w.phase d).Carries i)
    (hsent : ∀ d i, .started d = e → (d, i) ∉ w.sent) : Timely (w.record e) where
  carried := by
    intro d i h hlate
    obtain hlate | ⟨heq, _⟩ := late_cons.mp hlate
    · exact hw.carried d i h hlate
    · exact hcar d i heq h
  sent := by
    intro d i h hlate
    obtain hlate | ⟨heq, _⟩ := late_cons.mp hlate
    · exact hw.sent d i h hlate
    · exact hsent d i heq h
  entries := justified_cons.mpr ⟨he, hw.entries⟩

theorem Timely.move {C : ι → Prop} {v : ApprovalWorld ι} (hs : Sound w) (hw : Timely w)
    (h : Move (fun d => ¬ Late w.journal d) C w v) : Timely v := by
  cases h with
  | rest => exact hw
  | start d l hidle =>
    refine (hw.record (e := .started d) trivial ?_ ?_).setPhase fun _ h => h.elim
    · intro e i heq hcar
      cases heq
      simp [hidle, ApprovalPhase.Carries] at hcar
    · intro e i heq hmem
      cases heq
      exact (hs.sent d i hmem).2 hidle
  | pass d l _ =>
    exact (hw.record (e := .passed d) trivial (by simp) (by simp)).setPhase fun _ h => h.elim
  | advance d p _ hcar _ _ => exact hw.setPhase fun i h => hw.carried d i (hcar i h)
  | found d r _ _ hk => exact hw.setPhase fun _ _ => hk
  | reserve d l a p hrow h hp =>
    have hw' : Timely (w.putRow ⟨a.riskDecisionId, .PENDING⟩) := { hw with }
    refine (hw'.record (e := .reserved d a) trivial (by simp) (by simp)).setPhase ?_
    -- with no row there is no mark, and nothing is late
    intro i _ hlate
    have hmem := hlate.mem_right
    simp only [ApprovalWorld.record, ApprovalWorld.putRow, List.mem_cons, reduceCtorEq,
      false_or] at hmem
    exact hs.unmarked hrow hmem
  | produce d i h =>
    have hd : ¬ Late w.journal d := hw.carried d i (by rw [h]; rfl)
    have hw' : Timely { w with sent := (d, i) :: w.sent } :=
      { hw with
        sent := by
          intro e k hmem
          obtain heq | hmem := List.mem_cons.mp hmem
          · cases heq
            exact hd
          · exact hw.sent e k hmem }
    exact hw'.setPhase fun _ _ => hd
  | append d i h =>
    have hw' : Timely { w with sent := w.sent.erase (d, i) } :=
      { hw with sent := fun e k hmem => hw.sent e k (List.mem_of_mem_erase hmem) }
    exact hw'.record (hw.sent d i h) (by simp) (by simp)
  | mark d r _ =>
    have hw' : Timely (w.putRow { r with publishStatus := .PUBLISHED }) := { hw with }
    exact (hw'.record (e := .marked) trivial (by simp) (by simp)).setPhase fun _ h => h.elim

/-- The approvals of one signal agree: one decision, approved and reserved before it is
published, and nothing is published by a delivery that starts when the row is marked. -/
structure Agreement (w : ApprovalWorld ι) : Prop extends Agreed w where
  timely : Justified TimelyEntry w.journal

/-- A delivery that starts when the row is marked does not read it as it was before. -/
def ReadsMark (w : ApprovalWorld ι) : ApprovalEvent ι → Prop
  | .read d (some r) => Late w.journal d → r.publishStatus ≠ .PENDING
  | _ => True

instance (w : ApprovalWorld ι) : DecidablePred (ReadsMark w)
  | .read d (some r) => inferInstanceAs (Decidable (Late w.journal d → r.publishStatus ≠ .PENDING))
  | .read _ none | .start _ _ | .check _ _ | .decide _ _ | .reserve _ _ | .produce _ | .append _ _
  | .acknowledge _ | .mark _ _ | .stop _ => .isTrue trivial

theorem Timely.next (hs : Sound w) (hw : Timely w) {e : ApprovalEvent ι} (he : ReadsMark w e) :
    Timely (w.next e) := by
  refine hw.move (C := fun _ => True) hs (w.next_move ?_ fun _ _ => trivial)
  rintro d r rfl hr hlate
  exact he hlate hr

/-- When the reads of late deliveries return the mark, the approvals agree in every state of
every run, whatever the interleaving, the crashes and the fate of the records. -/
theorem approvals_agree (legacy : Option String) (es : List (ApprovalEvent ι))
    (h : StepsMeet next ReadsMark (start legacy) es) :
    AlongRun next Agreement (start legacy) es := by
  have keep (w : ApprovalWorld ι) (e : ApprovalEvent ι) (hw : Sound w ∧ Timely w)
      (he : ReadsMark w e) : Sound (w.next e) ∧ Timely (w.next e) :=
    ⟨hw.1.next e, hw.2.next hw.1 he⟩
  intro pre hpre
  obtain ⟨hs, ht⟩ := h.invariant keep ⟨start_sound legacy, start_timely legacy⟩ pre hpre
  exact { hs.agreed with timely := ht.entries }

/-- The record of the first delivery is appended without an acknowledgement; a delivery of the
other loop replays the pending row and marks it; a third one starts late. -/
theorem approvals_agree_redelivery :
    AlongRun next Agreement (start none : ApprovalWorld (Fin 3))
      [.start 0 .enriched, .read 0 none, .check 0 false, .decide 0 ⟨"r1", .APPROVED⟩,
        .reserve 0 .written, .produce 0, .start 1 .fallback, .stop 0,
        .read 1 (some ⟨"r1", .PENDING⟩), .append 0 "r1", .produce 1, .append 1 "r1",
        .acknowledge 1, .mark 1 .written, .start 2 .enriched, .read 2 (some ⟨"r1", .PUBLISHED⟩)] :=
  approvals_agree _ _ (by decide)

/-- Read without consistency, the row still looks pending to a delivery that starts after the
mark, which publishes a second time. -/
theorem published_after_mark :
    ¬ ∀ es : List (ApprovalEvent (Fin 2)), AlongRun next Agreement (start none) es := by
  intro h
  have hrun := h [.start 0 .enriched, .read 0 none, .check 0 false,
    .decide 0 ⟨"r1", .APPROVED⟩, .reserve 0 .written, .produce 0, .append 0 "r1",
    .acknowledge 0, .mark 0 .written, .start 1 .enriched, .read 1 (some ⟨"r1", .PENDING⟩),
    .produce 1, .append 1 "r1"]
  have htimely := hrun.last.timely (.published 1 "r1") _ (List.suffix_refl _)
  exact htimely (by decide)

end ApprovalWorld
end QuantEmbrace
