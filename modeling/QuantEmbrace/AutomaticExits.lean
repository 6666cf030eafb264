import QuantEmbrace.PositionDirection
import QuantEmbrace.TradeExitEngine
import QuantEmbrace.Lib.GuardedRun
import QuantEmbrace.Lib.Role

/-! The closers of one position side by side: passes of the trade exit engine, MIS
square-off, kill-switch exits, and the fills of other orders in between. -/
namespace QuantEmbrace
open GuardedRun
variable {ι : Type*}

/- Only exits of the router take the lock; square-off goes from the validated scan straight
   to its order. -/
inductive CloserStage where
  | idle
  | scanned (position : ManagedPosition)
  | scannedItem (item : PositionRow)
  | ready (request : ExitOrderRequest)
  | locked (request : ExitOrderRequest)
  | validated (close : MisPosition)
  | over
  deriving DecidableEq, Repr

inductive CloserStep where
  | scan
  | decide
  | lock
  | lockRefused
  | submit
  | submitFails
  | fill (quantity : ℚ)
  | fail
  deriving DecidableEq, Repr

inductive ExitEvent (ι : Type*) where
  | closer (i : ι) (s : CloserStep)
  | trade (f : Fill)

/-- A close that is submitted, and neither failed nor fully applied. -/
structure OutClose (ι : Type*) where
  task : ι
  side : OrderSide
  remaining : ℚ

/-- At a submission: what is out with the new close, and the position. -/
structure Submission where
  total : ℚ
  position : ℚ
  deriving DecidableEq, Repr

structure ExitWorld (ι : Type*) where
  row : ManagedRow
  stage : ι → CloserStage
  out : List (OutClose ι)
  submitted : List Submission

namespace ExitWorld

def start (row : ManagedRow) : ExitWorld ι := ⟨row, fun _ => .idle, [], []⟩

def outstanding (w : ExitWorld ι) : ℚ := (w.out.map (·.remaining)).sum

def setRow (w : ExitWorld ι) (row : ManagedRow) : ExitWorld ι := { w with row }

def submitClose (w : ExitWorld ι) (i : ι) (side : OrderSide) (quantity : ℚ) : ExitWorld ι :=
  { w with
    out := ⟨i, side, quantity⟩ :: w.out
    submitted := ⟨quantity + w.outstanding, w.row.oldQty⟩ :: w.submitted }

variable [DecidableEq ι]

def setStage (w : ExitWorld ι) (i : ι) (s : CloserStage) : ExitWorld ι :=
  { w with stage := Function.update w.stage i s }

/- Which submissions get through is left open, and so is whether one that raises has got
   through, or has given the lock back. -/
inductive Step : ExitWorld ι → ExitEvent ι → ExitWorld ι → Prop
  | scan {w : ExitWorld ι} {i : ι} {position : ManagedPosition} : w.stage i = .idle →
      w.row.notFlat = true → w.row.parsePosition = some position →
      Step w (.closer i .scan) (w.setStage i (.scanned position))
  | scanMis {w : ExitWorld ι} {i : ι} : w.stage i = .idle →
      w.row.misFilter = true →
      Step w (.closer i .scan) (w.setStage i (.scannedItem w.row.toPositionRow))
  -- a kill-switch exit of the position as it is read
  | readKill {w : ExitWorld ι} {i : ι} {quantity : ℚ} {date : String} : w.stage i = .idle →
      w.row.quantity = some quantity → quantity ≠ 0 →
      Step w (.closer i .scan)
        (w.setStage i (.ready (.fromPosition (w.row.symbol.getD "UNKNOWN") "NSE" w.row.direction
          quantity .killSwitch date (w.row.avgPrice.getD 0) none true)))
  | fire {w : ExitWorld ι} {i : ι} {position : ManagedPosition} {trailing : TrailingSettings}
      {lastPrice : Option ℚ} {trigger : ExitTriggerType} {exitPrice : ℚ} {date : String} :
      w.stage i = .scanned position →
      evaluateExitConditions trailing position lastPrice = .fire trigger exitPrice →
      Step w (.closer i .decide)
        (w.setStage i (.ready (position.exitRequest trigger date (some exitPrice))))
  | validate {w : ExitWorld ι} {i : ι} {item : PositionRow} {close : MisPosition}
      {stored : String → Option OrderStatus} : w.stage i = .scannedItem item →
      resolvePosition item (buildValidExitIds stored [item]) = some close →
      Step w (.closer i .decide) (w.setStage i (.validated close))
  | leave {w : ExitWorld ι} {i : ι} : (∀ request, w.stage i ≠ .locked request) →
      Step w (.closer i .decide) (w.setStage i .over)
  | lock {w : ExitWorld ι} {i : ι} {request : ExitOrderRequest} : w.stage i = .ready request →
      w.row.exitLockFree request.isKillSwitch = true →
      Step w (.closer i .lock)
        ((w.setRow (w.row.acquireExitLock request.exitId request.triggerType
          request.isKillSwitch)).setStage i (.locked request))
  -- the condition fails, or the write raises and may have been carried out
  | lockRefused {w : ExitWorld ι} {i : ι} {request : ExitOrderRequest} {applied : Bool} :
      w.stage i = .ready request →
      Step w (.closer i .lockRefused)
        ((w.setRow (if applied then w.row.acquireExitLock request.exitId request.triggerType
          request.isKillSwitch else w.row)).setStage i .over)
  | submit {w : ExitWorld ι} {i : ι} {request : ExitOrderRequest} {released : Bool} :
      w.stage i = .locked request →
      Step w (.closer i .submit)
        (((w.submitClose i request.closeSide request.closeQty).setRow
          (if released then w.row.releaseExitLock request.exitId else w.row)).setStage i .over)
  | submitMis {w : ExitWorld ι} {i : ι} {close : MisPosition} : w.stage i = .validated close →
      Step w (.closer i .submit)
        ((w.submitClose i close.closeSide close.closeQty).setStage i .over)
  | submitFails {w : ExitWorld ι} {i : ι} {request : ExitOrderRequest} {released : Bool} :
      w.stage i = .locked request →
      Step w (.closer i .submitFails)
        ((w.setRow (if released then w.row.releaseExitLock request.exitId else w.row)).setStage i
          .over)
  | fill {w : ExitWorld ι} {before after : List (OutClose ι)} {close : OutClose ι} {f : Fill} :
      w.out = before ++ close :: after → f.side = close.side → 0 < f.quantity →
      f.quantity ≤ close.remaining →
      Step w (.closer close.task (.fill f.quantity))
        { w with
          row := w.row.applyFill f
          out := before ++ (if f.quantity = close.remaining then []
            else [{ close with remaining := close.remaining - f.quantity }]) ++ after }
  | fail {w : ExitWorld ι} {before after : List (OutClose ι)} {close : OutClose ι} :
      w.out = before ++ close :: after →
      Step w (.closer close.task .fail) { w with out := before ++ after }
  | trade {w : ExitWorld ι} {f : Fill} : Step w (.trade f) (w.setRow (w.row.applyFill f))

omit [DecidableEq ι]

/-- A close holds its lock before it is submitted, or is out. -/
def Engaged (w : ExitWorld ι) : Prop := (∃ i request, w.stage i = .locked request) ∨ w.out ≠ []

/-- The position is as large as the close, on the side it closes. -/
def Covers (position : ℚ) (side : OrderSide) (quantity : ℚ) : Prop :=
  match side with
  | .sell => quantity ≤ position
  | .buy => quantity ≤ -position

/-- An exit takes a free lock only if nothing is engaged without it, a kill-switch exit and
square-off act only while nothing is engaged, and no fill since the scan has made the
position smaller than the close. -/
def Orderly (w : ExitWorld ι) : ExitEvent ι → Prop
  | .closer i .lock => ∀ request, w.stage i = .ready request → w.Engaged →
      request.isKillSwitch = false ∧ w.row.exitOrderId ≠ none
  | .closer i .submit =>
    (∀ request, w.stage i = .locked request →
      Covers w.row.oldQty request.closeSide request.closeQty) ∧
    ∀ close, w.stage i = .validated close →
      ¬ w.Engaged ∧ Covers w.row.oldQty close.closeSide close.closeQty
  | _ => True

/-- At most one close is engaged. -/
structure Exclusive (w : ExitWorld ι) : Prop where
  locked : ∀ i request, w.stage i = .locked request → w.out = []
  one : ∀ i j request request', w.stage i = .locked request → w.stage j = .locked request' → i = j
  out : w.out.length ≤ 1

/-- Only the closers act, and their fills are of whole shares. -/
def Alone : ExitEvent ι → Prop
  | .closer _ (.fill quantity) => IsWhole quantity
  | .closer _ _ => True
  | .trade _ => False

/-- The position is on the side on which it was, and no larger. -/
structure SameSide (before now : ℚ) : Prop where
  long : 0 ≤ before → 0 ≤ now ∧ now ≤ before
  short : before ≤ 0 → before ≤ now ∧ now ≤ 0

/-- No more was ever submitted than the position held. -/
def NeverOverCloses (w : ExitWorld ι) : Prop := ∀ s ∈ w.submitted, s.total ≤ |s.position|

theorem exclusive_start (row : ManagedRow) : (start row : ExitWorld ι).Exclusive where
  locked _ _ h := nomatch h
  one _ _ _ _ h := nomatch h
  out := Nat.zero_le 1

/-- No new lock, and nothing new out. -/
theorem Exclusive.shrink {w w' : ExitWorld ι} (h : w.Exclusive)
    (hstage : ∀ i request, w'.stage i = .locked request → w.stage i = .locked request)
    (hout : w'.out.length ≤ w.out.length) : w'.Exclusive where
  locked i request hi := by
    rw [h.locked i request (hstage i request hi)] at hout
    exact List.length_eq_zero_iff.mp (Nat.le_zero.mp hout)
  one i j request request' hi hj :=
    h.one i j request request' (hstage i request hi) (hstage j request' hj)
  out := hout.trans h.out

theorem Covers.le_abs {position : ℚ} {side : OrderSide} {quantity : ℚ}
    (h : Covers position side quantity) : quantity ≤ |position| := by
  cases side with
  | buy => exact h.trans (neg_le_abs _)
  | sell => exact h.trans (le_abs_self _)

theorem length_filled {before after : List (OutClose ι)} {close : OutClose ι}
    {rest : List (OutClose ι)} (hrest : rest.length ≤ 1) :
    (before ++ rest ++ after).length ≤ (before ++ close :: after).length := by
  simp only [List.length_append, List.length_cons]
  omega

theorem Exclusive.setRow {w : ExitWorld ι} (h : w.Exclusive) (row : ManagedRow) :
    (w.setRow row).Exclusive :=
  h.shrink (fun _ _ hj => hj) (Nat.le_refl _)

theorem NeverOverCloses.submit {w : ExitWorld ι} (h : w.NeverOverCloses) {i : ι}
    {side : OrderSide} {quantity : ℚ} (hout : w.out = [])
    (hcovers : Covers w.row.oldQty side quantity) :
    (w.submitClose i side quantity).NeverOverCloses := by
  intro s hs
  obtain rfl | hs := List.mem_cons.mp hs
  · change quantity + w.outstanding ≤ |w.row.oldQty|
    rw [outstanding, hout, List.map_nil, List.sum_nil, add_zero]
    exact hcovers.le_abs
  · exact h s hs

/-- A free lock is taken while nothing is engaged. -/
theorem not_engaged_of_lock {w : ExitWorld ι} {i : ι} {request : ExitOrderRequest}
    (hi : w.stage i = .ready request)
    (hfree : w.row.exitLockFree request.isKillSwitch = true)
    (hok : w.Orderly (.closer i .lock)) : ¬ w.Engaged := by
  intro hengaged
  obtain ⟨hkill, hid⟩ := hok request hi hengaged
  rw [ManagedRow.exitLockFree, hkill] at hfree
  simp only [Bool.false_or, Bool.and_eq_true, decide_eq_true_eq] at hfree
  exact hid hfree.1

section Steps
variable [DecidableEq ι] {w : ExitWorld ι} {i : ι}

theorem stage_of_setStage {s : CloserStage} (hs : ∀ request, s ≠ .locked request) {j : ι}
    {request : ExitOrderRequest} (h : (w.setStage i s).stage j = .locked request) :
    j ≠ i ∧ w.stage j = .locked request :=
  Role.of_update_eq h (hs request)

theorem Exclusive.setStage (h : w.Exclusive) {s : CloserStage}
    (hs : ∀ request, s ≠ .locked request) : (w.setStage i s).Exclusive :=
  h.shrink (fun _ _ hj => (stage_of_setStage hs hj).2) (Nat.le_refl _)

/-- Nothing was engaged: the new lock is the only one. -/
theorem exclusive_lock {row : ManagedRow} {request : ExitOrderRequest} (hfree : ¬ w.Engaged) :
    ((w.setRow row).setStage i (.locked request)).Exclusive := by
  obtain ⟨hlocked, hout⟩ := not_or.mp hfree
  have honly : ∀ j request', ((w.setRow row).setStage i (.locked request)).stage j =
      .locked request' → j = i := by
    intro j request' hj
    by_contra hji
    exact hlocked ⟨j, request', (Function.update_of_ne hji _ _).symm.trans hj⟩
  have hnil : w.out = [] := not_not.mp hout
  exact
    { locked := fun _ _ _ => hnil
      one := fun j k request₁ request₂ hj hk =>
        (honly j request₁ hj).trans (honly k request₂ hk).symm
      out := by
        change w.out.length ≤ 1
        rw [hnil]
        exact Nat.zero_le 1 }

/-- The only close goes out, and its task is over. -/
theorem exclusive_submit {row : ManagedRow} {side : OrderSide} {quantity : ℚ}
    (hout : w.out = []) (hothers : ∀ j request, w.stage j = .locked request → j = i) :
    (((w.submitClose i side quantity).setRow row).setStage i .over).Exclusive := by
  have hnone : ∀ j request,
      (((w.submitClose i side quantity).setRow row).setStage i .over).stage j ≠
        .locked request := by
    intro j request hj
    obtain ⟨hji, hj⟩ := stage_of_setStage (fun _ heq => by cases heq) hj
    exact hji (hothers j request hj)
  exact
    { locked := fun j request hj => absurd hj (hnone j request)
      one := fun j _ request _ hj => absurd hj (hnone j request)
      out := by
        change (_ :: w.out).length ≤ 1
        rw [hout]
        exact Nat.le_refl 1 }

theorem Exclusive.step {w' : ExitWorld ι} {e : ExitEvent ι} (h : w.Exclusive)
    (hok : w.Orderly e) (hs : Step w e w') : w'.Exclusive := by
  cases hs with
  | scan | scanMis | readKill | fire | validate | leave =>
    exact h.setStage (fun _ heq => by cases heq)
  | lock hi hfree => exact exclusive_lock (not_engaged_of_lock hi hfree hok)
  | submit hi =>
    exact exclusive_submit (h.locked _ _ hi) fun j request hj => h.one j _ request _ hj hi
  | submitMis hi =>
    obtain ⟨hlocked, hout⟩ := not_or.mp (hok.2 _ hi).1
    exact exclusive_submit (not_not.mp hout) fun j request hj => absurd ⟨j, request, hj⟩ hlocked
  | lockRefused | submitFails => exact (h.setRow _).setStage (fun _ heq => by cases heq)
  | fill hout =>
    refine h.shrink (fun _ _ hj => hj) ?_
    rw [hout]
    refine length_filled ?_
    split <;> simp
  | fail hout =>
    refine h.shrink (fun _ _ hj => hj) ?_
    rw [hout]
    simp
  | trade => exact h.setRow _

theorem NeverOverCloses.step {w' : ExitWorld ι} {e : ExitEvent ι} (h : w.NeverOverCloses)
    (hx : w.Exclusive) (hok : w.Orderly e) (hs : Step w e w') : w'.NeverOverCloses := by
  cases hs with
  | @submit i request released hi => exact h.submit (i := i) (hx.locked _ _ hi) (hok.1 _ hi)
  | @submitMis i close hi =>
    obtain ⟨hfree, hcovers⟩ := hok.2 _ hi
    exact h.submit (i := i) (not_not.mp (not_or.mp hfree).2) hcovers
  | scan | scanMis | readKill | fire | validate | leave | lock | lockRefused | submitFails | fill
  | fail | trade => exact h

/-- The closes that are out take nothing away that the position does not have. -/
structure Closing (before : ℚ) (w : ExitWorld ι) : Prop where
  whole : IsWhole w.row.oldQty
  covered : ∀ close ∈ w.out, Covers w.row.oldQty close.side close.remaining
  side : SameSide before w.row.oldQty

omit [DecidableEq ι] in
theorem Closing.congr {before : ℚ} {w' : ExitWorld ι} (h : Closing before w)
    (hrow : w'.row.oldQty = w.row.oldQty)
    (hout : ∀ close ∈ w'.out, close ∈ w.out ∨ Covers w.row.oldQty close.side close.remaining) :
    Closing before w' where
  whole := by
    rw [hrow]
    exact h.whole
  covered close hclose := by
    rw [hrow]
    exact (hout close hclose).elim (h.covered close) id
  side := by
    rw [hrow]
    exact h.side

theorem oldQty_acquire (r : ManagedRow) (exitId : String) (trigger : ExitTriggerType)
    (isKillSwitch : Bool) : (r.acquireExitLock exitId trigger isKillSwitch).oldQty = r.oldQty := by
  unfold ManagedRow.acquireExitLock
  split <;> rfl

theorem oldQty_ite {b : Prop} [Decidable b] {r r' : ManagedRow} (h : r'.oldQty = r.oldQty) :
    (if b then r' else r : ManagedRow).oldQty = r.oldQty := by
  split
  · exact h
  · rfl

theorem oldQty_release (r : ManagedRow) (exitId : String) :
    (r.releaseExitLock exitId).oldQty = r.oldQty := by
  unfold ManagedRow.releaseExitLock
  split <;> rfl

omit [DecidableEq ι] in
/-- A fill of a close takes from the position what it takes from the close. -/
theorem Closing.fill {before : ℚ} (h : Closing before w) {close : OutClose ι} {f : Fill}
    (hout : w.out = [close]) (hside : f.side = close.side) (hpos : 0 < f.quantity)
    (hle : f.quantity ≤ close.remaining) (hwhole : IsWhole f.quantity) :
    Closing before
      { w with
        row := w.row.applyFill f
        out := if f.quantity = close.remaining then []
          else [{ close with remaining := close.remaining - f.quantity }] } := by
  have hq := h.whole.add_signed hwhole f.side
  have hnew : (w.row.applyFill f).oldQty = w.row.oldQty + f.side.signed f.quantity :=
    fillFigures_qty_clear w.row.figures f.side f.quantity f.price hq.zero_or_gt
  have hcovers : Covers w.row.oldQty close.side close.remaining :=
    h.covered close (by rw [hout]; exact List.mem_singleton_self _)
  refine ⟨by rwa [hnew], fun c hc => ?_, ?_⟩
  · rw [hnew]
    split at hc
    · cases hc
    · obtain rfl := List.mem_singleton.mp hc
      rw [hside]
      cases hs : close.side with
      | buy =>
        simp only [hs, Covers, OrderSide.signed] at hcovers ⊢
        linarith
      | sell =>
        simp only [hs, Covers, OrderSide.signed] at hcovers ⊢
        linarith
  · rw [hnew, hside]
    cases hs : close.side with
    | buy =>
      simp only [hs, Covers, OrderSide.signed] at hcovers ⊢
      refine ⟨fun hlong => ?_, fun hshort => ?_⟩
      · have := (h.side.long hlong).1
        linarith
      · have := h.side.short hshort
        constructor <;> linarith
    | sell =>
      simp only [hs, Covers, OrderSide.signed] at hcovers ⊢
      refine ⟨fun hlong => ?_, fun hshort => ?_⟩
      · have := h.side.long hlong
        constructor <;> linarith
      · have := (h.side.short hshort).2
        linarith

omit [DecidableEq ι] in
/-- The list of closes has room for one only. -/
theorem Exclusive.out_single (h : w.Exclusive) {before after : List (OutClose ι)}
    {close : OutClose ι} (hout : w.out = before ++ close :: after) : before = [] ∧ after = [] := by
  have hlen := h.out
  rw [hout, List.length_append, List.length_cons] at hlen
  exact ⟨List.length_eq_zero_iff.mp (by omega), List.length_eq_zero_iff.mp (by omega)⟩

theorem Closing.step {before : ℚ} {w' : ExitWorld ι} {e : ExitEvent ι} (h : Closing before w)
    (hx : w.Exclusive) (hok : w.Orderly e) (halone : Alone e) (hs : Step w e w') :
    Closing before w' := by
  cases hs with
  | scan | scanMis | readKill | fire | validate | leave => exact h.congr rfl fun _ => Or.inl
  | lock => exact h.congr (oldQty_acquire _ _ _ _) fun _ => Or.inl
  | lockRefused => exact h.congr (oldQty_ite (oldQty_acquire _ _ _ _)) fun _ => Or.inl
  | submit hi =>
    refine h.congr (oldQty_ite (oldQty_release _ _)) fun close hclose => ?_
    obtain rfl | hclose := List.mem_cons.mp hclose
    · exact Or.inr (hok.1 _ hi)
    · exact Or.inl hclose
  | submitMis hi =>
    refine h.congr rfl fun close hclose => ?_
    obtain rfl | hclose := List.mem_cons.mp hclose
    · exact Or.inr (hok.2 _ hi).2
    · exact Or.inl hclose
  | submitFails => exact h.congr (oldQty_ite (oldQty_release _ _)) fun _ => Or.inl
  | fill hout hside hpos hle =>
    obtain ⟨rfl, rfl⟩ := hx.out_single hout
    rw [List.nil_append, List.append_nil]
    exact h.fill hout hside hpos hle halone
  | fail hout =>
    refine h.congr rfl fun close hclose => Or.inl ?_
    rw [hout]
    obtain hclose | hclose := List.mem_append.mp hclose
    · exact List.mem_append_left _ hclose
    · exact List.mem_append_right _ (List.mem_cons_of_mem _ hclose)
  | trade => exact halone.elim

end Steps

/-- In an orderly run at most one close is engaged at a time and none is larger than the
position when it is submitted; the closers alone never turn the position around. -/
theorem automatic_exits_never_over_close [DecidableEq ι] (row : ManagedRow) (w : ExitWorld ι)
    (h : Reaches Step Orderly (start row) w) :
    w.Exclusive ∧ w.NeverOverCloses ∧
      (IsWhole row.oldQty →
        Reaches Step (fun w e => w.Orderly e ∧ Alone e) (start row) w →
        SameSide row.oldQty w.row.oldQty) := by
  have hsafe := h.invariant (I := fun w => w.Exclusive ∧ w.NeverOverCloses)
    (fun _ _ _ hi hok hs => ⟨hi.1.step hok hs, hi.2.step hi.1 hok hs⟩)
    ⟨exclusive_start row, fun _ hs => absurd hs List.not_mem_nil⟩
  refine ⟨hsafe.1, hsafe.2, fun hwhole halone => ?_⟩
  have hstart : Closing row.oldQty (start row : ExitWorld ι) :=
    ⟨hwhole, fun _ hc => absurd hc List.not_mem_nil,
      ⟨fun h => ⟨h, le_refl _⟩, fun h => ⟨le_refl _, h⟩⟩⟩
  exact (halone.invariant (I := fun w => w.Exclusive ∧ Closing row.oldQty w)
    (fun _ _ _ hi hok hs => ⟨hi.1.step hok.1 hs, hi.2.step hi.1 hok.1 hok.2 hs⟩)
    ⟨exclusive_start row, hstart⟩).2.side

/-- A long of ten with its stop at 95, and what the engine reads of it. -/
def stoppedLong : ManagedRow := { toPositionRow := openLong, stopPrice := some 95 }

def stoppedPosition : ManagedPosition :=
  ⟨"INFY", some .long, 10, 100, 95, none, some 110, none, none⟩

def noTrailing : TrailingSettings := ⟨false, 0, 0⟩

theorem stoppedPosition_fires :
    evaluateExitConditions noTrailing stoppedPosition (some 94) = .fire .stopLoss 94 := by
  decide +kernel

def stopRequest : ExitOrderRequest :=
  stoppedPosition.exitRequest .stopLoss "2026-01-05" (some 94)

def sellOf (quantity : ℚ) : Fill := ⟨"INFY", .sell, quantity, 94, 94, some .nse, "t1"⟩

/-- A pass of the engine that has decided to sell the ten. -/
def firedLong : ExitWorld Unit :=
  ((start stoppedLong).setStage () (.scanned stoppedPosition)).setStage () (.ready stopRequest)

theorem reaches_firedLong (ok : ExitWorld Unit → ExitEvent Unit → Prop)
    (hscan : ∀ w, ok w (.closer () .scan)) (hdecide : ∀ w, ok w (.closer () .decide)) :
    Reaches Step ok (start stoppedLong) firedLong := by
  have hscanned : Step (start stoppedLong : ExitWorld Unit) (.closer () .scan)
      ((start stoppedLong).setStage () (.scanned stoppedPosition)) :=
    .scan rfl (by decide +kernel) (by decide +kernel)
  have hfired : Step ((start stoppedLong : ExitWorld Unit).setStage () (.scanned stoppedPosition))
      (.closer () .decide) firedLong :=
    .fire rfl stoppedPosition_fires
  have hstart : Reaches Step ok (start stoppedLong : ExitWorld Unit) (start stoppedLong) := .refl
  exact (hstart.next (hscan _) hscanned).next (hdecide _) hfired

/-- One pass of the engine that nobody disturbs. -/
theorem automatic_exits_never_over_close_stop :
    ∃ w : ExitWorld Unit, Reaches Step Orderly (start stoppedLong) w ∧
      w.row.quantity = some 0 ∧ w.NeverOverCloses := by
  have h0 := reaches_firedLong Orderly (fun _ => trivial) fun _ => trivial
  have hfree : ¬ firedLong.Engaged := by
    rintro (⟨i, request, hi⟩ | hout)
    · exact nomatch hi
    · exact hout rfl
  have h1 := h0.next (e := ExitEvent.closer () .lock)
    (fun _ _ hengaged => absurd hengaged hfree)
    (.lock (rfl : firedLong.stage () = .ready stopRequest) (by decide +kernel))
  have h2 := h1.next (e := ExitEvent.closer () .submit) ⟨fun request hi => ?_, nofun⟩
    (@Step.submit _ _ _ () stopRequest false rfl)
  · have h3 := h2.next (e := ExitEvent.closer () (.fill 10)) trivial
      (@Step.fill _ _ _ [] [] ⟨(), .sell, 10⟩ (sellOf 10) rfl rfl (by decide +kernel)
        (by decide +kernel))
    exact ⟨_, h3, by decide +kernel, (automatic_exits_never_over_close _ _ h3).2.1⟩
  · obtain rfl := CloserStage.locked.inj hi
    change (10 : ℚ) ≤ _
    decide +kernel

/-- A sale of six between the scan and the lock: the stale ten is sold of the four left. -/
theorem stale_exit_flips_position :
    ∃ w : ExitWorld Unit, Reaches Step (fun _ _ => True) (start stoppedLong) w ∧
      ¬ w.NeverOverCloses ∧ w.row.quantity = some (-6) := by
  have h0 := reaches_firedLong (fun _ _ => True) (fun _ => trivial) fun _ => trivial
  have h1 := h0.next trivial (.trade (f := sellOf 6))
  have h2 := h1.next trivial (@Step.lock _ _ _ () stopRequest rfl (by decide +kernel))
  have h3 := h2.next trivial (@Step.submit _ _ _ () stopRequest false rfl)
  have h4 := h3.next trivial
    (@Step.fill _ _ _ [] [] ⟨(), .sell, 10⟩ (sellOf 10) rfl rfl (by decide +kernel)
      (by decide +kernel))
  refine ⟨_, h4, fun hnever => ?_, by decide +kernel⟩
  exact absurd (hnever ⟨10, 4⟩ (by decide +kernel)) (by decide +kernel)

end ExitWorld

end QuantEmbrace
