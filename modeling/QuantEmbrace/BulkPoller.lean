import QuantEmbrace.StatusWriters
import QuantEmbrace.Lib.PythonValue
import Mathlib.Data.List.Chain
import Mathlib.Algebra.BigOperators.Group.List.Basic

/-! `BulkOrderPoller` on one order: what a poll cycle does with the broker's view of
it, where a cycle can stop or fail, and what the position is credited with. -/
namespace QuantEmbrace
open GuardedRun
open OrderStatus (isValidStatusTransition)
open PythonValue.Json (truncate)

/-- The fields of a `kite.orders()` entry that the poller reads. -/
structure KiteOrder where
  status : String
  filledQuantity : ℚ
  averagePrice : ℚ
  statusMessage : String
  deriving DecidableEq, Repr

/-- What `compute_fill_id` hashes. -/
structure FillKey where
  brokerOrderId : String
  filledQuantity : ℚ
  avgFillPrice : ℚ
  deriving DecidableEq, Repr

def fillKey (o : OrderRow) (k : KiteOrder) : FillKey :=
  ⟨o.brokerOrderId.getD "", k.filledQuantity, k.averagePrice⟩

def KiteOrder.report (k : KiteOrder) (status : OrderStatus) : BrokerReport :=
  ⟨status, k.filledQuantity, k.averagePrice, k.statusMessage⟩

/-- `_calculate_delta_fill_price` -/
def deltaFillPrice (priorQty priorAvg newQty newAvg : ℚ) : ℚ :=
  if newQty - priorQty ≤ 0 then newAvg
  else max 0 ((newQty * newAvg - priorQty * priorAvg) / (newQty - priorQty))

inductive Action where
  | status (w : StatusWrite)
  | protectiveStop (quantity : ℚ)
  | credit (key : FillKey) (quantity price : ℚ)
  | publishFill (quantityFilled : ℤ) (price : ℚ)
  | publishRejection (reason : String)

/-- A handler: the fill record it writes first, if any, and what it does when the
record is new and when it was there already. -/
structure Handler where
  gate : Option FillKey
  fresh : List Action
  seen : List Action

def Handler.idle : Handler := ⟨none, [], []⟩

section Handlers
variable (o : OrderRow) (k : KiteOrder)

def increment : ℚ := k.filledQuantity - o.filledQuantity

def incrementPrice : ℚ :=
  deltaFillPrice o.filledQuantity o.avgFillPrice k.filledQuantity k.averagePrice

def creditIncrement : List Action :=
  [.protectiveStop (increment o k), .credit (fillKey o k) (increment o k) (incrementPrice o k)]

/- A completed order publishes its fill even when nothing was added to it. -/
def handleFill : Handler where
  gate := some (fillKey o k)
  fresh := .status (pollFillWrite (k.report .filled)) ::
    (if max 0 (increment o k) > 0 then creditIncrement o k else []) ++
      [.publishFill (truncate (max 0 (increment o k))) (incrementPrice o k)]
  seen := []

def handlePartial : Handler :=
  if k.filledQuantity ≤ o.filledQuantity then .idle
  else
    { gate := some (fillKey o k)
      fresh := .status (pollPartialWrite (k.report .partiallyFilled)) ::
        creditIncrement o k ++
          [.publishFill (truncate (increment o k)) (incrementPrice o k)]
      seen := [] }

/- The status comes last here, after the position. -/
def handleTerminal (newStatus : OrderStatus) : Handler :=
  let close := .status (pollTerminalWrite o (k.report newStatus)) ::
    (if newStatus = .rejected then [Action.publishRejection
      (if k.statusMessage = "" then "broker_rejected" else k.statusMessage)] else [])
  if k.filledQuantity > o.filledQuantity then
    { gate := some (fillKey o k), fresh := creditIncrement o k ++ close, seen := close }
  else { gate := none, fresh := close, seen := close }

/-- Step 3 of `_poll_cycle`. -/
def dispatch : Handler :=
  let newStatus := k.status.toUpper
  if newStatus = "COMPLETE" then handleFill o k
  else if (newStatus = "OPEN PENDING" ∨ "PARTIALLY".toList <:+: newStatus.toList) ∧
      k.filledQuantity > o.filledQuantity then handlePartial o k
  else if newStatus = "CANCELLED" then handleTerminal o k .cancelled
  else if newStatus = "REJECTED" then handleTerminal o k .rejected
  else .idle

end Handlers

/-- Where a cycle stops and what it fails to do without noticing. `reached` counts
the steps done before a crash or a raised error, the fill record first. -/
structure Fault where
  reached : ℕ
  statusFails : Bool
  creditFails : Bool

/-- More than any handler has to do. -/
def Fault.none : Fault := ⟨10, false, false⟩

/-- The order row, the fills table and the position updates that went through. -/
structure PollState where
  row : OrderRow
  fills : List FillKey
  credits : List (FillKey × ℚ)

/-- The quantity the poller has applied to the position. -/
def PollState.credited (st : PollState) : ℚ := (st.credits.map Prod.snd).sum

def act (f : Fault) (st : PollState) : Action → PollState
  | .status w => if f.statusFails then st else { st with row := w.undisturbed st.row }
  | .credit key q _ => if f.creditFails then st else { st with credits := st.credits ++ [(key, q)] }
  | .protectiveStop _ | .publishFill _ _ | .publishRejection _ => st

def perform (f : Fault) (n : ℕ) (as : List Action) (st : PollState) : PollState :=
  (as.take n).foldl (act f) st

def Handler.run (h : Handler) (f : Fault) (st : PollState) : PollState :=
  match h.gate with
  | .none => perform f f.reached h.seen st
  | some key =>
    if f.reached = 0 then st
    else if key ∈ st.fills then perform f (f.reached - 1) h.seen st
    else perform f (f.reached - 1) h.fresh { st with fills := key :: st.fills }

instance (row : OrderRow) : Decidable row.Tracked := inferInstanceAs (Decidable (_ ∧ _))

/-- One cycle in which the order is in the broker's book. -/
def pollCycle (st : PollState) (c : KiteOrder × Fault) : PollState :=
  if st.row.Tracked then (dispatch st.row c.1).run c.2 st else st

namespace KiteOrder

def Complete (k : KiteOrder) : Prop := k.status.toUpper = "COMPLETE"

def Partial (k : KiteOrder) : Prop :=
  k.status.toUpper = "OPEN PENDING" ∨ "PARTIALLY".toList <:+: k.status.toUpper.toList

def Ended (k : KiteOrder) : Prop :=
  k.status.toUpper = "CANCELLED" ∨ k.status.toUpper = "REJECTED"

def Terminal (k : KiteOrder) : Prop := k.Complete ∨ k.Ended

instance (k : KiteOrder) : Decidable k.Complete := inferInstanceAs (Decidable (_ = _))
instance (k : KiteOrder) : Decidable k.Partial := inferInstanceAs (Decidable (_ ∨ _))
instance (k : KiteOrder) : Decidable k.Ended := inferInstanceAs (Decidable (_ ∨ _))

theorem Ended.not_complete {k : KiteOrder} (h : k.Ended) : ¬ k.Complete := by
  unfold Complete
  obtain h | h := h <;> rw [h] <;> decide

theorem Ended.not_partial {k : KiteOrder} (h : k.Ended) : ¬ k.Partial := by
  unfold Partial
  obtain h | h := h <;> rw [h] <;> decide

end KiteOrder

/-- The handler of each kind of broker status. -/
theorem dispatch_cases (o : OrderRow) (k : KiteOrder) :
    (k.Complete ∧ dispatch o k = handleFill o k) ∨
    (¬ k.Complete ∧ k.Partial ∧ o.filledQuantity < k.filledQuantity ∧
      dispatch o k = handlePartial o k) ∨
    (k.Ended ∧ ∃ s, (s = .cancelled ∨ s = .rejected) ∧ dispatch o k = handleTerminal o k s) ∨
    (¬ k.Terminal ∧ ¬ (k.Partial ∧ o.filledQuantity < k.filledQuantity) ∧
      dispatch o k = .idle) := by
  by_cases hc : k.Complete
  · exact Or.inl ⟨hc, if_pos hc⟩
  right
  by_cases hp : k.Partial ∧ o.filledQuantity < k.filledQuantity
  · exact Or.inl ⟨hc, hp.1, hp.2, (if_neg hc).trans (if_pos hp)⟩
  right
  have hd : dispatch o k = if k.status.toUpper = "CANCELLED" then handleTerminal o k .cancelled
      else if k.status.toUpper = "REJECTED" then handleTerminal o k .rejected else .idle :=
    (if_neg hc).trans (if_neg hp)
  by_cases hx : k.status.toUpper = "CANCELLED"
  · exact Or.inl ⟨Or.inl hx, .cancelled, Or.inl rfl, hd.trans (if_pos hx)⟩
  by_cases hr : k.status.toUpper = "REJECTED"
  · exact Or.inl ⟨Or.inr hr, .rejected, Or.inr rfl, (hd.trans (if_neg hx)).trans (if_pos hr)⟩
  · refine Or.inr ⟨?_, hp, (hd.trans (if_neg hx)).trans (if_neg hr)⟩
    rintro (h | h | h)
    · exact hc h
    · exact hx h
    · exact hr h

section Perform
variable (f : Fault) (n : ℕ) (st : PollState) (o : OrderRow) (k : KiteOrder) (w : StatusWrite)

@[simp] theorem perform_nil : perform f n [] st = st := by simp [perform]

@[simp] theorem perform_zero (as : List Action) : perform f 0 as st = st := rfl

@[simp] theorem perform_succ (a : Action) (as : List Action) :
    perform f (n + 1) (a :: as) st = perform f n as (act f st a) := rfl

def statusDone (st : PollState) : PollState :=
  if f.statusFails then st else { st with row := w.undisturbed st.row }

def creditDone (st : PollState) : PollState :=
  if f.creditFails then st
  else { st with credits := st.credits ++ [(fillKey o k, increment o k)] }

theorem perform_publish (q : ℤ) (p : ℚ) : perform f n [.publishFill q p] st = st := by
  cases n <;> simp [act]

theorem perform_statusFirst (q : ℤ) (p : ℚ) :
    perform f n (.status w :: (creditIncrement o k ++ [.publishFill q p])) st =
      if n = 0 then st else if n < 3 then statusDone f w st
      else creditDone f o k (statusDone f w st) := by
  obtain _ | _ | _ | n := n
  · rfl
  · rfl
  · rfl
  · rw [if_neg (by omega), if_neg (by omega)]
    exact perform_publish f n (creditDone f o k (statusDone f w st)) q p

theorem perform_quiet (as : List Action) (has : ∀ a ∈ as, ∀ st, act f st a = st) :
    perform f n as st = st := by
  induction as generalizing n with
  | nil => simp
  | cons a as ih =>
    cases n with
    | zero => rfl
    | succ n =>
      rw [perform_succ, has a List.mem_cons_self]
      exact ih n (fun b hb => has b (List.mem_cons_of_mem _ hb))

theorem perform_close (as : List Action) (has : ∀ a ∈ as, ∀ st, act f st a = st) :
    perform f n (.status w :: as) st = if n = 0 then st else statusDone f w st := by
  cases n with
  | zero => rfl
  | succ n =>
    rw [perform_succ, perform_quiet f n _ as has, if_neg (by omega)]
    rfl

theorem perform_statusLast (as : List Action) (has : ∀ a ∈ as, ∀ st, act f st a = st) :
    perform f n (creditIncrement o k ++ .status w :: as) st =
      if n < 2 then st else if n = 2 then creditDone f o k st
      else statusDone f w (creditDone f o k st) := by
  obtain _ | _ | _ | n := n
  · rfl
  · rfl
  · rfl
  · rw [if_neg (by omega), if_neg (by omega)]
    have h := perform_close f (n + 1) (creditDone f o k st) w as has
    rw [if_neg (by omega)] at h
    exact h

@[simp] theorem statusDone_credits : (statusDone f w st).credits = st.credits := by
  unfold statusDone
  split <;> rfl

@[simp] theorem creditDone_row : (creditDone f o k st).row = st.row := by
  unfold creditDone
  split <;> rfl

theorem statusDone_row :
    (statusDone f w st).row = if f.statusFails then st.row else w.undisturbed st.row := by
  unfold statusDone
  split <;> rfl

theorem creditDone_credits :
    (creditDone f o k st).credits = if f.creditFails then st.credits
      else st.credits ++ [(fillKey o k, increment o k)] := by
  unfold creditDone
  split <;> rfl

end Perform

section Cycle
variable (st : PollState) (c : KiteOrder × Fault)

/-- The broker's fill is larger than the stored one. -/
def Grows : Prop := st.row.filledQuantity < c.1.filledQuantity

/-- The fill record of this view of the order is in the table. -/
def Recorded : Prop := fillKey st.row c.1 ∈ st.fills

/-- The cycle gets its position update through. -/
def Credits : Prop :=
  st.row.Tracked ∧ (c.1.Terminal ∨ c.1.Partial) ∧ Grows st c ∧ ¬ Recorded st c ∧
    (if c.1.Ended then 3 else 4) ≤ c.2.reached ∧ c.2.creditFails = false

/-- The cycle gets its status write through. -/
def Stores : Prop :=
  st.row.Tracked ∧ c.2.statusFails = false ∧
    ((c.1.Complete ∧ ¬ Recorded st c ∧ 2 ≤ c.2.reached) ∨
      (¬ c.1.Complete ∧ c.1.Partial ∧ Grows st c ∧ ¬ Recorded st c ∧ 2 ≤ c.2.reached) ∨
      (c.1.Ended ∧ Grows st c ∧ Recorded st c ∧ 2 ≤ c.2.reached) ∨
      (c.1.Ended ∧ Grows st c ∧ ¬ Recorded st c ∧ 4 ≤ c.2.reached) ∨
      (c.1.Ended ∧ ¬ Grows st c ∧ 1 ≤ c.2.reached))

/-- All a cycle does to the position and to the row. -/
structure Effect (st' : PollState) : Prop where
  credited : Credits st c → st'.credits =
    st.credits ++ [(fillKey st.row c.1, c.1.filledQuantity - st.row.filledQuantity)]
  uncredited : ¬ Credits st c → st'.credits = st.credits
  kept : ¬ Stores st c → st'.row = st.row
  stored : Stores st c → ∃ w : StatusWrite, st'.row = w.undisturbed st.row ∧
    (w.filledQuantity = c.1.filledQuantity ∨
      w.filledQuantity = max c.1.filledQuantity st.row.filledQuantity) ∧
    (w.newStatus = .partiallyFilled ∨ c.1.Terminal)

end Cycle

theorem Handler.run_gate {h : Handler} (key : FillKey) (hg : h.gate = some key) (f : Fault)
    (st : PollState) :
    h.run f st = if f.reached = 0 then st
      else if key ∈ st.fills then perform f (f.reached - 1) h.seen st
      else perform f (f.reached - 1) h.fresh { st with fills := key :: st.fills } := by
  unfold Handler.run
  rw [hg]

section Effects
variable {st : PollState} {k : KiteOrder} {f : Fault}

theorem effect_quiet {st' : PollState} (hc : ¬ Credits st (k, f)) (hs : ¬ Stores st (k, f))
    (hcr : st'.credits = st.credits) (hrow : st'.row = st.row) : Effect st (k, f) st' :=
  ⟨fun h => absurd h hc, fun _ => hcr, fun _ => hrow, fun h => absurd h hs⟩

/-- A handler that has just written its fill record, status first. -/
theorem effect_statusFirst (ht : st.row.Tracked) (hk : ¬ Recorded st (k, f))
    (hg : Grows st (k, f)) (hne : ¬ k.Ended) (hkind : k.Terminal ∨ k.Partial)
    (w : StatusWrite) (hw : w.filledQuantity = k.filledQuantity)
    (hws : w.newStatus = .partiallyFilled ∨ k.Terminal) (q : ℤ) (p : ℚ) :
    Effect st (k, f) (perform f (f.reached - 1)
      (.status w :: (creditIncrement st.row k ++ [.publishFill q p]))
      { st with fills := fillKey st.row k :: st.fills }) := by
  have hcred : Credits st (k, f) ↔ 4 ≤ f.reached ∧ f.creditFails = false := by
    simp [Credits, ht, hk, hg, hne, hkind]
  have hstor : Stores st (k, f) ↔ f.statusFails = false ∧ 2 ≤ f.reached := by
    by_cases hc : k.Complete
    · simp [Stores, ht, hk, hg, hne, hc]
    · have hp : k.Partial := hkind.resolve_left (by
        rintro (h | h)
        · exact hc h
        · exact hne h)
      simp [Stores, ht, hk, hg, hne, hc, hp]
  rw [perform_statusFirst]
  refine ⟨?_, ?_, ?_, ?_⟩
  · intro h
    obtain ⟨h4, hf⟩ := hcred.mp h
    rw [if_neg (by omega), if_neg (by omega), creditDone_credits, statusDone_credits, hf]
    rfl
  · intro h
    by_cases h1 : f.reached - 1 = 0
    · rw [if_pos h1]
    · by_cases h3 : f.reached - 1 < 3
      · rw [if_neg h1, if_pos h3, statusDone_credits]
      · have hf : f.creditFails = true := by
          by_contra hf
          exact h (hcred.mpr ⟨by omega, by simpa using hf⟩)
        rw [if_neg h1, if_neg h3, creditDone_credits, statusDone_credits, hf]
        rfl
  · intro h
    by_cases h1 : f.reached - 1 = 0
    · rw [if_pos h1]
    · have hf : f.statusFails = true := by
        by_contra hf
        exact h (hstor.mpr ⟨by simpa using hf, by omega⟩)
      rw [if_neg h1]
      by_cases h3 : f.reached - 1 < 3
      · rw [if_pos h3, statusDone_row, hf]
        rfl
      · rw [if_neg h3, creditDone_row, statusDone_row, hf]
        rfl
  · intro h
    obtain ⟨hf, h2⟩ := hstor.mp h
    refine ⟨w, ?_, Or.inl hw, hws⟩
    rw [if_neg (by omega)]
    by_cases h3 : f.reached - 1 < 3
    · rw [if_pos h3, statusDone_row, hf]
      rfl
    · rw [if_neg h3, creditDone_row, statusDone_row, hf]
      rfl

/-- A handler that has nothing to credit and closes with the status. -/
theorem effect_close {n : ℕ} (hcred : ¬ Credits st (k, f))
    (hstor : Stores st (k, f) ↔ f.statusFails = false ∧ 1 ≤ n) (w : StatusWrite)
    (hw : w.filledQuantity = k.filledQuantity ∨
      w.filledQuantity = max k.filledQuantity st.row.filledQuantity)
    (hws : k.Terminal) (as : List Action) (has : ∀ a ∈ as, ∀ st, act f st a = st)
    {base : PollState} (hrow : base.row = st.row) (hcr : base.credits = st.credits) :
    Effect st (k, f) (perform f n (.status w :: as) base) := by
  rw [perform_close _ _ _ _ _ has]
  refine ⟨fun h => absurd h hcred, ?_, ?_, ?_⟩
  · intro _
    by_cases hn : n = 0
    · rw [if_pos hn, hcr]
    · rw [if_neg hn, statusDone_credits, hcr]
  · intro h
    by_cases hn : n = 0
    · rw [if_pos hn, hrow]
    · have hf : f.statusFails = true := by
        by_contra hf
        exact h (hstor.mpr ⟨by simpa using hf, by omega⟩)
      rw [if_neg hn, statusDone_row, hf, hrow]
      rfl
  · intro h
    obtain ⟨hf, hn⟩ := hstor.mp h
    refine ⟨w, ?_, hw, Or.inr hws⟩
    rw [if_neg (by omega), statusDone_row, hf, hrow]
    rfl

/-- A handler that has just written its fill record, status last. -/
theorem effect_statusLast (ht : st.row.Tracked) (hk : ¬ Recorded st (k, f))
    (hg : Grows st (k, f)) (he : k.Ended) (w : StatusWrite)
    (hw : w.filledQuantity = max k.filledQuantity st.row.filledQuantity)
    (as : List Action) (has : ∀ a ∈ as, ∀ st, act f st a = st) :
    Effect st (k, f) (perform f (f.reached - 1)
      (creditIncrement st.row k ++ .status w :: as)
      { st with fills := fillKey st.row k :: st.fills }) := by
  have hterm : k.Terminal := Or.inr he
  have hcred : Credits st (k, f) ↔ 3 ≤ f.reached ∧ f.creditFails = false := by
    simp [Credits, ht, hk, hg, he, hterm]
  have hstor : Stores st (k, f) ↔ f.statusFails = false ∧ 4 ≤ f.reached := by
    simp [Stores, ht, hk, hg, he, he.not_complete, he.not_partial]
  rw [perform_statusLast _ _ _ _ _ _ _ has]
  refine ⟨?_, ?_, ?_, ?_⟩
  · intro h
    obtain ⟨h3, hf⟩ := hcred.mp h
    by_cases h2 : f.reached - 1 = 2
    · rw [if_neg (by omega), if_pos h2, creditDone_credits, hf]
      rfl
    · rw [if_neg (by omega), if_neg h2, statusDone_credits, creditDone_credits, hf]
      rfl
  · intro h
    by_cases h1 : f.reached - 1 < 2
    · rw [if_pos h1]
    · have hf : f.creditFails = true := by
        by_contra hf
        exact h (hcred.mpr ⟨by omega, by simpa using hf⟩)
      rw [if_neg h1]
      by_cases h2 : f.reached - 1 = 2
      · rw [if_pos h2, creditDone_credits, hf]
        rfl
      · rw [if_neg h2, statusDone_credits, creditDone_credits, hf]
        rfl
  · intro h
    by_cases h1 : f.reached - 1 < 2
    · rw [if_pos h1]
    · rw [if_neg h1]
      by_cases h2 : f.reached - 1 = 2
      · rw [if_pos h2, creditDone_row]
      · have hf : f.statusFails = true := by
          by_contra hf
          exact h (hstor.mpr ⟨by simpa using hf, by omega⟩)
        rw [if_neg h2, statusDone_row, creditDone_row, hf]
        rfl
  · intro h
    obtain ⟨hf, h4⟩ := hstor.mp h
    refine ⟨w, ?_, Or.inr hw, Or.inr hterm⟩
    rw [if_neg (by omega), if_neg (by omega), statusDone_row, creditDone_row, hf]
    rfl

theorem effect_handleFill (ht : st.row.Tracked) (hc : k.Complete) :
    Effect st (k, f) ((handleFill st.row k).run f st) := by
  have hterm : k.Terminal := Or.inl hc
  have hne : ¬ k.Ended := fun h => h.not_complete hc
  rw [Handler.run_gate (fillKey st.row k) rfl]
  by_cases hr : f.reached = 0
  · rw [if_pos hr]
    exact effect_quiet (by simp [Credits, hr, hne]) (by simp [Stores, hr, hne]) rfl rfl
  rw [if_neg hr]
  by_cases hk : fillKey st.row k ∈ st.fills
  · have hrec : Recorded st (k, f) := hk
    rw [if_pos hk]
    exact effect_quiet (by simp [Credits, hrec]) (by simp [Stores, hrec, hne, hc])
      (by simp [handleFill]) (by simp [handleFill])
  have hrec : ¬ Recorded st (k, f) := hk
  rw [if_neg hk]
  by_cases hg : Grows st (k, f)
  · have hinc : max 0 (increment st.row k) > 0 := lt_max_of_lt_right (sub_pos.mpr hg)
    have hfresh : (handleFill st.row k).fresh = .status (pollFillWrite (k.report .filled)) ::
        (creditIncrement st.row k ++
          [.publishFill (truncate (max 0 (increment st.row k))) (incrementPrice st.row k)]) := by
      simp only [handleFill, if_pos hinc]
      rfl
    rw [hfresh]
    exact effect_statusFirst ht hrec hg hne (Or.inl hterm) _ rfl (Or.inr hterm) _ _
  · have hinc : ¬ max 0 (increment st.row k) > 0 := by
      have hle : increment st.row k ≤ 0 := sub_nonpos.mpr (not_lt.mp hg)
      simp [max_eq_left hle]
    have hfresh : (handleFill st.row k).fresh = .status (pollFillWrite (k.report .filled)) ::
        [.publishFill (truncate (max 0 (increment st.row k))) (incrementPrice st.row k)] := by
      simp only [handleFill, if_neg hinc]
      rfl
    rw [hfresh]
    refine effect_close (by simp [Credits, hg]) ?_ _ (Or.inl rfl) hterm _ ?_ rfl rfl
    · simp only [Stores, ht, hc, hrec, hne, hg]
      simp
      omega
    · intro a ha st'
      rw [List.mem_singleton.mp ha]
      rfl

theorem effect_handlePartial (ht : st.row.Tracked) (hp : k.Partial)
    (hg : Grows st (k, f)) : Effect st (k, f) ((handlePartial st.row k).run f st) := by
  have hne : ¬ k.Ended := fun h => h.not_partial hp
  have hh : handlePartial st.row k = _ := if_neg (not_le.mpr hg)
  rw [hh, Handler.run_gate (fillKey st.row k) rfl]
  by_cases hr : f.reached = 0
  · rw [if_pos hr]
    exact effect_quiet (by simp [Credits, hr, hne]) (by simp [Stores, hr, hne]) rfl rfl
  rw [if_neg hr]
  by_cases hk : fillKey st.row k ∈ st.fills
  · have hrec : Recorded st (k, f) := hk
    rw [if_pos hk]
    exact effect_quiet (by simp [Credits, hrec]) (by simp [Stores, hrec, hne]) (by simp) (by simp)
  · rw [if_neg hk]
    exact effect_statusFirst ht hk hg hne (Or.inr hp) _ rfl (Or.inl rfl) _ _

theorem effect_handleTerminal (ht : st.row.Tracked) (he : k.Ended) (s : OrderStatus) :
    Effect st (k, f) ((handleTerminal st.row k s).run f st) := by
  have hterm : k.Terminal := Or.inr he
  have hquiet (a : Action) (ha : a ∈ if s = .rejected then [Action.publishRejection
      (if k.statusMessage = "" then "broker_rejected" else k.statusMessage)] else []) :
      ∀ st, act f st a = st := by
    split at ha
    · rw [List.mem_singleton.mp ha]
      exact fun _ => rfl
    · exact absurd ha List.not_mem_nil
  by_cases hg : Grows st (k, f)
  · have hh : handleTerminal st.row k s = _ := if_pos hg
    rw [hh, Handler.run_gate (fillKey st.row k) rfl]
    by_cases hr : f.reached = 0
    · rw [if_pos hr]
      exact effect_quiet (by simp [Credits, hr, he]) (by simp [Stores, hr, hg]) rfl rfl
    rw [if_neg hr]
    by_cases hk : fillKey st.row k ∈ st.fills
    · have hrec : Recorded st (k, f) := hk
      rw [if_pos hk]
      refine effect_close (by simp [Credits, hrec]) ?_ _ (Or.inr rfl) hterm _ hquiet rfl rfl
      simp only [Stores, ht, he, hrec, hg, he.not_complete, he.not_partial]
      simp
      omega
    · rw [if_neg hk]
      exact effect_statusLast ht hk hg he _ rfl _ hquiet
  · have hh : handleTerminal st.row k s = _ := if_neg hg
    rw [hh]
    refine effect_close (by simp [Credits, hg]) ?_ _ (Or.inr rfl) hterm _ hquiet rfl rfl
    simp [Stores, ht, he, hg, he.not_complete]

theorem pollCycle_effect (st : PollState) (c : KiteOrder × Fault) :
    Effect st c (pollCycle st c) := by
  obtain ⟨k, f⟩ := c
  by_cases ht : st.row.Tracked
  · have hrun : pollCycle st (k, f) = (dispatch st.row k).run f st := if_pos ht
    rw [hrun]
    obtain ⟨hc, hd⟩ | ⟨_, hp, hg, hd⟩ | ⟨he, s, _, hd⟩ | ⟨hterm, hpart, hd⟩ :=
      dispatch_cases st.row k <;> rw [hd]
    · exact effect_handleFill ht hc
    · exact effect_handlePartial ht hp hg
    · exact effect_handleTerminal ht he s
    · have hc : ¬ k.Complete := fun h => hterm (Or.inl h)
      have he : ¬ k.Ended := fun h => hterm (Or.inr h)
      refine effect_quiet ?_ ?_ (by simp [Handler.run, Handler.idle])
        (by simp [Handler.run, Handler.idle])
      · rintro ⟨_, hkind, hg, _⟩
        exact hpart ⟨hkind.resolve_left hterm, hg⟩
      · simp only [Stores, hc, he, false_and, false_or, or_false, not_false_eq_true, true_and]
        rintro ⟨_, _, hp, hg, _⟩
        exact hpart ⟨hp, hg⟩
  · have hrun : pollCycle st (k, f) = st := if_neg ht
    rw [hrun]
    exact effect_quiet (fun h => ht h.1) (fun h => ht h.1) rfl rfl

end Effects

/-- The broker's view of one order over time: the filled quantity never drops, and
an order that has ended does not change any more. -/
structure Follows (a b : KiteOrder) : Prop where
  grows : a.filledQuantity ≤ b.filledQuantity
  ended : a.Terminal → b.status = a.status ∧ b.filledQuantity = a.filledQuantity

theorem Follows.terminal {a b : KiteOrder} (h : Follows a b) (ha : a.Terminal) : b.Terminal := by
  unfold KiteOrder.Terminal KiteOrder.Complete KiteOrder.Ended at ha ⊢
  rwa [(h.ended ha).1]

/-- No step of the cycle leaves the three writes at odds: an increment that is stored
is credited too, none is credited on top of one that is not stored, and the last view
of the order does not meet a fill record without its credit. -/
structure CycleOk (st : PollState) (c : KiteOrder × Fault) : Prop where
  paired : Stores st c → Grows st c → ¬ Recorded st c → Credits st c
  inOrder : Credits st c → ∀ e ∈ st.credits, e.1.filledQuantity ≤ st.row.filledQuantity
  notBurnt : st.row.Tracked → c.1.Terminal → Grows st c → Recorded st c →
    ∃ e ∈ st.credits, e.1 = fillKey st.row c.1

/-- What is credited is what the order row holds or runs ahead of it, and never more
than the broker's last view `k`. -/
structure Tally (st : PollState) (k : KiteOrder) : Prop where
  nonneg : 0 ≤ st.row.filledQuantity
  stored : st.row.filledQuantity ≤ st.credited
  book : st.credited ≤ k.filledQuantity
  keys : ∀ e ∈ st.credits, e.1.filledQuantity ≤ st.credited
  attained : st.credited = 0 ∨ ∃ e ∈ st.credits, e.1.filledQuantity = st.credited
  closed : ¬ st.row.Tracked → k.Terminal ∧ st.row.filledQuantity = k.filledQuantity

theorem Tally.level {st : PollState} {k : KiteOrder} (h : Tally st k)
    (hle : ∀ e ∈ st.credits, e.1.filledQuantity ≤ st.row.filledQuantity) :
    st.credited = st.row.filledQuantity := by
  obtain hz | ⟨e, he, hq⟩ := h.attained
  · have hs := h.stored
    rw [hz] at hs ⊢
    exact le_antisymm h.nonneg hs
  · exact le_antisymm (hq ▸ hle e he) h.stored

section Tally
variable {st : PollState} {a k : KiteOrder} {f : Fault}

theorem Tally.credited_of_credits (h : Tally st a) (hok : CycleOk st (k, f))
    (hc : Credits st (k, f)) : (pollCycle st (k, f)).credited = k.filledQuantity := by
  have hcr := (pollCycle_effect st (k, f)).credited hc
  have hlevel := h.level (hok.inOrder hc)
  rw [PollState.credited] at hlevel ⊢
  rw [hcr, List.map_append, List.sum_append, hlevel]
  simp

theorem credited_of_not_credits (hc : ¬ Credits st (k, f)) :
    (pollCycle st (k, f)).credited = st.credited := by
  rw [PollState.credited, (pollCycle_effect st (k, f)).uncredited hc, PollState.credited]

/-- A status write that is not paired with a credit finds the quantity credited. -/
theorem Tally.credited_of_stores (h : Tally st a) (hok : CycleOk st (k, f))
    (hs : Stores st (k, f)) (hc : ¬ Credits st (k, f)) :
    k.filledQuantity ≤ st.credited := by
  by_cases hg : Grows st (k, f)
  · have hrec : Recorded st (k, f) := by
      by_contra hrec
      exact hc (hok.paired hs hg hrec)
    have hterm : k.Terminal := by
      obtain ⟨_, _, ⟨_, hn, _⟩ | ⟨_, _, _, hn, _⟩ | ⟨he, _⟩ | ⟨_, _, hn, _⟩ | ⟨_, hn, _⟩⟩ := hs
      · exact absurd hrec hn
      · exact absurd hrec hn
      · exact Or.inr he
      · exact absurd hrec hn
      · exact absurd hg hn
    obtain ⟨e, he, hkey⟩ := hok.notBurnt hs.1 hterm hg hrec
    have hle := h.keys e he
    rw [hkey] at hle
    exact hle
  · exact (not_lt.mp hg).trans h.stored

/-- The row after a cycle is the row before it, or holds the broker's quantity. -/
theorem Tally.row_cases (h : Tally st a) (hf : Follows a k) :
    (pollCycle st (k, f)).row = st.row ∨
      (Stores st (k, f) ∧ (pollCycle st (k, f)).row.filledQuantity = k.filledQuantity ∧
        ((pollCycle st (k, f)).row.Tracked ∨ k.Terminal)) := by
  by_cases hs : Stores st (k, f)
  · obtain ⟨w, hrow, hw, hkind⟩ := (pollCycle_effect st (k, f)).stored hs
    by_cases hv : isValidStatusTransition st.row.status w.newStatus = true
    · right
      rw [hrow, StatusWrite.undisturbed_valid hv]
      have hle : st.row.filledQuantity ≤ k.filledQuantity :=
        h.stored.trans (h.book.trans hf.grows)
      refine ⟨hs, ?_, ?_⟩
      · obtain hw | hw := hw
        · exact hw
        · rw [StatusWrite.set_filledQuantity, hw]
          exact max_eq_left hle
      · obtain hp | hterm := hkind
        · refine Or.inl ⟨?_, Or.inr hp⟩
          have hid := hs.1.1
          cases hb : w.brokerOrderId <;> simp [StatusWrite.set, hb, hid]
        · exact Or.inr hterm
    · left
      rw [hrow, StatusWrite.undisturbed, if_neg hv]
  · exact Or.inl ((pollCycle_effect st (k, f)).kept hs)

theorem pollCycle_untracked (ht : ¬ st.row.Tracked) : pollCycle st (k, f) = st := if_neg ht

/-- One cycle keeps the tally. -/
theorem Tally.cycle (h : Tally st a) (hf : Follows a k) (hok : CycleOk st (k, f)) :
    Tally (pollCycle st (k, f)) k := by
  have hbook : st.credited ≤ k.filledQuantity := h.book.trans hf.grows
  by_cases ht : st.row.Tracked
  · have hclosed (hn : ¬ (pollCycle st (k, f)).row.Tracked) : k.Terminal ∧
        (pollCycle st (k, f)).row.filledQuantity = k.filledQuantity := by
      obtain hrow | ⟨_, hq, hkind⟩ := h.row_cases (f := f) hf
      · rw [hrow] at hn
        exact absurd ht hn
      · exact ⟨hkind.resolve_left hn, hq⟩
    have hnonneg : 0 ≤ (pollCycle st (k, f)).row.filledQuantity := by
      obtain hrow | ⟨_, hq, _⟩ := h.row_cases (f := f) hf
      · rw [hrow]
        exact h.nonneg
      · rw [hq]
        exact h.nonneg.trans (h.stored.trans hbook)
    by_cases hc : Credits st (k, f)
    · have hcr := (pollCycle_effect st (k, f)).credited hc
      have hq := h.credited_of_credits hok hc
      refine ⟨hnonneg, ?_, hq.le, ?_, ?_, hclosed⟩
      · rw [hq]
        obtain hrow | ⟨_, hrow, _⟩ := h.row_cases (f := f) hf
        · rw [hrow]
          exact h.stored.trans hbook
        · exact hrow.le
      · intro e he
        rw [hcr, List.mem_append, List.mem_singleton] at he
        rw [hq]
        obtain he | rfl := he
        · exact (h.keys e he).trans hbook
        · exact le_rfl
      · right
        refine ⟨(fillKey st.row k, k.filledQuantity - st.row.filledQuantity), ?_, hq.symm⟩
        rw [hcr]
        exact List.mem_append_right _ List.mem_cons_self
    · have hcr := (pollCycle_effect st (k, f)).uncredited hc
      have hq : (pollCycle st (k, f)).credited = st.credited := credited_of_not_credits hc
      refine ⟨hnonneg, ?_, hq ▸ hbook, ?_, ?_, hclosed⟩
      · rw [hq]
        obtain hrow | ⟨hs, hrow, _⟩ := h.row_cases (f := f) hf
        · rw [hrow]
          exact h.stored
        · rw [hrow]
          exact h.credited_of_stores hok hs hc
      · rw [hq, hcr]
        exact h.keys
      · rw [hq, hcr]
        exact h.attained
  · obtain ⟨hterm, hq⟩ := h.closed ht
    obtain ⟨_, hsame⟩ := hf.ended hterm
    rw [pollCycle_untracked ht]
    exact ⟨h.nonneg, h.stored, hbook, h.keys, h.attained,
      fun _ => ⟨hf.terminal hterm, hq.trans hsame.symm⟩⟩

/-- A cycle without failure on the last view of the order credits all of it. -/
theorem Tally.settles (h : Tally st a) (hf : Follows a k) (hok : CycleOk st (k, Fault.none))
    (hterm : k.Terminal) : (pollCycle st (k, Fault.none)).credited = k.filledQuantity := by
  have hbook : st.credited ≤ k.filledQuantity := h.book.trans hf.grows
  by_cases hc : Credits st (k, Fault.none)
  · exact h.credited_of_credits hok hc
  · rw [credited_of_not_credits hc]
    refine le_antisymm hbook ?_
    by_cases ht : st.row.Tracked
    · by_cases hg : Grows st (k, Fault.none)
      · have hrec : Recorded st (k, Fault.none) := by
          by_contra hrec
          refine hc ⟨ht, Or.inl hterm, hg, hrec, ?_, rfl⟩
          split <;> simp [Fault.none]
        obtain ⟨e, he, hkey⟩ := hok.notBurnt ht hterm hg hrec
        have hle := h.keys e he
        rw [hkey] at hle
        exact hle
      · exact (not_lt.mp hg).trans h.stored
    · obtain ⟨hta, hq⟩ := h.closed ht
      rw [(hf.ended hta).2, ← hq]
      exact h.stored

/-- Nothing more is credited once all of it is. -/
theorem Tally.stays (h : Tally st a) (hf : Follows a k) (hok : CycleOk st (k, f))
    (hterm : a.Terminal) (hall : st.credited = a.filledQuantity) :
    (pollCycle st (k, f)).credited = k.filledQuantity := by
  by_cases hc : Credits st (k, f)
  · exact h.credited_of_credits hok hc
  · rw [credited_of_not_credits hc, hall, (hf.ended hterm).2]

theorem settled_run {cs : List (KiteOrder × Fault)} (h : Tally st a) (hterm : a.Terminal)
    (hall : st.credited = a.filledQuantity) (hbook : (a :: cs.map Prod.fst).IsChain Follows)
    (hok : StepsMeet pollCycle CycleOk st cs) :
    (cs.foldl pollCycle st).credited = a.filledQuantity := by
  induction cs generalizing st a with
  | nil => exact hall
  | cons c cs ih =>
    obtain ⟨k, f⟩ := c
    obtain ⟨hf, hbook'⟩ := List.isChain_cons_cons.mp hbook
    have hrest := ih (h.cycle hf hok.1) (hf.terminal hterm) (h.stays hf hok.1 hterm hall)
      hbook' hok.2
    exact hrest.trans (hf.ended hterm).2

theorem credited_run {cs : List (KiteOrder × Fault)} (h : Tally st a)
    (hbook : (a :: cs.map Prod.fst).IsChain Follows) (hok : StepsMeet pollCycle CycleOk st cs)
    (hterm : k.Terminal) (hk : (k, Fault.none) ∈ cs) :
    (cs.foldl pollCycle st).credited = k.filledQuantity := by
  induction cs generalizing st a with
  | nil => exact absurd hk List.not_mem_nil
  | cons c cs ih =>
    obtain ⟨k', f⟩ := c
    obtain ⟨hf, hbook'⟩ := List.isChain_cons_cons.mp hbook
    have hnext : Tally (pollCycle st (k', f)) k' := h.cycle hf hok.1
    obtain he | hmem := List.mem_cons.mp hk
    · obtain ⟨rfl, rfl⟩ := Prod.mk.inj he
      have hrest : (cs.foldl pollCycle (pollCycle st (k, Fault.none))).credited = _ :=
        settled_run hnext hterm (h.settles hf hok.1 hterm) hbook' hok.2
      exact hrest
    · exact ih hnext hbook' hok.2 hmem

end Tally

/-- An order the broker has taken and not filled, as the first snapshot may find it. -/
def openOrder : KiteOrder := ⟨"OPEN", 0, 0, ""⟩

structure Placed (st : PollState) : Prop where
  status : st.row.status = .placed
  brokerOrderId : st.row.brokerOrderId ≠ none
  unfilled : st.row.filledQuantity = 0
  uncredited : st.credits = []

theorem Placed.tally {st : PollState} (h : Placed st) : Tally st openOrder := by
  have hz : st.credited = 0 := by simp [PollState.credited, h.uncredited]
  refine ⟨h.unfilled.ge, ?_, ?_, ?_, Or.inl hz, ?_⟩
  · rw [h.unfilled, hz]
  · rw [hz]
    exact le_rfl
  · simp [h.uncredited]
  · exact fun hn => absurd ⟨h.brokerOrderId, Or.inl h.status⟩ hn

/-- However its cycles stop or fail within `CycleOk`, once the poller has gone through
the order's last view without failure the position has been credited with exactly the
final filled quantity. -/
theorem fills_credited_exactly_once {st : PollState} {cs : List (KiteOrder × Fault)}
    (hst : Placed st) (hbook : (openOrder :: cs.map Prod.fst).IsChain Follows)
    (hok : StepsMeet pollCycle CycleOk st cs) {k : KiteOrder} (hterm : k.Terminal)
    (hk : (k, Fault.none) ∈ cs) :
    (cs.foldl pollCycle st).credited = k.filledQuantity :=
  credited_run hst.tally hbook hok hterm hk

def placedState : PollState where
  row := { OrderRow.reserved with status := .placed, brokerOrderId := some "B1" }
  fills := []
  credits := []

theorem placedState_placed : Placed placedState := ⟨rfl, nofun, rfl, rfl⟩

def completed : KiteOrder := ⟨"COMPLETE", 10, 100, ""⟩

theorem completed_terminal : completed.Terminal := by
  refine Or.inl ?_
  unfold KiteOrder.Complete
  decide +kernel

theorem open_follows_completed : Follows openOrder completed where
  grows := by norm_num [openOrder, completed]
  ended h := by
    exfalso
    revert h
    unfold KiteOrder.Terminal
    decide +kernel

theorem completed_cycleOk : CycleOk placedState (completed, Fault.none) where
  paired _ hg hrec := by
    refine ⟨⟨nofun, Or.inl rfl⟩, Or.inl completed_terminal, hg, hrec, ?_, rfl⟩
    split <;> simp [Fault.none]
  inOrder _ e he := absurd he List.not_mem_nil
  notBurnt _ _ _ hrec := absurd hrec List.not_mem_nil

theorem fills_credited_exactly_once_complete :
    ([(completed, Fault.none)].foldl pollCycle placedState).credited = 10 := by
  have hbook : (openOrder :: [(completed, Fault.none)].map Prod.fst).IsChain Follows :=
    List.isChain_cons_cons.mpr ⟨open_follows_completed, List.isChain_singleton _⟩
  exact fills_credited_exactly_once placedState_placed hbook ⟨completed_cycleOk, trivial⟩
    completed_terminal List.mem_cons_self

/-- A crash between the fill record and the status: the next cycle finds the record,
takes the fill for a duplicate and credits nothing, as do all later ones. -/
theorem crash_after_fill_record_loses_fill :
    ¬ ∀ (st : PollState) (cs : List (KiteOrder × Fault)) (k : KiteOrder), Placed st →
      (openOrder :: cs.map Prod.fst).IsChain Follows → k.Terminal → (k, Fault.none) ∈ cs →
      (cs.foldl pollCycle st).credited = k.filledQuantity := by
  intro hall
  have hsame : Follows completed completed := ⟨le_rfl, fun _ => ⟨rfl, rfl⟩⟩
  have hc := hall placedState [(completed, ⟨1, false, false⟩), (completed, Fault.none)] completed
    placedState_placed
    (List.isChain_cons_cons.mpr ⟨open_follows_completed,
      List.isChain_cons_cons.mpr ⟨hsame, List.isChain_singleton _⟩⟩)
    completed_terminal (by simp)
  revert hc
  decide +kernel

end QuantEmbrace
