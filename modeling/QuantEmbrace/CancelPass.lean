import QuantEmbrace.CircuitBreaker
import QuantEmbrace.Reconciliation

/-! `_cancel_open_orders_for_kill_switch`: one task for each open order, all of them with the
one retry handler, whatever the handler went through before. -/
namespace QuantEmbrace
open GuardedRun
variable {ι : Type*}

/-- `_cancel_one_open_order_for_kill_switch` gets to the broker with the order. -/
def StoredOrder.CancelledAtBroker (o : StoredOrder) : Prop :=
  (cancelOneOpenOrder o "" none).2 ≠ []

instance (o : StoredOrder) : Decidable o.CancelledAtBroker := inferInstanceAs (Decidable (_ ≠ _))

theorem StoredOrder.cancelledAtBroker_iff (o : StoredOrder) :
    o.CancelledAtBroker ↔ ¬ o.IsProtectiveOrder ∧ o.brokerOrderId ≠ "" := by
  unfold CancelledAtBroker cancelOneOpenOrder
  by_cases hprotective : o.IsProtectiveOrder
  · simp [hprotective]
  · by_cases hid : o.brokerOrderId = ""
    · by_cases hpending : o.row.status = .pending <;> simp [hprotective, hid, hpending]
    · simp [hprotective, hid]

/-- Where the task of one order stands; an NSE order passes the limiter on its way to the
retry handler, for as long as it takes. -/
inductive CancelTask where
  | created
  | limiting
  | executing
  | left
  deriving DecidableEq, Repr

structure CancelWorld (ι : Type*) where
  tasks : ι → CancelTask
  retry : RetryWorld ι

inductive CancelEvent (ι : Type*) where
  | begin (i : ι)
  | grant (i : ι)
  | retry (e : RetryEvent ι)

namespace RetryTask

def attempts : RetryTask → ℕ
  | idle => 0
  | calling k _ | sleeping k _ | returned k | raised k _ => k

def Ended : RetryTask → Prop
  | returned _ | raised _ _ => True
  | _ => False

instance : DecidablePred Ended
  | returned _ | raised _ _ => isTrue trivial
  | idle | calling _ _ | sleeping _ _ => isFalse id

theorem eq_of_upcoming {t : RetryTask} {now : ℚ} {k : ℕ} (h : t.upcoming now = some k) :
    k = t.attempts + 1 := by
  cases t with
  | idle => exact (Option.some.inj h).symm
  | sleeping attempt wake =>
    simp only [upcoming] at h
    split at h
    · exact (Option.some.inj h).symm
    · cases h
  | _ => cases h

end RetryTask

namespace CancelWorld

def start (circuit : Circuit) (now : ℚ) : CancelWorld ι :=
  ⟨fun _ => .created, .start circuit now⟩

variable [DecidableEq ι] (cfg : RetryConfig) (orders : ι → StoredOrder) (w : CancelWorld ι)

def setTask (i : ι) (t : CancelTask) : CancelWorld ι :=
  { w with tasks := Function.update w.tasks i t }

def next : CancelEvent ι → CancelWorld ι
  | .begin i =>
    if w.tasks i ≠ .created then w
    else if ¬ (orders i).CancelledAtBroker then w.setTask i .left
    else if (orders i).market = .nse then w.setTask i .limiting
    else w.setTask i .executing
  | .grant i => if w.tasks i = .limiting then w.setTask i .executing else w
  | .retry (.check i) =>
    if w.tasks i = .executing then { w with retry := w.retry.next cfg (.check i) } else w
  | .retry e => { w with retry := w.retry.next cfg e }

/-- `gather` has returned. -/
def Finished : Prop :=
  ∀ i, w.tasks i = .left ∨ (w.tasks i = .executing ∧ (w.retry.tasks i).Ended)

instance [Fintype ι] : Decidable w.Finished := inferInstanceAs (Decidable (∀ _, _ ∨ _ ∧ _))

/-- The broker's cancel has been called for the order. -/
def Called (i : ι) : Prop := 0 < (w.retry.tasks i).attempts

instance (i : ι) : Decidable (w.Called i) := inferInstanceAs (Decidable (_ < _))

/-- The first attempt for the order is not turned away. -/
def Admits (i : ι) : CancelEvent ι → Prop
  | .retry (.check j) => j = i → w.tasks i = .executing → w.retry.tasks i = .idle →
      ¬ w.retry.circuit.Rejects cfg w.retry.now
  | _ => True

end CancelWorld

namespace RetryWorld
variable [DecidableEq ι] {cfg : RetryConfig} {w : RetryWorld ι} {i : ι} {e : RetryEvent ι}

theorem attempt_tasks_of_ne {j : ι} (hji : j ≠ i) (k : ℕ) :
    (w.attempt cfg i k).tasks j = w.tasks j := by
  unfold attempt
  split
  · exact Function.update_of_ne hji ..
  · split <;> exact Function.update_of_ne hji ..

variable (cfg w i) in
/-- What a check makes of its task. -/
theorem attempt_tasks_self (k : ℕ) :
    (w.circuit.Rejects cfg w.now ∧
      ∃ remaining, (w.attempt cfg i k).tasks i = .raised (k - 1) (.circuitBreakerOpen remaining)) ∨
    (¬ w.circuit.Rejects cfg w.now ∧
      (k ≤ cfg.maxRetries → ∃ probe, (w.attempt cfg i k).tasks i = .calling k probe) ∧
      (cfg.maxRetries < k → (w.attempt cfg i k).tasks i = .raised (k - 1) .noException)) := by
  have herror := w.circuit.checkCircuit_error_iff cfg w.now
  unfold attempt
  split
  · next remaining hc =>
    exact Or.inl ⟨herror.mp ⟨remaining, hc⟩, remaining, Function.update_self ..⟩
  · next c hc =>
    right
    refine ⟨fun hrejects => ?_, fun hk => ?_, fun hk => ?_⟩
    · obtain ⟨_, h⟩ := herror.mpr hrejects
      cases hc.symm.trans h
    · rw [if_pos hk]
      exact ⟨_, Function.update_self ..⟩
    · rw [if_neg hk.not_ge]
      exact Function.update_self ..

variable (cfg w i e) in
/-- A task moves by the outcome of its call, or by its own check. -/
theorem tasks_next : (w.next cfg e).tasks i = w.tasks i ∨
    (∃ k probe, w.tasks i = .calling k probe ∧ ((w.next cfg e).tasks i).attempts = k) ∨
    ∃ k, e = .check i ∧ (w.tasks i).upcoming w.now = some k ∧ w.next cfg e = w.attempt cfg i k := by
  cases e with
  | advance t => exact Or.inl rfl
  | check j =>
    simp only [next]
    split
    · next k hk =>
      by_cases hij : i = j
      · subst hij
        exact Or.inr (Or.inr ⟨k, rfl, hk, rfl⟩)
      · exact Or.inl (attempt_tasks_of_ne hij k)
    · exact Or.inl rfl
  | succeed j | abort j =>
    simp only [next]
    split
    · next k probe hj =>
      by_cases hij : i = j
      · subst hij
        exact Or.inr (Or.inl ⟨k, probe, hj, by simp [setTask, RetryTask.attempts]⟩)
      · exact Or.inl (Function.update_of_ne hij ..)
    · exact Or.inl rfl
  | fail j =>
    simp only [next]
    split
    · next k probe hj =>
      by_cases hij : i = j
      · subst hij
        refine Or.inr (Or.inl ⟨k, probe, hj, ?_⟩)
        simp only [setTask, Function.update_self]
        split <;> rfl
      · exact Or.inl (Function.update_of_ne hij ..)
    · exact Or.inl rfl

/-- A task that has called has called ever after. -/
theorem attempts_next_pos (h : 0 < (w.tasks i).attempts) :
    0 < ((w.next cfg e).tasks i).attempts := by
  obtain hsame | ⟨k, probe, hcalling, hk⟩ | ⟨k, _, hk, hnext⟩ :=
    tasks_next cfg w i e
  · rwa [hsame]
  · rw [hcalling] at h
    rwa [hk]
  · have hk := RetryTask.eq_of_upcoming hk
    rw [hnext]
    obtain ⟨_, remaining, htask⟩ | ⟨_, hcall, hnone⟩ :=
      attempt_tasks_self cfg w i k
    · rw [htask, hk]
      exact h
    · obtain hle | hlt := le_or_gt k cfg.maxRetries
      · obtain ⟨probe, htask⟩ := hcall hle
        rw [htask, hk]
        exact Nat.succ_pos _
      · rw [hnone hlt, hk]
        exact h

theorem raised_next {k : ℕ} {error : RetryError} (h : w.tasks i = .raised k error) :
    (w.next cfg e).tasks i = .raised k error := by
  obtain hsame | ⟨_, _, hcalling, _⟩ | ⟨_, _, hk, _⟩ :=
    tasks_next cfg w i e
  · rwa [hsame]
  · cases h.symm.trans hcalling
  · rw [h] at hk
    cases hk

end RetryWorld

namespace CancelWorld
variable [DecidableEq ι] {cfg : RetryConfig} {orders : ι → StoredOrder} {w : CancelWorld ι}
  {i : ι} {e : CancelEvent ι}

variable (cfg orders w e) in
/-- The handler makes a step of its own, or none. -/
theorem retry_next : (w.next cfg orders e).retry = w.retry ∨
    ∃ re, e = .retry re ∧ (∀ j, re = .check j → w.tasks j = .executing) ∧
      (w.next cfg orders e).retry = w.retry.next cfg re := by
  cases e with
  | begin j =>
    left
    simp only [next]
    split
    · rfl
    · split
      · rfl
      · split <;> rfl
  | grant j =>
    left
    simp only [next]
    split <;> rfl
  | retry re =>
    cases re with
    | check j =>
      simp only [next]
      split
      · next hj => exact Or.inr ⟨_, rfl, fun _ heq => by cases heq; exact hj, rfl⟩
      · exact Or.inl rfl
    | _ => exact Or.inr ⟨_, rfl, nofun, rfl⟩

theorem Called.next (h : w.Called i) : (w.next cfg orders e).Called i := by
  obtain hsame | ⟨re, _, _, hnext⟩ := retry_next cfg orders w e
  · rwa [Called, hsame]
  · rw [Called, hnext]
    exact RetryWorld.attempts_next_pos h

omit [DecidableEq ι] in
theorem Called.admits (h : w.Called i) : Admits cfg w i e := by
  cases e with
  | retry re =>
    cases re with
    | check j =>
      intro _ _ hidle
      rw [Called, hidle] at h
      exact absurd h (lt_irrefl 0)
    | _ => trivial
  | _ => trivial

variable (cfg orders) in
theorem Called.run (h : w.Called i) (es : List (CancelEvent ι)) :
    (es.foldl (CancelWorld.next cfg orders) w).Called i ∧
      StepsMeet (CancelWorld.next cfg orders) (fun w => w.Admits cfg i) w es := by
  induction es generalizing w with
  | nil => exact ⟨h, trivial⟩
  | cons e es ih =>
    obtain ⟨hcalled, hmeets⟩ := ih (h.next (e := e))
    exact ⟨hcalled, h.admits, hmeets⟩

theorem raised_run {error : RetryError} (h : w.retry.tasks i = .raised 0 error)
    (es : List (CancelEvent ι)) : ¬ (es.foldl (next cfg orders) w).Called i := by
  induction es generalizing w with
  | nil =>
    rw [List.foldl_nil, Called, h]
    exact lt_irrefl 0
  | cons e es ih =>
    refine ih ?_
    obtain hsame | ⟨re, _, _, hnext⟩ := retry_next cfg orders w e
    · rwa [hsame]
    · rw [hnext]
      exact RetryWorld.raised_next h

variable (orders e) in
/-- A task that has not called yet waits, calls, or is turned away. -/
theorem idle_next (hmax : 0 < cfg.maxRetries) (h : w.retry.tasks i = .idle) :
    (w.Admits cfg i e ∧ (w.next cfg orders e).retry.tasks i = .idle) ∨
    (w.Admits cfg i e ∧ (w.next cfg orders e).Called i) ∨
    (¬ w.Admits cfg i e ∧
      ∃ error, (w.next cfg orders e).retry.tasks i = .raised 0 error) := by
  by_cases hcheck : e = .retry (.check i) ∧ w.tasks i = .executing
  · obtain ⟨rfl, hexec⟩ := hcheck
    have hnext : (w.next cfg orders (.retry (.check i))).retry = w.retry.attempt cfg i 1 := by
      simp only [next, if_pos hexec, RetryWorld.next, h, RetryTask.upcoming]
    rw [Called, hnext]
    obtain ⟨hrejects, remaining, htask⟩ | ⟨hadmits, hcall, _⟩ :=
      RetryWorld.attempt_tasks_self cfg w.retry i 1
    · exact Or.inr (Or.inr ⟨fun hok => hok rfl hexec h hrejects, _, htask⟩)
    · obtain ⟨probe, htask⟩ := hcall hmax
      refine Or.inr (Or.inl ⟨fun _ _ _ => hadmits, ?_⟩)
      rw [htask]
      exact Nat.one_pos
  · left
    constructor
    · cases e with
      | retry re =>
        cases re with
        | check j =>
          rintro rfl hexec _
          exact absurd ⟨rfl, hexec⟩ hcheck
        | _ => trivial
      | _ => trivial
    · obtain hsame | ⟨re, he, hexec, hnext⟩ :=
        retry_next cfg orders w e
      · rwa [hsame]
      · rw [hnext]
        obtain htask | ⟨_, _, hcalling, _⟩ | ⟨_, hre, _, _⟩ :=
          RetryWorld.tasks_next cfg w.retry i re
        · rwa [htask]
        · cases h.symm.trans hcalling
        · exact absurd ⟨hre ▸ he, hexec i hre⟩ hcheck

theorem next_not_left (hi : (orders i).CancelledAtBroker) (h : w.tasks i ≠ .left) :
    (w.next cfg orders e).tasks i ≠ .left := by
  intro hleft
  cases e with
  | begin j =>
    simp only [next] at hleft
    split at hleft
    · exact h hleft
    · split at hleft
      · next hother =>
        have hij : i ≠ j := by
          rintro rfl
          exact hother hi
        exact h ((Function.update_of_ne hij ..).symm.trans hleft)
      · split at hleft <;> exact h (Role.of_update_eq hleft (by nofun)).2
  | grant j =>
    simp only [next] at hleft
    split at hleft
    · exact h (Role.of_update_eq hleft (by nofun)).2
    · exact h hleft
  | retry re =>
    cases re with
    | check j =>
      simp only [next] at hleft
      split at hleft <;> exact h hleft
    | _ => exact h hleft

theorem called_iff_of_idle (hmax : 0 < cfg.maxRetries) (hi : (orders i).CancelledAtBroker)
    (hleft : w.tasks i ≠ .left) (hidle : w.retry.tasks i = .idle) (es : List (CancelEvent ι))
    (hfin : (es.foldl (next cfg orders) w).Finished) :
    (es.foldl (next cfg orders) w).Called i ↔
      StepsMeet (next cfg orders) (fun w => w.Admits cfg i) w es := by
  induction es generalizing w with
  | nil =>
    obtain h | ⟨_, h⟩ := hfin i
    · exact absurd h hleft
    · rw [List.foldl_nil, hidle] at h
      exact absurd h id
  | cons e es ih =>
    rw [List.foldl_cons, StepsMeet]
    obtain ⟨hok, hstill⟩ | ⟨hok, hcalled⟩ | ⟨hno, error, hraised⟩ :=
      idle_next orders e hmax hidle
    · rw [and_iff_right hok]
      exact ih (next_not_left hi hleft) hstill hfin
    · rw [and_iff_right hok]
      have hrun := hcalled.run cfg orders es
      exact iff_of_true hrun.1 hrun.2
    · exact iff_of_false (raised_run hraised es) fun h => hno h.1

/-- When `gather` has returned, an order that the pass takes to the broker has been cancelled
there at least once exactly when its first attempt was not turned away, whatever became of
the others. -/
theorem called_iff_admitted (hmax : 0 < cfg.maxRetries) (circuit : Circuit) (now : ℚ)
    (es : List (CancelEvent ι)) (hfin : (es.foldl (next cfg orders) (start circuit now)).Finished)
    (hplain : ¬ (orders i).IsProtectiveOrder) (hid : (orders i).brokerOrderId ≠ "") :
    (es.foldl (next cfg orders) (start circuit now)).Called i ↔
      StepsMeet (next cfg orders) (fun w => w.Admits cfg i) (start circuit now) es :=
  called_iff_of_idle hmax ((orders i).cancelledAtBroker_iff.mpr ⟨hplain, hid⟩)
    (fun h => by cases (show CancelTask.created = .left from h)) rfl es hfin

/-- An open order of the exchange. -/
def openOrder (i : Fin 11) : StoredOrder where
  orderId := s!"O{i}"
  signalId := s!"S{i}"
  riskDecisionId := s!"D{i}"
  symbol := "INFY"
  market := .nse
  side := .buy
  quantity := 1
  row := { OrderRow.reserved with status := .placed, brokerOrderId := some s!"K{i}" }

/-- The first attempt fails, the second succeeds. -/
def oneCancel : List (CancelEvent (Fin 1)) :=
  [.begin 0, .grant 0, .retry (.check 0), .retry (.fail 0), .retry (.advance 1),
    .retry (.check 0), .retry (.succeed 0)]

theorem called_iff_admitted_retried :
    (oneCancel.foldl (next {} fun _ => openOrder 0) (start {} 0)).Called 0 ↔
      StepsMeet (next {} fun _ => openOrder 0) (fun w => w.Admits {} 0) (start {} 0) oneCancel :=
  called_iff_admitted (by decide) {} 0 oneCancel (by decide +kernel) (by decide +kernel)
    (by decide +kernel)

/-- Ten cancels fail while the eleventh order waits for the limiter. -/
def elevenCancels : List (CancelEvent (Fin 11)) :=
  let ten := (List.finRange 11).take 10
  (List.finRange 11).map .begin ++ ten.map .grant ++ ten.map (.retry <| .check ·) ++
    ten.map (.retry <| .fail ·) ++ [.grant 10, .retry (.check 10), .retry (.advance 1)] ++
    ten.map (.retry <| .check ·)

theorem eleventh_not_cancelled :
    ¬ ∀ (orders : Fin 11 → StoredOrder) (es : List (CancelEvent (Fin 11))),
      let w := es.foldl (next {} orders) (start {} 0)
      w.Finished → ∀ i, ¬ (orders i).IsProtectiveOrder → ¬ (orders i).IsPaperOrder →
        (orders i).brokerOrderId ≠ "" → w.Called i := by
  intro h
  exact absurd (h openOrder elevenCancels (by decide +kernel) 10) (by decide +kernel)

end CancelWorld
end QuantEmbrace
