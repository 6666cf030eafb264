import QuantEmbrace.Lib.GuardedRun
import QuantEmbrace.Lib.Role
import Mathlib.Algebra.Order.Ring.Rat
import Mathlib.Data.Fintype.Basic

/-! The retry handler with its circuit breaker, used by any number of calls at a time. The
lock is never held across a suspension, so a check is one step with the start of the attempt
it lets through, and an outcome is one step with its record. -/
namespace QuantEmbrace
open GuardedRun
variable {ι : Type*}

inductive CircuitState where
  | closed
  | opened
  | halfOpen
  deriving DecidableEq, Repr

structure RetryConfig where
  maxRetries : ℕ := 3
  baseDelay : ℚ := 1
  maxDelay : ℚ := 30
  backoffFactor : ℚ := 2
  failureThreshold : ℕ := 5
  cooldownSeconds : ℚ := 60
  deriving DecidableEq, Repr

/-- The wait after the attempt. -/
def RetryConfig.delay (cfg : RetryConfig) (attempt : ℕ) : ℚ :=
  min (cfg.baseDelay * cfg.backoffFactor ^ (attempt - 1)) cfg.maxDelay

structure Circuit where
  state : CircuitState := .closed
  consecutiveFailures : ℕ := 0
  lastFailureTime : ℚ := 0
  deriving DecidableEq, Repr

namespace Circuit
variable (c : Circuit) (cfg : RetryConfig) (now : ℚ)

/-- `_check_circuit`; the error is what remains of the cooldown. -/
def checkCircuit : Except ℚ Circuit :=
  match c.state with
  | .closed => .ok c
  | .halfOpen => .ok c
  | .opened =>
    let elapsed := now - c.lastFailureTime
    if cfg.cooldownSeconds ≤ elapsed then .ok { c with state := .halfOpen }
    else .error (cfg.cooldownSeconds - elapsed)

/-- Open, and within the cooldown. -/
def Rejects : Prop := c.state = .opened ∧ now < c.lastFailureTime + cfg.cooldownSeconds

instance : Decidable (c.Rejects cfg now) := inferInstanceAs (Decidable (_ ∧ _))

theorem checkCircuit_error_iff :
    (∃ remaining, c.checkCircuit cfg now = .error remaining) ↔ c.Rejects cfg now := by
  unfold checkCircuit Rejects
  cases hs : c.state with
  | closed => simp
  | halfOpen => simp
  | opened =>
    dsimp only
    split
    · next hcool => simpa using le_sub_iff_add_le'.mp hcool
    · next hcool => simpa using lt_of_not_ge (mt le_sub_iff_add_le'.mpr hcool)

theorem checkCircuit_ok {c c' : Circuit} {cfg : RetryConfig} {now : ℚ}
    (h : c.checkCircuit cfg now = .ok c') : (c.state ≠ .opened ∧ c' = c) ∨
      (c.state = .opened ∧ c.lastFailureTime + cfg.cooldownSeconds ≤ now ∧
        c' = { c with state := .halfOpen }) := by
  unfold checkCircuit at h
  split at h
  · next hs => exact Or.inl ⟨by simp [hs], (Except.ok.inj h).symm⟩
  · next hs => exact Or.inl ⟨by simp [hs], (Except.ok.inj h).symm⟩
  · next hs =>
    dsimp only at h
    split at h
    · next hcool => exact Or.inr ⟨hs, le_sub_iff_add_le'.mp hcool, (Except.ok.inj h).symm⟩
    · cases h

/-- `_record_success` -/
def recordSuccess : Circuit := { c with state := .closed, consecutiveFailures := 0 }

/-- `_record_failure` -/
def recordFailure : Circuit :=
  let c := { c with consecutiveFailures := c.consecutiveFailures + 1, lastFailureTime := now }
  if c.state = .halfOpen then { c with state := .opened }
  else if cfg.failureThreshold ≤ c.consecutiveFailures then { c with state := .opened }
  else c

@[simp] theorem recordFailure_lastFailureTime :
    (c.recordFailure cfg now).lastFailureTime = now := by
  unfold recordFailure
  dsimp only
  split
  · rfl
  · split <;> rfl

theorem recordFailure_state : (c.recordFailure cfg now).state = .opened ∨
    (c.state ≠ .halfOpen ∧ (c.recordFailure cfg now).state = c.state) := by
  unfold recordFailure
  dsimp only
  split
  · exact Or.inl rfl
  · next hs =>
    split
    · exact Or.inl rfl
    · exact Or.inr ⟨hs, rfl⟩

end Circuit

inductive RetryError where
  | circuitBreakerOpen (cooldownRemaining : ℚ)
  | retriesExhausted
  | aborted
  | noException
  deriving DecidableEq, Repr

/-- One `execute` call: a wrapped call is in flight or it sleeps between two; `probe` tells
whether the check of the attempt found the circuit other than closed. -/
inductive RetryTask where
  | idle
  | calling (attempt : ℕ) (probe : Bool)
  | sleeping (attempt : ℕ) (wake : ℚ)
  | returned (attempts : ℕ)
  | raised (attempts : ℕ) (error : RetryError)
  deriving DecidableEq, Repr

namespace RetryTask

def Calling : RetryTask → Prop
  | calling _ _ => True
  | _ => False

instance (t : RetryTask) : Decidable t.Calling := by
  cases t <;> unfold Calling <;> infer_instance

/-- The attempt the task is to make next, when its time has come. -/
def upcoming (now : ℚ) : RetryTask → Option ℕ
  | idle => some 1
  | sleeping attempt wake => if wake ≤ now then some (attempt + 1) else none
  | _ => none

end RetryTask

/-- What a run has seen: the start of a wrapped call, or a failure with the state it left. -/
inductive CallRecord where
  | start (t : ℚ)
  | failure (probe : Bool) (left : CircuitState) (t : ℚ)
  deriving DecidableEq, Repr

structure RetryWorld (ι : Type*) where
  circuit : Circuit
  now : ℚ
  tasks : ι → RetryTask
  history : List CallRecord

/-- An outcome that is neither a success nor recorded as a failure aborts the call: a
`NonRetryableBrokerError`, or a cancellation. -/
inductive RetryEvent (ι : Type*) where
  | advance (t : ℚ)
  | check (i : ι)
  | succeed (i : ι)
  | fail (i : ι)
  | abort (i : ι)

namespace RetryWorld

def start (circuit : Circuit) (now : ℚ) : RetryWorld ι := ⟨circuit, now, fun _ => .idle, []⟩

variable [DecidableEq ι] (cfg : RetryConfig) (w : RetryWorld ι)

def setTask (i : ι) (t : RetryTask) : RetryWorld ι :=
  { w with tasks := Function.update w.tasks i t }

/-- The check before an attempt, and the attempt. -/
def attempt (i : ι) (k : ℕ) : RetryWorld ι :=
  match w.circuit.checkCircuit cfg w.now with
  | .error remaining => w.setTask i (.raised (k - 1) (.circuitBreakerOpen remaining))
  | .ok circuit =>
    if k ≤ cfg.maxRetries then
      { w with circuit, history := .start w.now :: w.history }.setTask i
        (.calling k (circuit.state != CircuitState.closed))
    -- the loop over no attempts at all ends in `raise None`
    else { w with circuit }.setTask i (.raised (k - 1) .noException)

def next : RetryEvent ι → RetryWorld ι
  | .advance t => { w with now := max w.now t }
  | .check i =>
    match (w.tasks i).upcoming w.now with
    | some k => w.attempt cfg i k
    | none => w
  | .succeed i =>
    match w.tasks i with
    | .calling k _ => { w with circuit := w.circuit.recordSuccess }.setTask i (.returned k)
    | _ => w
  | .fail i =>
    match w.tasks i with
    | .calling k probe =>
      let circuit := w.circuit.recordFailure cfg w.now
      { w with circuit, history := .failure probe circuit.state w.now :: w.history }.setTask i
        (if k = cfg.maxRetries then .raised k .retriesExhausted
         else .sleeping k (w.now + cfg.delay k))
    | _ => w
  | .abort i =>
    match w.tasks i with
    | .calling k _ => w.setTask i (.raised k .aborted)
    | _ => w

end RetryWorld

namespace CallRecord

/-- A call that starts after a failure has opened the circuit starts after the cooldown. -/
def Waits (cfg : RetryConfig) : CallRecord → CallRecord → Prop
  | .start t, .failure _ .opened f => f + cfg.cooldownSeconds ≤ t
  | _, _ => True

def Reopens : CallRecord → Prop
  | .failure true left _ => left = .opened
  | _ => True

instance (cfg : RetryConfig) (later earlier : CallRecord) :
    Decidable (Waits cfg later earlier) := by
  unfold Waits
  split <;> infer_instance

instance (r : CallRecord) : Decidable r.Reopens := by
  unfold Reopens
  split <;> infer_instance

end CallRecord

namespace RetryWorld
variable {cfg : RetryConfig} {w : RetryWorld ι}

/-- The discipline of the breaker, over the whole history. -/
structure Disciplined (cfg : RetryConfig) (w : RetryWorld ι) : Prop where
  waits : w.history.Pairwise (CallRecord.Waits cfg)
  alone : w.circuit.state = .halfOpen → ∀ i j, (w.tasks i).Calling → (w.tasks j).Calling → i = j
  reopens : ∀ r ∈ w.history, r.Reopens

/-- A check passes on a circuit that is not closed only when no wrapped call is in flight,
and no call started earlier succeeds while the circuit is open. -/
def ProbesAlone (cfg : RetryConfig) (w : RetryWorld ι) : RetryEvent ι → Prop
  | .check i => (w.tasks i).upcoming w.now = none ∨ w.circuit.state = .closed ∨
      w.circuit.Rejects cfg w.now ∨ ∀ j, ¬ (w.tasks j).Calling
  | .succeed i => (w.tasks i).Calling → w.circuit.state ≠ .opened
  | _ => True

instance [Fintype ι] (cfg : RetryConfig) (w : RetryWorld ι) (e : RetryEvent ι) :
    Decidable (ProbesAlone cfg w e) := by
  cases e <;> unfold ProbesAlone <;> infer_instance

structure Sound (cfg : RetryConfig) (w : RetryWorld ι) : Prop where
  waits : w.history.Pairwise (CallRecord.Waits cfg)
  reopens : ∀ r ∈ w.history, r.Reopens
  openings : ∀ probe f, .failure probe .opened f ∈ w.history → f ≤ w.now ∧
    (w.circuit.state = .opened → f ≤ w.circuit.lastFailureTime) ∧
    (w.circuit.state ≠ .opened → f + cfg.cooldownSeconds ≤ w.now)
  alone : w.circuit.state = .halfOpen →
    Role.AtMostOne (fun _ => True) RetryTask.Calling w.tasks
  probing : ∀ i k, w.tasks i = .calling k true → w.circuit.state = .halfOpen

theorem Sound.disciplined (h : Sound cfg w) : Disciplined cfg w where
  waits := h.waits
  alone hs i j hi hj := h.alone hs i j trivial trivial hi hj
  reopens := h.reopens

theorem start_sound (circuit : Circuit) (now : ℚ) :
    Sound cfg (start circuit now : RetryWorld ι) where
  waits := .nil
  reopens _ hr := absurd hr List.not_mem_nil
  openings _ _ hr := absurd hr List.not_mem_nil
  alone _ _ _ _ _ hi := absurd hi id
  probing _ _ hi := by cases hi

theorem Sound.advance (h : Sound cfg w) (t : ℚ) : Sound cfg { w with now := max w.now t } where
  waits := h.waits
  reopens := h.reopens
  openings probe f hf := by
    obtain ⟨hpast, hopened, hcooled⟩ := h.openings probe f hf
    have hle : w.now ≤ max w.now t := le_max_left _ _
    exact ⟨hpast.trans hle, hopened, fun hs => (hcooled hs).trans hle⟩
  alone := h.alone
  probing := h.probing

variable [DecidableEq ι]

/-- The task calls nothing afterwards, and the circuit is where it was. -/
theorem Sound.rest (h : Sound cfg w) (i : ι) {t : RetryTask} (ht : ¬ t.Calling) :
    Sound cfg (w.setTask i t) where
  waits := h.waits
  reopens := h.reopens
  openings := h.openings
  alone hs := (h.alone hs).update fun hc => absurd hc ht
  probing j k hj :=
    have ⟨_, hj⟩ := Role.of_update_eq hj fun heq => ht (heq ▸ trivial)
    h.probing j k hj

omit [DecidableEq ι] in
/-- A check that lets its task through. -/
theorem Sound.passed (h : Sound cfg w) {c : Circuit}
    (hc : w.circuit.checkCircuit cfg w.now = .ok c)
    (halone : w.circuit.state = .closed ∨ ∀ j, ¬ (w.tasks j).Calling) :
    Sound cfg { w with circuit := c } ∧ c.state ≠ .opened ∧
      (c.state = .closed ∨ ∀ j, ¬ (w.tasks j).Calling) := by
  obtain ⟨hs, rfl⟩ | ⟨hs, hcool, rfl⟩ := Circuit.checkCircuit_ok hc
  · exact ⟨h, hs, halone⟩
  · have hnone : ∀ j, ¬ (w.tasks j).Calling := halone.resolve_left (by rw [hs]; decide)
    refine ⟨⟨h.waits, h.reopens, fun probe f hf => ?_, fun _ i _ _ _ hi => absurd hi (hnone i),
      fun i k hi => absurd (hi ▸ trivial) (hnone i)⟩, nofun, Or.inr hnone⟩
    obtain ⟨hpast, hopened, _⟩ := h.openings probe f hf
    refine ⟨hpast, nofun, fun _ => ?_⟩
    have hlast : f ≤ w.circuit.lastFailureTime := hopened hs
    exact (add_le_add_left hlast _).trans hcool

/-- The call that the check let through. -/
theorem Sound.called (h : Sound cfg w) (hs : w.circuit.state ≠ .opened)
    (halone : w.circuit.state = .closed ∨ ∀ j, ¬ (w.tasks j).Calling) (i : ι) (k : ℕ) :
    Sound cfg ({ w with history := .start w.now :: w.history }.setTask i
      (.calling k (w.circuit.state != CircuitState.closed))) where
  waits := by
    refine List.pairwise_cons.mpr ⟨fun r hr => ?_, h.waits⟩
    unfold CallRecord.Waits
    split
    · next heq =>
      cases heq
      exact (h.openings _ _ hr).2.2 hs
    · trivial
  reopens r hr := by
    obtain rfl | hr := List.mem_cons.mp hr
    · trivial
    · exact h.reopens r hr
  openings probe f hf := h.openings probe f (List.mem_of_ne_of_mem (by nofun) hf)
  alone hhalf := by
    have hnone := halone.resolve_left (by rw [show w.circuit.state = _ from hhalf]; decide)
    exact (h.alone hhalf).update fun _ => Or.inr fun j _ _ => hnone j
  probing j k' hj := by
    by_cases hji : j = i
    · subst hji
      have heq : RetryTask.calling k _ = RetryTask.calling k' true :=
        (Function.update_self ..).symm.trans hj
      cases hstate : w.circuit.state with
      | closed =>
        rw [hstate] at heq
        cases heq
      | opened => exact absurd hstate hs
      | halfOpen => exact hstate
    · exact h.probing j k' ((Function.update_of_ne hji ..).symm.trans hj)

theorem Sound.attempt (h : Sound cfg w) (i : ι) (k : ℕ)
    (halone : w.circuit.state = .closed ∨ w.circuit.Rejects cfg w.now ∨
      ∀ j, ¬ (w.tasks j).Calling) : Sound cfg (w.attempt cfg i k) := by
  unfold RetryWorld.attempt
  split
  · exact h.rest i id
  · next c hc =>
    have hother : w.circuit.state = .closed ∨ ∀ j, ¬ (w.tasks j).Calling :=
      halone.imp_right fun hn => hn.resolve_left fun hrejects => by
        obtain ⟨_, herr⟩ := (w.circuit.checkCircuit_error_iff cfg w.now).mpr hrejects
        cases hc.symm.trans herr
    obtain ⟨hpassed, hs, hcalls⟩ := h.passed hc hother
    split
    · exact hpassed.called hs hcalls i k
    · exact hpassed.rest i id

/-- A success that is recorded while the circuit is not open. -/
theorem Sound.succeed (h : Sound cfg w) {i : ι} {k : ℕ} {probe : Bool}
    (hi : w.tasks i = .calling k probe) (hs : w.circuit.state ≠ .opened) :
    Sound cfg ({ w with circuit := w.circuit.recordSuccess }.setTask i (.returned k)) where
  waits := h.waits
  reopens := h.reopens
  openings p f hf :=
    have ⟨hpast, _, hcooled⟩ := h.openings p f hf
    ⟨hpast, nofun, fun _ => hcooled hs⟩
  alone := nofun
  probing j k' hj := by
    obtain ⟨hji, hj⟩ := Role.of_update_eq hj (by nofun)
    have hhalf : w.circuit.state = .halfOpen := h.probing j k' hj
    exact absurd (h.alone hhalf j i trivial trivial (hj ▸ trivial) (hi ▸ trivial)) hji

theorem Sound.fail (h : Sound cfg w) {i : ι} {k : ℕ} {probe : Bool} {t : RetryTask}
    (hi : w.tasks i = .calling k probe) (ht : ¬ t.Calling) :
    let circuit := w.circuit.recordFailure cfg w.now
    Sound cfg ({ w with
      circuit
      history := .failure probe circuit.state w.now :: w.history }.setTask i t) := by
  intro circuit
  have hstate : circuit.state = .opened ∨
      (w.circuit.state ≠ .halfOpen ∧ circuit.state = w.circuit.state) :=
    w.circuit.recordFailure_state cfg w.now
  have hlast : circuit.lastFailureTime = w.now := w.circuit.recordFailure_lastFailureTime cfg w.now
  refine ⟨List.pairwise_cons.mpr ⟨fun _ _ => trivial, h.waits⟩, fun r hr => ?_,
    fun p f hf => ?_, fun hhalf => ?_, fun j k' hj => ?_⟩
  · obtain rfl | hr := List.mem_cons.mp hr
    · cases probe with
      | false => trivial
      | true => exact hstate.resolve_right fun hne => hne.1 (h.probing i k hi)
    · exact h.reopens r hr
  · obtain heq | hf := List.mem_cons.mp hf
    · obtain ⟨_, hopened, rfl⟩ := CallRecord.failure.inj heq
      exact ⟨le_rfl, fun _ => hlast.ge, fun hs => absurd hopened.symm hs⟩
    · obtain ⟨hpast, _, hcooled⟩ := h.openings p f hf
      refine ⟨hpast, fun _ => hpast.trans hlast.ge, fun hs => hcooled ?_⟩
      rw [← (hstate.resolve_left hs).2]
      exact hs
  · obtain hopened | ⟨hne, hsame⟩ := hstate
    · cases hopened.symm.trans hhalf
    · exact absurd (hsame.symm.trans hhalf) hne
  · obtain ⟨hji, hj⟩ := Role.of_update_eq hj fun heq => ht (heq ▸ trivial)
    have hhalf : w.circuit.state = .halfOpen := h.probing j k' hj
    exact absurd (h.alone hhalf j i trivial trivial (hj ▸ trivial) (hi ▸ trivial)) hji

theorem Sound.next (h : Sound cfg w) (e : RetryEvent ι) (hok : ProbesAlone cfg w e) :
    Sound cfg (w.next cfg e) := by
  cases e with
  | advance t => exact h.advance t
  | check i =>
    simp only [RetryWorld.next]
    split
    · next k hk =>
      refine h.attempt i k (hok.resolve_left ?_)
      rw [hk]
      exact Option.some_ne_none k
    · exact h
  | succeed i =>
    simp only [RetryWorld.next]
    split
    · next k probe hi => exact h.succeed hi (hok (hi ▸ trivial))
    · exact h
  | fail i =>
    simp only [RetryWorld.next]
    split
    · next k probe hi => exact h.fail hi (by split <;> exact id)
    · exact h
  | abort i =>
    simp only [RetryWorld.next]
    split
    · exact h.rest i id
    · exact h

/-- When probes go alone and no late success closes an open circuit, the breaker keeps its
discipline in every state reached, for any number of calls. -/
theorem disciplined_of_probesAlone (cfg : RetryConfig) (now : ℚ) (es : List (RetryEvent ι))
    (h : StepsMeet (next cfg) (ProbesAlone cfg) (start {} now) es) :
    AlongRun (next cfg) (Disciplined cfg) (start {} now) es :=
  fun pre hpre =>
    (h.invariant (fun _ e hw hok => hw.next e hok) (start_sound {} now) pre hpre).disciplined

/-- A failure opens the circuit, the other call is turned away, the probe fails. -/
theorem disciplined_of_failed_probe :
    AlongRun (next { failureThreshold := 1 }) (Disciplined { failureThreshold := 1 })
      (start {} 0 : RetryWorld (Fin 2))
      [.check 0, .fail 0, .advance 30, .check 1, .advance 60, .check 0, .fail 0] :=
  disciplined_of_probesAlone _ _ _ (by decide +kernel)

/-- Six calls, of which five fail. -/
def fiveFailures : List (RetryEvent (Fin 8)) :=
  [.check 0, .check 1, .check 2, .check 3, .check 4, .check 5, .fail 0, .fail 1, .fail 2, .fail 3,
    .fail 4]

/-- A late success closes the circuit at once; two calls pass a half-open check; and the
failure of the second comes after the success of the first. -/
theorem breaker_undisciplined :
    (¬ ∀ es, AlongRun (next {}) (fun w => w.history.Pairwise (CallRecord.Waits {}))
      (start {} 0 : RetryWorld (Fin 8)) es) ∧
    (¬ ∀ es, AlongRun (next {}) (fun w => w.circuit.state = .halfOpen →
        ∀ i j, (w.tasks i).Calling → (w.tasks j).Calling → i = j)
      (start {} 0 : RetryWorld (Fin 8)) es) ∧
    ¬ ∀ es, AlongRun (next {}) (fun w => ∀ r ∈ w.history, r.Reopens)
      (start {} 0 : RetryWorld (Fin 8)) es := by
  refine ⟨fun h => ?_, fun h => ?_, fun h => ?_⟩
  · exact absurd (h (fiveFailures ++ [.succeed 5, .check 6])).last (by decide +kernel)
  · have hrun := h (fiveFailures ++ [.abort 5, .advance 60, .check 6, .check 7])
    exact absurd hrun.last (by decide +kernel)
  · have hrun := h (fiveFailures ++
      [.abort 5, .advance 60, .check 6, .check 7, .succeed 6, .fail 7])
    exact absurd hrun.last (by decide +kernel)

end RetryWorld
end QuantEmbrace
