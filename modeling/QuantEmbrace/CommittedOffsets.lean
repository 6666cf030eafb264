import QuantEmbrace.Lib.EffectLog
import QuantEmbrace.Lib.GuardedRun
import QuantEmbrace.Lib.OffsetLog
import Mathlib.Data.Rat.Defs
import Mathlib.Logic.Function.Basic

/-! Processing, retry/DLQ routing and commit in the four consumer loops. An iteration of a loop
is a program that may raise; what it has done by then stays. Offsets are cumulative. -/
namespace QuantEmbrace.ConsumerLoop
open EffectLog GuardedRun OffsetLog

/-- The end of one `_publish`: `buffered` and `acknowledged` return `True`, and only the broker
knows them apart. -/
inductive Routing where
  | refused
  | buffered
  | acknowledged
  deriving DecidableEq, Repr

/-- What one iteration does to its message: it is fully processed, its retry or DLQ record is in
the producer's buffer or delivered, or its offset is committed. -/
inductive Effect where
  | handled
  | buffered
  | delivered
  | committed
  deriving DecidableEq, Repr

namespace Effect

/-- `KafkaFailurePublisher._publish`: enqueue, poll, and do not wait for the broker. -/
def publish : Routing → Logged Effect Bool
  | .refused => pure false
  | .buffered => do
    emit .buffered
    pure true
  | .acknowledged => do
    emit .delivered
    pure true

/-- The synchronous commit, which raises when it fails. -/
def commit : Bool → Logged Effect Unit
  | true => emit .committed
  | false => throw ()

variable {l : List Effect}

@[simp] theorem wp_publish (r : Routing) (Q : Except Unit Bool → List Effect → Prop) :
    wp (publish r) Q l ↔ (r = .refused → Q (.ok false) l) ∧
      (r = .buffered → Q (.ok true) (.buffered :: l)) ∧
      (r = .acknowledged → Q (.ok true) (.delivered :: l)) := by
  cases r <;> simp only [publish, wp_bind, wp_emit, then_ok, wp_pure, reduceCtorEq, false_implies,
    true_implies, true_and, and_true]

theorem wp_commit (c : Bool) (Q : Except Unit Unit → List Effect → Prop) :
    wp (commit c) Q l ↔ (c = true → Q (.ok ()) (.committed :: l)) ∧
      (c = false → Q (.error ()) l) := by
  cases c <;> simp [commit]

end Effect

/-- What the consumer makes of the bytes; `raised` is an exception it does not catch. -/
inductive Parse where
  | parsed
  | malformed
  | raised
  deriving DecidableEq, Repr

/-- What an iteration meets: `routing` is the publication of the body or of the consumer,
`handlerRouting` that of the exception handler. -/
structure Environment where
  parse : Parse := .parsed
  routing : Routing := .acknowledged
  commits : Bool := true
  handlerRouting : Routing := .acknowledged
  handlerCommits : Bool := true
  deriving DecidableEq, Repr

/-- The risk engine's work on a signal, replays included. `stale` is a rejection by the age
validator; an exception may come after the decision has been made and published. -/
inductive RiskProcessing where
  | decided
  | expired
  | stale
  | raised (decided : Bool)
  deriving DecidableEq, Repr

structure OrderEvent where
  isFill : Bool
  avgFillPrice : Option ℚ
  quantityFilled : ℤ
  deriving DecidableEq, Repr

/-- The execution engine's work on an approval. `dropped` is an approval found expired by
`_handle_approved_signal_event` itself, which returns `True`. -/
inductive ApprovalHandling where
  | expired
  | handled
  | dropped
  | failed
  | raised
  deriving DecidableEq, Repr

section Loops
open Effect
variable (env : Environment)

/-- The handler of the loops that commit only what they have routed. -/
def routeOrRaise : Logged Effect Unit := do
  let routed ← publish env.handlerRouting
  if routed then commit env.handlerCommits else throw ()

/-- The consumers of signals, order events and approvals: a malformed message goes to the DLQ. -/
def pollRouted (body : Logged Effect Unit) : Logged Effect Unit :=
  match env.parse with
  | .raised => throw ()
  | .malformed => do
    let routed ← publish env.routing
    if routed then commit env.commits
  | .parsed => body

/-- The enriched consumer commits what it cannot parse. -/
def enrichedProcessingLoop (p : RiskProcessing) : Logged Effect Unit :=
  match env.parse with
  | .raised => throw ()
  | .malformed => commit env.commits
  | .parsed =>
    tryCatch
      (match p with
      | .decided => do
        emit .handled
        commit env.commits
      | .expired => do
        emit .handled
        let _ ← publish env.routing
        commit env.commits
      | .stale => do
        emit .handled
        commit env.commits
      | .raised decided => do
        if decided then emit .handled
        throw ())
      fun _ => do
        let _ ← publish env.handlerRouting
        commit env.handlerCommits

/-- `_kafka_processing_loop` of the risk engine. -/
def fallbackProcessingLoop (p : RiskProcessing) : Logged Effect Unit :=
  pollRouted env <| tryCatch
    (match p with
    | .decided => do
      emit .handled
      commit env.commits
    | .expired => do
      emit .handled
      let routed ← publish env.routing
      if routed then commit env.commits
    | .stale => do
      emit .handled
      let routed ← publish env.routing
      if !routed then throw ()
      commit env.commits
    | .raised decided => do
      if decided then emit .handled
      throw ())
    fun _ => routeOrRaise env

/-- `_handle_fill`; `recorded` tells whether the accounting went through. It raises nothing. -/
def handleFill (e : OrderEvent) (recorded : Bool) : Logged Effect Unit :=
  if e.avgFillPrice = none ∨ e.quantityFilled = 0 then
    -- skipped; with nothing filled there is nothing to account
    if e.quantityFilled = 0 then emit .handled
    else pure ()
  else if recorded then emit .handled
  else pure ()

/-- The dispatch of the order-events loop; a rejection has nothing to account. -/
def dispatchEvent (e : OrderEvent) (recorded : Bool) : Logged Effect Unit :=
  if e.isFill then handleFill e recorded else emit .handled

def ordersEventLoop (e : OrderEvent) (recorded : Bool) : Logged Effect Unit :=
  pollRouted env <| tryCatch
    (do
      dispatchEvent e recorded
      commit env.commits)
    fun _ => routeOrRaise env

/-- `_kafka_processing_loop` of the execution engine. -/
def executionProcessingLoop (p : ApprovalHandling) : Logged Effect Unit :=
  pollRouted env <| tryCatch
    (match p with
    | .expired => do
      let routed ← publish env.routing
      if routed then commit env.commits
    | .handled => do
      emit .handled
      commit env.commits
    | .dropped => commit env.commits
    | .failed => do
      let routed ← publish env.routing
      if routed then commit env.commits
    | .raised => throw ())
    fun _ => routeOrRaise env

end Loops

/-- One message in the hands of one of the loops. -/
inductive Attempt where
  | enriched (p : RiskProcessing)
  | fallback (p : RiskProcessing)
  | orderEvents (e : OrderEvent) (recorded : Bool)
  | execution (p : ApprovalHandling)
  deriving DecidableEq, Repr

namespace Attempt

def iteration (env : Environment) : Attempt → Logged Effect Unit
  | enriched p => enrichedProcessingLoop env p
  | fallback p => fallbackProcessingLoop env p
  | orderEvents e recorded => ordersEventLoop env e recorded
  | execution p => executionProcessingLoop env p

/-- Newest first. -/
def effects (a : Attempt) (env : Environment) : List Effect := log (a.iteration env)

end Attempt

/-- Processed, or durably in its retry or DLQ topic. -/
def Settles (fx : List Effect) : Prop := .handled ∈ fx ∨ .delivered ∈ fx

instance (fx : List Effect) : Decidable (Settles fx) := inferInstanceAs (Decidable (_ ∨ _))

/-- What the iteration has done does not lose its message. -/
def Keeps (fx : List Effect) : Prop := .committed ∈ fx → Settles fx

instance (fx : List Effect) : Decidable (Keeps fx) := inferInstanceAs (Decidable (_ → _))

def Committed (fx : List Effect) : Prop := .committed ∈ fx

/-- The message has a price and its accounting went through, or there is nothing to account. -/
def OrderEvent.Accounted (e : OrderEvent) (recorded : Bool) : Prop :=
  e.isFill = true → e.quantityFilled = 0 ∨ (e.avgFillPrice ≠ none ∧ recorded = true)

instance (e : OrderEvent) (recorded : Bool) : Decidable (e.Accounted recorded) :=
  inferInstanceAs (Decidable (_ → _))

namespace Environment
open Effect
variable (env : Environment)

/-- The handler does not commit on a record that is only buffered. -/
def HandlerWaits : Prop := env.handlerRouting = .buffered → env.handlerCommits = false

/-- The commit of the body raises, and the handler does not lose the message. -/
def CommitRaises : Prop := env.commits = false ∧ env.HandlerWaits

/-- A malformed message is not committed on a record that is only buffered. -/
def PollWaits : Prop :=
  env.parse = .malformed → env.routing = .buffered → env.commits = false

def HandlerCommits : Prop := env.handlerRouting ≠ .refused ∧ env.handlerCommits = true

/-- The commit of the body succeeds, or that of the handler does. -/
def EitherCommits : Prop := env.commits = true ∨ env.HandlerCommits

/-- A malformed message is committed behind the record published for it. -/
def PollCommits : Prop :=
  env.parse = .malformed ∧ env.routing ≠ .refused ∧ env.commits = true

instance : Decidable env.HandlerWaits := inferInstanceAs (Decidable (_ → _))
instance : Decidable env.CommitRaises := inferInstanceAs (Decidable (_ ∧ _))
instance : Decidable env.PollWaits := inferInstanceAs (Decidable (_ → _))

theorem routeOrRaise_keeps {l : List Effect} (hc : .committed ∉ l) (hs : ¬ Settles l) :
    wp (routeOrRaise env) (fun _ => Keeps) l ↔ env.HandlerWaits := by
  simp only [Settles, not_or] at hs
  simp [routeOrRaise, wp_commit, Keeps, Settles, hc, hs, HandlerWaits]

theorem routeOrRaise_of_settles {l : List Effect} (hs : Settles l) :
    wp (routeOrRaise env) (fun _ => Keeps) l := by
  simp only [Settles] at hs
  obtain hs | hs := hs <;> simp [routeOrRaise, wp_commit, Keeps, Settles, hs]

variable {env}

theorem routeOrRaise_commits {l : List Effect} :
    wp (routeOrRaise env) (fun _ => Committed) l ↔ Committed l ∨ env.HandlerCommits := by
  unfold HandlerCommits
  cases hr : env.handlerRouting <;> cases hc : env.handlerCommits <;>
    simp [routeOrRaise, wp_commit, Committed, hr, hc]

/-- A commit of the body, under the handler of the gated loops. -/
theorem commit_commits {l : List Effect} :
    wp (commit env.commits) (Caught (fun _ => routeOrRaise env) fun _ => Committed) l ↔
      Committed l ∨ env.EitherCommits := by
  unfold EitherCommits
  cases hc : env.commits with
  | true => simp [wp_commit, Committed]
  | false => simp [wp_commit, routeOrRaise_commits]

theorem commit_keeps {l : List Effect} (hc : .committed ∉ l) :
    wp (commit env.commits) (Caught (fun _ => routeOrRaise env) fun _ => Keeps) l ↔
      Settles l ∨ env.CommitRaises := by
  by_cases hs : Settles l
  · have hroute := routeOrRaise_of_settles env hs
    obtain hs | hs := hs <;> simp [wp_commit, Keeps, Settles, hs, hroute]
  · have hroute := routeOrRaise_keeps env hc hs
    simp only [Settles, not_or] at hs
    cases h : env.commits <;> simp [wp_commit, Keeps, Settles, CommitRaises, hc, hs, hroute, h]

theorem pollRouted_keeps {body : Logged Effect Unit} :
    wp (pollRouted env body) (fun _ => Keeps) [] ↔
      env.PollWaits ∧ (env.parse = .parsed → wp body (fun _ => Keeps) []) := by
  unfold pollRouted PollWaits
  cases h : env.parse with
  | parsed => simp
  | malformed => simp [wp_commit, Keeps, Settles]
  | raised => simp [Keeps]

theorem pollRouted_commits {body : Logged Effect Unit} :
    wp (pollRouted env body) (fun _ => Committed) [] ↔
      env.PollCommits ∨ (env.parse = .parsed ∧ wp body (fun _ => Committed) []) := by
  unfold pollRouted PollCommits
  cases h : env.parse with
  | parsed => simp
  | malformed => cases hr : env.routing <;> simp [wp_commit, Committed]
  | raised => simp [Committed]

end Environment

namespace Attempt
open Effect
variable (env : Environment)

/-- The branches that lose no message: what they commit, they have processed or delivered. -/
def Clean : Attempt → Prop
  | enriched p =>
    (env.parse = .malformed → env.commits = false) ∧ (env.parse = .parsed → p = .raised false →
      env.handlerRouting = .acknowledged ∨ env.handlerCommits = false)
  | fallback p => env.PollWaits ∧ (env.parse = .parsed → p = .raised false → env.HandlerWaits)
  | orderEvents e recorded =>
    env.PollWaits ∧ (env.parse = .parsed → e.Accounted recorded ∨ env.CommitRaises)
  | execution p =>
    env.PollWaits ∧ (env.parse = .parsed →
      match p with
      | .expired => env.routing = .buffered → env.CommitRaises
      | .handled => True
      | .dropped => env.CommitRaises
      | .failed => env.routing = .buffered → env.CommitRaises
      | .raised => env.HandlerWaits)

theorem enriched_keeps (p : RiskProcessing) :
    wp (enrichedProcessingLoop env p) (fun _ => Keeps) [] ↔ (enriched p).Clean env := by
  unfold enrichedProcessingLoop Clean
  cases h : env.parse with
  | parsed =>
    cases p with
    | decided => simp [wp_commit, Keeps, Settles]
    | expired => simp [wp_commit, Keeps, Settles]
    | stale => simp [wp_commit, Keeps, Settles]
    | raised decided =>
      cases decided with
      | true => simp [wp_commit, Keeps, Settles]
      | false => cases hr : env.handlerRouting <;> simp [wp_commit, Keeps, Settles]
  | malformed => simp [wp_commit, Keeps, Settles]
  | raised => simp [Keeps]

theorem fallback_keeps (p : RiskProcessing) :
    wp (fallbackProcessingLoop env p) (fun _ => Keeps) [] ↔ (fallback p).Clean env := by
  unfold fallbackProcessingLoop Clean
  rw [Environment.pollRouted_keeps]
  refine and_congr_right fun _ => imp_congr_right fun _ => ?_
  cases p with
  | decided => simp [routeOrRaise, wp_commit, Keeps, Settles]
  | expired => simp [routeOrRaise, wp_commit, Keeps, Settles]
  | stale => simp [routeOrRaise, wp_commit, Keeps, Settles]
  | raised decided =>
    cases decided with
    | true => simp [routeOrRaise, wp_commit, Keeps, Settles]
    | false => simp [Environment.routeOrRaise_keeps, Settles]

theorem wp_dispatchEvent (e : OrderEvent) (recorded : Bool) {l : List Effect}
    (Q : Except Unit Unit → List Effect → Prop) :
    wp (dispatchEvent e recorded) Q l ↔
      Q (.ok ()) (if e.Accounted recorded then .handled :: l else l) := by
  obtain ⟨isFill, price, quantity⟩ := e
  cases isFill with
  | false => simp [dispatchEvent, OrderEvent.Accounted]
  | true =>
    by_cases hq : quantity = 0
    · simp [dispatchEvent, handleFill, OrderEvent.Accounted, hq]
    · cases price <;> cases recorded <;>
        simp [dispatchEvent, handleFill, OrderEvent.Accounted, hq]

theorem orderEvents_keeps (e : OrderEvent) (recorded : Bool) :
    wp (ordersEventLoop env e recorded) (fun _ => Keeps) [] ↔
      (orderEvents e recorded).Clean env := by
  unfold ordersEventLoop Clean
  rw [Environment.pollRouted_keeps]
  refine and_congr_right fun _ => imp_congr_right fun _ => ?_
  rw [wp_tryCatch, wp_bind, wp_dispatchEvent]
  by_cases ha : e.Accounted recorded
  · rw [if_pos ha, then_ok, Environment.commit_keeps (by simp)]
    simp [ha, Settles]
  · rw [if_neg ha, then_ok, Environment.commit_keeps (by simp)]
    simp [ha, Settles]

/-- A publication by the body, committed when it returned `True`. -/
theorem routed_keeps :
    wp (do
        let routed ← publish env.routing
        if routed then commit env.commits)
      (Caught (fun _ => routeOrRaise env) fun _ => Keeps) [] ↔
      (env.routing = .buffered → env.CommitRaises) := by
  cases hr : env.routing with
  | refused => simp [Keeps]
  | buffered => simp [Environment.commit_keeps, Settles]
  | acknowledged => simp [Environment.commit_keeps, Settles]

theorem execution_keeps (p : ApprovalHandling) :
    wp (executionProcessingLoop env p) (fun _ => Keeps) [] ↔ (execution p).Clean env := by
  unfold executionProcessingLoop Clean
  rw [Environment.pollRouted_keeps]
  refine and_congr_right fun _ => imp_congr_right fun _ => ?_
  rw [wp_tryCatch]
  cases p with
  | expired => exact routed_keeps env
  | handled => simp [Environment.commit_keeps, Settles]
  | dropped => simp [Environment.commit_keeps, Settles]
  | failed => exact routed_keeps env
  | raised => simp [Environment.routeOrRaise_keeps, Settles]

/-- The clean branches are the ones that lose nothing. -/
theorem clean_iff (a : Attempt) : Keeps (a.effects env) ↔ a.Clean env := by
  refine (wp_log Keeps).symm.trans ?_
  cases a with
  | enriched p => exact enriched_keeps env p
  | fallback p => exact fallback_keeps env p
  | orderEvents e recorded => exact orderEvents_keeps env e recorded
  | execution p => exact execution_keeps env p

/-- The branches that reach a commit, where it succeeds. -/
def Commits : Attempt → Prop
  | enriched p =>
    (env.parse = .malformed ∧ env.commits = true) ∨ (env.parse = .parsed ∧
      match p with
      | .raised _ => env.handlerCommits = true
      | _ => env.commits = true ∨ env.handlerCommits = true)
  | fallback p => env.PollCommits ∨ (env.parse = .parsed ∧
      match p with
      | .decided => env.EitherCommits
      | .expired => env.routing ≠ .refused ∧ env.EitherCommits
      | .stale => (env.routing ≠ .refused ∧ env.commits = true) ∨ env.HandlerCommits
      | .raised _ => env.HandlerCommits)
  | orderEvents _ _ => env.PollCommits ∨ (env.parse = .parsed ∧ env.EitherCommits)
  | execution p => env.PollCommits ∨ (env.parse = .parsed ∧
      match p with
      | .expired | .failed => env.routing ≠ .refused ∧ env.EitherCommits
      | .handled | .dropped => env.EitherCommits
      | .raised => env.HandlerCommits)

theorem enriched_commits (p : RiskProcessing) :
    wp (enrichedProcessingLoop env p) (fun _ => Committed) [] ↔ (enriched p).Commits env := by
  unfold enrichedProcessingLoop Commits
  cases h : env.parse with
  | malformed => simp [wp_commit, Committed]
  | raised => simp [Committed]
  | parsed =>
    have hhandler (l : List Effect) :
        wp (do
          let _ ← publish env.handlerRouting
          commit env.handlerCommits) (fun _ => Committed) l ↔
        Committed l ∨ env.handlerCommits = true := by
      cases env.handlerRouting <;> cases env.handlerCommits <;> simp [wp_commit, Committed]
    cases p with
    | raised decided => cases decided <;> simp [hhandler, Committed]
    | decided => cases env.commits <;> simp [wp_commit, hhandler, Committed]
    | stale => cases env.commits <;> simp [wp_commit, hhandler, Committed]
    | expired =>
      cases env.routing <;> cases env.commits <;> simp [wp_commit, hhandler, Committed]

/-- A publication by the body, committed when it returned `True`. -/
theorem routed_commits {l : List Effect} (hl : .committed ∉ l) :
    wp (do
        let routed ← publish env.routing
        if routed then commit env.commits)
      (Caught (fun _ => routeOrRaise env) fun _ => Committed) l ↔
      env.routing ≠ .refused ∧ env.EitherCommits := by
  cases hr : env.routing with
  | refused => simp [Committed, hl]
  | buffered => simp [Environment.commit_commits, Committed, hl]
  | acknowledged => simp [Environment.commit_commits, Committed, hl]

theorem fallback_commits (p : RiskProcessing) :
    wp (fallbackProcessingLoop env p) (fun _ => Committed) [] ↔ (fallback p).Commits env := by
  unfold fallbackProcessingLoop Commits
  rw [Environment.pollRouted_commits]
  refine or_congr_right (and_congr_right fun _ => ?_)
  rw [wp_tryCatch]
  cases p with
  | decided => simp [Environment.commit_commits, Committed]
  | expired =>
    rw [wp_bind, wp_emit, then_ok]
    exact routed_commits env (by simp)
  | stale =>
    cases hr : env.routing <;> cases hc : env.commits <;>
      simp [wp_commit, Environment.routeOrRaise_commits, Committed]
  | raised decided =>
    cases decided <;> simp [Environment.routeOrRaise_commits, Committed]

theorem orderEvents_commits (e : OrderEvent) (recorded : Bool) :
    wp (ordersEventLoop env e recorded) (fun _ => Committed) [] ↔
      (orderEvents e recorded).Commits env := by
  unfold ordersEventLoop Commits
  rw [Environment.pollRouted_commits]
  refine or_congr_right (and_congr_right fun _ => ?_)
  rw [wp_tryCatch, wp_bind, wp_dispatchEvent, then_ok, Environment.commit_commits]
  split <;> simp [Committed]

theorem execution_commits (p : ApprovalHandling) :
    wp (executionProcessingLoop env p) (fun _ => Committed) [] ↔ (execution p).Commits env := by
  unfold executionProcessingLoop Commits
  rw [Environment.pollRouted_commits]
  refine or_congr_right (and_congr_right fun _ => ?_)
  rw [wp_tryCatch]
  cases p with
  | expired => exact routed_commits env (by simp)
  | handled => simp [Environment.commit_commits, Committed]
  | dropped => simp [Environment.commit_commits, Committed]
  | failed => exact routed_commits env (by simp)
  | raised => simp [Environment.routeOrRaise_commits, Committed]

/-- Which branches commit is decided by what they meet. -/
theorem commits_iff (a : Attempt) : .committed ∈ a.effects env ↔ a.Commits env := by
  refine (wp_log Committed).symm.trans ?_
  cases a with
  | enriched p => exact enriched_commits env p
  | fallback p => exact fallback_commits env p
  | orderEvents e recorded => exact orderEvents_commits env e recorded
  | execution p => exact execution_commits env p

instance (a : Attempt) : Decidable (a.Commits env) := decidable_of_iff _ (a.commits_iff env)

end Attempt

/-- The partitions as the consumer group reads them, from the offsets `base` on. A partition may
pass from one loop to another. -/
structure OffsetWorld {κ : Type*} (base : κ → ℕ) where
  offsets : (k : κ) → Offsets (base k) := fun k => .init (base k)
  handled : List (κ × ℕ) := []
  delivered : List (κ × ℕ) := []
  buffered : List (κ × ℕ) := []

/-- `crash` stops the iteration after `n` of its effects, short of the commit; `deliver` is the
acknowledgement of a record that was only buffered. -/
inductive OffsetEvent (κ : Type*) where
  | iterate (k : κ) (a : Attempt) (env : Environment)
  | crash (k : κ) (a : Attempt) (env : Environment) (n : ℕ)
  | deliver (k : κ) (m : ℕ)
  | rebalance (k : κ)
  deriving DecidableEq, Repr

namespace OffsetWorld
variable {κ : Type*} [DecidableEq κ] {base : κ → ℕ} (w : OffsetWorld base) (k : κ)

def settle (m : ℕ) (fx : List Effect) : OffsetWorld base :=
  { w with
    handled := if .handled ∈ fx then (k, m) :: w.handled else w.handled
    delivered := if .delivered ∈ fx then (k, m) :: w.delivered else w.delivered
    buffered := if .buffered ∈ fx then (k, m) :: w.buffered else w.buffered }

def setOffsets (c : Offsets (base k)) : OffsetWorld base :=
  { w with offsets := Function.update w.offsets k c }

/-- The message was fully processed, or delivered to its retry or DLQ topic. -/
def Settled (m : ℕ) : Prop := (k, m) ∈ w.handled ∨ (k, m) ∈ w.delivered

instance : DecidablePred (w.Settled k) := fun _ => inferInstanceAs (Decidable (_ ∨ _))

def next (w : OffsetWorld base) : OffsetEvent κ → OffsetWorld base
  | .iterate k a env =>
    let c := w.offsets k
    let fx := a.effects env
    (w.settle k c.position fx).setOffsets k (if .committed ∈ fx then c.commit else c.skip)
  | .crash k a env n =>
    let c := w.offsets k
    let fx := ((a.effects env).reverse.filter (· ≠ .committed)).take n
    (w.settle k c.position fx).setOffsets k c.reset
  | .deliver k m =>
    if (k, m) ∈ w.buffered then { w with delivered := (k, m) :: w.delivered } else w
  | .rebalance k => w.setOffsets k (w.offsets k).reset

/-- Whatever a committed offset has passed was settled. -/
def NoneLost : Prop := ∀ k, (w.offsets k).Covered (w.Settled k)

/-- An iteration that commits takes a clean branch, or its message had been settled before; and
no earlier message of the partition was left behind unsettled. -/
def Careful (w : OffsetWorld base) : OffsetEvent κ → Prop
  | .iterate k a env => a.Commits env → (a.Clean env ∨ w.Settled k (w.offsets k).position) ∧
      (w.offsets k).NoneLeft (w.Settled k)
  | _ => True

omit [DecidableEq κ] in
theorem settled_settle (j : κ) (m i : ℕ) (fx : List Effect) :
    (w.settle k m fx).Settled j i ↔ w.Settled j i ∨ (j = k ∧ i = m ∧ Settles fx) := by
  unfold settle Settled Settles
  by_cases hh : .handled ∈ fx <;> by_cases hd : .delivered ∈ fx <;> simp [hh, hd] <;> tauto

@[simp] theorem settled_setOffsets (c : Offsets (base k)) (j : κ) :
    (w.setOffsets k c).Settled j = w.Settled j := rfl

@[simp] theorem setOffsets_self (c : Offsets (base k)) : (w.setOffsets k c).offsets k = c := by
  simp [setOffsets]

@[simp] theorem setOffsets_of_ne (c : Offsets (base k)) {j : κ} (hj : j ≠ k) :
    (w.setOffsets k c).offsets j = w.offsets j := by
  simp [setOffsets, hj]

variable {w k}

theorem setOffsets_noneLost {c : Offsets (base k)}
    (hother : ∀ j, j ≠ k → (w.offsets j).Covered (w.Settled j)) :
    (w.setOffsets k c).NoneLost ↔ c.Covered (w.Settled k) := by
  constructor
  · intro h
    simpa using h k
  · intro hk j
    by_cases hj : j = k
    · subst hj
      simpa using hk
    · simpa [hj] using hother j hj

omit [DecidableEq κ] in
theorem NoneLost.settle (h : w.NoneLost) (m : ℕ) (fx : List Effect) :
    (w.settle k m fx).NoneLost := fun j =>
  (h j).mono fun i hi => (w.settled_settle k j m i fx).mpr (.inl hi)

omit [DecidableEq κ] in
/-- What an iteration does to the messages below its own is nothing. -/
theorem settle_noneLeft (fx : List Effect) :
    (w.offsets k).NoneLeft ((w.settle k (w.offsets k).position fx).Settled k) ↔
      (w.offsets k).NoneLeft (w.Settled k) := by
  have hsame (i : ℕ) (hi : i < (w.offsets k).position) :
      (w.settle k (w.offsets k).position fx).Settled k i ↔ w.Settled k i := by
    rw [settled_settle]
    have : i ≠ (w.offsets k).position := Nat.ne_of_lt hi
    simp [this]
  exact forall₂_congr fun i hi => imp_congr_right fun _ => hsame i hi

theorem next_noneLost_iff (h : w.NoneLost) (e : OffsetEvent κ) :
    (w.next e).NoneLost ↔ w.Careful e := by
  cases e with
  | iterate k a env =>
    have hs := h.settle (k := k) (w.offsets k).position (a.effects env)
    simp only [next, Careful, ← a.commits_iff env]
    rw [setOffsets_noneLost fun j _ => hs j]
    have hcov : (w.offsets k).Covered
        ((w.settle k (w.offsets k).position (a.effects env)).Settled k) := hs k
    by_cases hc : .committed ∈ a.effects env
    · have hkeeps : Settles (a.effects env) ↔ a.Clean env := by
        rw [← a.clean_iff env, Keeps]
        simp [hc]
      rw [if_pos hc, hcov.commit_iff, settle_noneLeft, settled_settle, hkeeps]
      simp only [hc, true_and, true_implies]
      tauto
    · rw [if_neg hc]
      exact iff_of_true hcov.skip fun hc' => absurd hc' hc
  | crash k a env n =>
    have hs := h.settle (k := k) (w.offsets k).position
      (((a.effects env).reverse.filter (· ≠ .committed)).take n)
    exact iff_of_true ((setOffsets_noneLost fun j _ => hs j).mpr (hs k).reset) trivial
  | deliver k m =>
    refine iff_of_true ?_ trivial
    simp only [next]
    split
    · exact fun j => (h j).mono fun i hi => hi.imp_right (List.mem_cons_of_mem _)
    · exact h
  | rebalance k => exact iff_of_true ((setOffsets_noneLost fun j _ => h j).mpr (h k).reset) trivial

omit [DecidableEq κ] in
theorem start_noneLost (base : κ → ℕ) : NoneLost ({} : OffsetWorld base) :=
  fun _ => Offsets.init_covered _

/-- No committed message is lost in any state of a run exactly when every step of it is
careful. -/
theorem none_lost_iff (base : κ → ℕ) (es : List (OffsetEvent κ)) :
    AlongRun next NoneLost ({} : OffsetWorld base) es ↔
      StepsMeet next Careful ({} : OffsetWorld base) es :=
  alongRun_iff (I := fun _ => True) (D := fun _ => True) (fun _ _ _ h => h)
    (fun _ e _ _ h => next_noneLost_iff h e) es (fun _ _ => trivial) _ trivial
    (start_noneLost base)

/-- A failed signal whose retry record is refused, then a record that stays in the buffer, then
a refused one passed by the next commit, then a fill whose accounting raised. -/
theorem committed_lost :
    (¬ ∀ es, AlongRun next NoneLost ({} : OffsetWorld (κ := Unit) fun _ => 0) es) ∧
    ¬ AlongRun next NoneLost ({} : OffsetWorld (κ := Unit) fun _ => 0)
      [.iterate () (.enriched (.raised false)) { handlerRouting := .refused }] ∧
    ¬ AlongRun next NoneLost ({} : OffsetWorld (κ := Unit) fun _ => 0)
      [.iterate () (.fallback (.raised false)) { handlerRouting := .buffered }] ∧
    ¬ AlongRun next NoneLost ({} : OffsetWorld (κ := Unit) fun _ => 0)
      [.iterate () (.execution .failed) { routing := .refused },
        .iterate () (.execution .handled) {}] ∧
    ¬ AlongRun next NoneLost ({} : OffsetWorld (κ := Unit) fun _ => 0)
      [.iterate () (.orderEvents ⟨true, some 100, 5⟩ false) {}] := by
  have lost (es : List (OffsetEvent Unit))
      (h : ∃ m < ((es.foldl next ({} : OffsetWorld (κ := Unit) fun _ => 0)).offsets ()).committed,
        ¬ (es.foldl next ({} : OffsetWorld (κ := Unit) fun _ => 0)).Settled () m) :
      ¬ AlongRun next NoneLost ({} : OffsetWorld (κ := Unit) fun _ => 0) es := by
    obtain ⟨m, hm, hlost⟩ := h
    exact fun hrun => hlost (hrun.last () m (Nat.zero_le m) hm)
  refine ⟨fun h => lost _ ?_ (h [.iterate () (.enriched .decided) { parse := .malformed }]),
    lost _ ?_, lost _ ?_, lost _ ?_, lost _ ?_⟩
  all_goals decide

end OffsetWorld
end QuantEmbrace.ConsumerLoop
