import QuantEmbrace.Lib.GuardedRun
import QuantEmbrace.Lib.TokenBucket
import Mathlib.Algebra.Order.Field.Rat
import Mathlib.Data.List.Sort
import Mathlib.Data.Rat.Floor
import Mathlib.Order.Monotone.Basic

/-! `ZerodhaRateLimiter`: buckets for five endpoint classes, the order caps, and the queue of
waiters. Nothing awaits under the lock, so an `acquire`, a drain or a cancellation is one step;
within a step the clocks may be read many times and need not stand still. -/
namespace QuantEmbrace
open GuardedRun

inductive Priority where
  | critical
  | high
  | medium
  | low
  deriving DecidableEq, Repr

/-- The value of the `IntEnum`: lower is more urgent. -/
def Priority.value : Priority → ℕ
  | critical => 0
  | high => 1
  | medium => 2
  | low => 3

inductive EndpointClass where
  | orderPlace
  | orderControl
  | quote
  | historical
  | other
  deriving DecidableEq, Repr

/-- The order in which the buckets are refilled. -/
def EndpointClass.index : EndpointClass → ℕ
  | orderPlace => 0
  | orderControl => 1
  | quote => 2
  | historical => 3
  | other => 4

theorem EndpointClass.index_le (e : EndpointClass) : e.index ≤ 4 := by
  cases e <;> decide

/-- What `time.monotonic()` and `datetime.utcnow().date()` answer at one moment. -/
@[ext] structure Reading where
  now : ℚ
  today : ℤ
  deriving DecidableEq, Repr

instance : Preorder Reading where
  le a b := a.now ≤ b.now ∧ a.today ≤ b.today
  le_refl r := ⟨le_refl r.now, le_refl r.today⟩
  le_trans _ _ _ h h' := ⟨h.1.trans h'.1, h.2.trans h'.2⟩

instance (a b : Reading) : Decidable (a ≤ b) :=
  inferInstanceAs (Decidable (a.now ≤ b.now ∧ a.today ≤ b.today))

structure Request where
  priority : Priority
  endpoint : EndpointClass
  units : ℚ
  deriving DecidableEq, Repr

/-- A `_Waiter`; the ticket stands for the object, `done` is its future's. -/
structure Waiter extends Request where
  ticket : ℕ
  enqueuedAt : ℚ
  done : Bool := false
  deriving DecidableEq, Repr

/-- `__lt__` -/
def Waiter.Before (a b : Waiter) : Prop :=
  if a.priority ≠ b.priority then a.priority.value < b.priority.value
  else a.enqueuedAt < b.enqueuedAt

instance (a b : Waiter) : Decidable (a.Before b) := by
  unfold Waiter.Before
  infer_instance

/-- `list.sort` is stable: it moves an element only past one that is strictly before it. -/
def sortWaiters (ws : List Waiter) : List Waiter := ws.insertionSort fun a b => ¬ b.Before a

/-- What a run has granted: when, on which day by the order caps, how many tokens were left,
and who was waiting. -/
structure Grant extends Request where
  ticket : ℕ
  time : ℚ
  day : ℤ
  left : ℚ
  waiting : List Waiter
  deriving DecidableEq, Repr

structure LimiterConfig where
  capacity : ℕ := 10
  quoteCapacity : ℕ := 1
  historicalCapacity : ℕ := 3
  orderCapacity : ℕ := 10
  otherCapacity : ℕ := 10
  criticalReservedTokens : ℤ := 2
  maxOrdersPerSecond : ℕ := 10
  maxOrdersPerMinute : ℕ := 400
  maxOrdersPerDay : ℕ := 5000
  deriving DecidableEq, Repr

namespace LimiterConfig
variable (cfg : LimiterConfig)

/-- The configured requests per second. -/
def rate : EndpointClass → ℕ
  | .orderPlace => cfg.orderCapacity
  | .orderControl => cfg.otherCapacity
  | .quote => cfg.quoteCapacity
  | .historical => cfg.historicalCapacity
  | .other => cfg.otherCapacity

def burst : EndpointClass → ℕ
  | .orderPlace => min cfg.orderCapacity cfg.maxOrdersPerSecond
  | .orderControl => min cfg.otherCapacity cfg.capacity
  | .quote => max 1 cfg.quoteCapacity
  | .historical => max 1 cfg.historicalCapacity
  | .other => min cfg.otherCapacity cfg.capacity

/-- `_reserved_floor` -/
def reservedFloor (r : Request) : ℚ :=
  if r.priority = .critical then 0
  else if r.endpoint = .orderPlace ∨ r.endpoint = .orderControl ∨ r.endpoint = .other then
    min (max 0 cfg.criticalReservedTokens : ℤ) (max 0 (cfg.burst r.endpoint - 1))
  else 0

end LimiterConfig

/-- The limiter; `seen` and `reads` tell the last reading and how many a step has taken, and
`enqueued`, `grants` and `cancelled` what has become of the tickets. -/
structure Limiter where
  buckets : EndpointClass → TokenBucket ℚ
  waiters : List Waiter
  secondWindow : List ℚ
  minuteWindow : List ℚ
  dayWindow : List ℚ
  dayKey : ℤ
  seen : Reading
  reads : ℕ
  nextTicket : ℕ
  enqueued : List ℕ
  grants : List Grant
  cancelled : List ℕ

inductive LimiterAction where
  | acquire (r : Request)
  | drain
  | cancel (ticket : ℕ)
  deriving DecidableEq, Repr

/-- A step with what the clocks answer in it, reading by reading. -/
structure LimiterEvent where
  action : LimiterAction
  clock : ℕ → Reading

/-- A step in which the clocks stand still. -/
def LimiterEvent.still (action : LimiterAction) (r : Reading) : LimiterEvent := ⟨action, fun _ => r⟩

namespace Limiter

def start (cfg : LimiterConfig) (r : Reading) : Limiter where
  buckets e := .full (cfg.rate e) (cfg.burst e) r.now
  waiters := []
  secondWindow := []
  minuteWindow := []
  dayWindow := []
  dayKey := r.today
  seen := r
  reads := 0
  nextTicket := 0
  enqueued := []
  grants := []
  cancelled := []

variable (cfg : LimiterConfig) (clock : ℕ → Reading) (l : Limiter)

def look : Limiter := { l with seen := clock l.reads, reads := l.reads + 1 }

def refillBuckets : Limiter :=
  { l with
    buckets := fun e => (l.buckets e).refill (clock (l.reads + e.index)).now
    seen := clock (l.reads + 4)
    reads := l.reads + 5 }

/-- `_prune_order_windows` -/
def pruneOrderWindows : Limiter :=
  let today := (clock l.reads).today
  let now := (clock (l.reads + 1)).now
  { l with
    dayKey := if today ≠ l.dayKey then today else l.dayKey
    dayWindow := if today ≠ l.dayKey then [] else l.dayWindow
    secondWindow := SlidingWindow.prune 1 now l.secondWindow
    minuteWindow := SlidingWindow.prune 60 now l.minuteWindow
    seen := clock (l.reads + 1)
    reads := l.reads + 2 }

/-- There is room under each of the order caps. -/
def CapsFree : Prop :=
  l.secondWindow.length < cfg.maxOrdersPerSecond ∧ l.minuteWindow.length < cfg.maxOrdersPerMinute ∧
    l.dayWindow.length < cfg.maxOrdersPerDay

instance : Decidable (l.CapsFree cfg) := inferInstanceAs (Decidable (_ ∧ _ ∧ _))

/-- `_order_caps_available` -/
def orderCapsAvailable : Bool × Limiter :=
  let l := l.pruneOrderWindows clock
  (l.CapsFree cfg, l)

/-- `_can_acquire` -/
def canAcquire (r : Request) : Bool × Limiter :=
  if (l.buckets r.endpoint).tokens - r.units < cfg.reservedFloor r then (false, l)
  else if r.endpoint = .orderPlace then l.orderCapsAvailable cfg clock
  else (true, l)

/-- `_consume`; only an order is logged with a reading of its own. -/
def consume (r : Request) (ticket : ℕ) : Limiter :=
  let bucket := (l.buckets r.endpoint).consume r.units
  let l := { l with buckets := Function.update l.buckets r.endpoint bucket }
  if r.endpoint = .orderPlace then
    let now := (clock l.reads).now
    let times := List.replicate r.units.floor.toNat now
    { l.look clock with
      secondWindow := l.secondWindow ++ times
      minuteWindow := l.minuteWindow ++ times
      dayWindow := l.dayWindow ++ times
      grants := ⟨r, ticket, now, l.dayKey, bucket.tokens, l.waiters⟩ :: l.grants }
  else
    { l with
      grants := ⟨r, ticket, bucket.lastRefill, l.dayKey, bucket.tokens, l.waiters⟩ :: l.grants }

/-- The first waiter that is done or can be served. -/
def scan : List Waiter → Limiter → Option Waiter × Limiter
  | [], l => (none, l)
  | w :: ws, l =>
    if w.done then (some w, l)
    else
      match l.canAcquire cfg clock w.toRequest with
      | (true, l) => (some w, l)
      | (false, l) => scan ws l

/-- One round of the loop in `_refill`, and whether it made progress. -/
def round : Bool × Limiter :=
  let l := { l with waiters := sortWaiters l.waiters }
  match l.scan cfg clock l.waiters with
  | (none, l) => (false, l)
  | (some w, l) =>
    let l := { l with waiters := l.waiters.erase w }
    (true, if w.done then l else l.consume clock w.toRequest w.ticket)

/-- The loop, for that many rounds at most. -/
def rounds : ℕ → Limiter → Limiter
  | 0, l => l
  | n + 1, l =>
    match l.round cfg clock with
    | (true, l) => rounds n l
    | (false, l) => l

/-- `_refill` -/
def refill : Limiter :=
  let l := (l.refillBuckets clock).pruneOrderWindows clock
  -- each round but the last takes a waiter off the list
  l.rounds cfg clock (l.waiters.length + 1)

/-- The slow path. -/
def enqueue (r : Request) (ticket : ℕ) : Limiter :=
  let w : Waiter := { r with ticket, enqueuedAt := (clock l.reads).now }
  { l.look clock with
    waiters := sortWaiters (l.waiters ++ [w])
    enqueued := ticket :: l.enqueued }

/-- `acquire`, up to the wait for the future; `ZerodhaRateLimitExceeded` leaves nothing. -/
def acquire (r : Request) : Limiter :=
  if r.units ≤ 0 then l
  else
    let ticket := l.nextTicket
    let l := { l.refill cfg clock with nextTicket := ticket + 1 }
    let l := if r.endpoint = .orderPlace then l.pruneOrderWindows clock else l
    if r.endpoint = .orderPlace ∧ cfg.maxOrdersPerDay ≤ l.dayWindow.length then l
    else
      match l.canAcquire cfg clock r with
      | (true, l) => l.consume clock r ticket
      | (false, l) => l.enqueue clock r ticket

/-- The task of a waiter is cancelled; its future is done, the waiter stays for now. -/
def cancel (ticket : ℕ) : Limiter :=
  if ∃ w ∈ l.waiters, w.ticket = ticket ∧ w.done = false then
    { l with
      waiters := l.waiters.map fun w => if w.ticket = ticket then { w with done := true } else w
      cancelled := ticket :: l.cancelled }
  else l

def next (e : LimiterEvent) : Limiter :=
  let l := { l with reads := 0 }
  match e.action with
  | .acquire r => l.acquire cfg e.clock r
  | .drain => l.refill cfg e.clock
  | .cancel ticket => l.cancel ticket

/-- The bucket has the tokens of the request above its floor, and an order finds room. -/
def Grantable (r : Request) : Prop :=
  cfg.reservedFloor r ≤ (l.buckets r.endpoint).tokens - r.units ∧
    (r.endpoint = .orderPlace → l.CapsFree cfg)

/-- The moves a step is made of; `Q` is what is known of the requests. -/
inductive Move (Q : Request → Prop) : Limiter → Limiter → Prop
  | refill (l : Limiter) : Move Q l (l.refillBuckets clock)
  | prune (l : Limiter) : Move Q l (l.pruneOrderWindows clock)
  | look (l : Limiter) : Move Q l (l.look clock)
  | queue (l : Limiter) (ws : List Waiter) (n : ℕ) (enqueued cancelled : List ℕ) :
      (∀ w ∈ ws, w.done = false → Q w.toRequest) →
      Move Q l { l with waiters := ws, nextTicket := n, enqueued, cancelled }
  | grant (l : Limiter) (r : Request) (ticket : ℕ) : Q r → l.Grantable cfg r →
      Move Q l (l.consume clock r ticket)

abbrev Moves (Q : Request → Prop) : Limiter → Limiter → Prop :=
  Relation.ReflTransGen (Move cfg clock Q)

variable {cfg clock l} {Q : Request → Prop}

theorem mem_sortWaiters {ws : List Waiter} {w : Waiter} : w ∈ sortWaiters ws ↔ w ∈ ws :=
  List.mem_insertionSort _

@[simp] theorem consume_waiters (r : Request) (ticket : ℕ) :
    (l.consume clock r ticket).waiters = l.waiters := by
  unfold consume
  dsimp only
  split <;> rfl

@[simp] theorem consume_nextTicket (r : Request) (ticket : ℕ) :
    (l.consume clock r ticket).nextTicket = l.nextTicket := by
  unfold consume
  dsimp only
  split <;> rfl

@[simp] theorem consume_enqueued (r : Request) (ticket : ℕ) :
    (l.consume clock r ticket).enqueued = l.enqueued := by
  unfold consume
  dsimp only
  split <;> rfl

@[simp] theorem consume_cancelled (r : Request) (ticket : ℕ) :
    (l.consume clock r ticket).cancelled = l.cancelled := by
  unfold consume
  dsimp only
  split <;> rfl

/-- The live waiters ask for something of the kind. -/
def Asks (Q : Request → Prop) (l : Limiter) : Prop :=
  ∀ w ∈ l.waiters, w.done = false → Q w.toRequest

theorem Moves.asks {l' : Limiter} (h : Moves cfg clock Q l l') (hQ : Asks Q l) : Asks Q l' := by
  induction h with
  | refl => exact hQ
  | tail _ hmove ih =>
    cases hmove with
    | refill | prune | look => exact ih
    | queue _ _ _ _ hws => exact hws
    | grant r ticket =>
      rw [Asks, consume_waiters]
      exact ih

variable (cfg clock Q) in
theorem canAcquire_spec (l : Limiter) (r : Request) :
    Moves cfg clock Q l (l.canAcquire cfg clock r).2 ∧
      (l.canAcquire cfg clock r).2.waiters = l.waiters ∧
      ((l.canAcquire cfg clock r).1 = true → (l.canAcquire cfg clock r).2.Grantable cfg r) := by
  unfold canAcquire
  split
  · exact ⟨.refl, rfl, nofun⟩
  · next htokens =>
    have htokens := le_of_not_gt htokens
    split
    · refine ⟨.single (.prune l), rfl, fun hfree => ⟨htokens, fun _ => ?_⟩⟩
      exact of_decide_eq_true hfree
    · next hplace => exact ⟨.refl, rfl, fun _ => ⟨htokens, fun h => absurd h hplace⟩⟩

variable (cfg clock Q) in
theorem scan_spec (ws : List Waiter) (l : Limiter) :
    Moves cfg clock Q l (l.scan cfg clock ws).2 ∧
      (l.scan cfg clock ws).2.waiters = l.waiters ∧
      ∀ w, (l.scan cfg clock ws).1 = some w →
        w ∈ ws ∧ (w.done = false → (l.scan cfg clock ws).2.Grantable cfg w.toRequest) := by
  induction ws generalizing l with
  | nil => exact ⟨.refl, rfl, nofun⟩
  | cons w ws ih =>
    rw [scan]
    split
    · next hdone =>
      refine ⟨.refl, rfl, fun v hv => ?_⟩
      obtain rfl := Option.some.inj hv
      exact ⟨List.mem_cons_self, fun hlive => by cases hdone.symm.trans hlive⟩
    · obtain ⟨hmoves, hwaiters, hgrant⟩ :=
        canAcquire_spec cfg clock Q l w.toRequest
      split
      · next l' hcan =>
        rw [hcan] at hmoves hwaiters hgrant
        refine ⟨hmoves, hwaiters, fun v hv => ?_⟩
        obtain rfl := Option.some.inj hv
        exact ⟨List.mem_cons_self, fun _ => hgrant rfl⟩
      · next l' hcan =>
        rw [hcan] at hmoves hwaiters
        obtain ⟨hmoves', hwaiters', hgrant'⟩ := ih l'
        exact ⟨hmoves.trans hmoves', hwaiters'.trans hwaiters,
          fun v hv => (hgrant' v hv).imp_left (List.mem_cons_of_mem w)⟩

variable (cfg clock) in
theorem round_moves (l : Limiter) (hQ : Asks Q l) :
    Moves cfg clock Q l (l.round cfg clock).2 := by
  unfold round
  have hsorted : ∀ w ∈ sortWaiters l.waiters, w.done = false → Q w.toRequest :=
    fun w hw => hQ w (mem_sortWaiters.mp hw)
  have hsort : Move cfg clock Q l { l with waiters := sortWaiters l.waiters } :=
    .queue l _ _ _ _ hsorted
  obtain ⟨hmoves, hwaiters, hgrant⟩ :=
    scan_spec cfg clock Q (sortWaiters l.waiters)
      { l with waiters := sortWaiters l.waiters }
  dsimp only
  split
  · next l' hscan =>
    rw [hscan] at hmoves
    exact hmoves.head hsort
  · next w l' hscan =>
    rw [hscan] at hmoves hwaiters hgrant
    obtain ⟨hw, hlive⟩ := hgrant w rfl
    have herase : Move cfg clock Q l' { l' with waiters := l'.waiters.erase w } := by
      refine .queue l' _ _ _ _ fun v hv => hsorted v ?_
      rw [show l'.waiters = sortWaiters l.waiters from hwaiters] at hv
      exact List.mem_of_mem_erase hv
    have hafter := (hmoves.head hsort).tail herase
    split
    · exact hafter
    · next hdone =>
      have hlive' := eq_false_of_ne_true hdone
      exact hafter.tail (.grant _ _ _ (hsorted w hw hlive') (hlive hlive'))

theorem rounds_moves (n : ℕ) (l : Limiter) (hQ : Asks Q l) :
    Moves cfg clock Q l (l.rounds cfg clock n) := by
  induction n generalizing l with
  | zero => exact .refl
  | succ n ih =>
    have hround := round_moves cfg clock l hQ
    rw [rounds]
    split
    · next l' hl =>
      rw [hl] at hround
      exact hround.trans (ih l' (hround.asks hQ))
    · next l' hl =>
      rw [hl] at hround
      exact hround

variable (cfg clock) in
theorem refill_moves (hQ : Asks Q l) :
    Moves cfg clock Q l (l.refill cfg clock) := by
  have hbegin : Moves cfg clock Q l ((l.refillBuckets clock).pruneOrderWindows clock) :=
    .tail (.single (.refill l)) (.prune _)
  exact hbegin.trans (rounds_moves _ _ (hbegin.asks hQ))

theorem acquire_moves (r : Request) (hQ : Asks Q l)
    (hr : 0 < r.units → Q r) : Moves cfg clock Q l (l.acquire cfg clock r) := by
  unfold acquire
  split
  · exact .refl
  · next hunits =>
    have hr := hr (lt_of_not_ge hunits)
    have hrefill := refill_moves cfg clock hQ
    have hticket : Moves cfg clock Q l { l.refill cfg clock with nextTicket := l.nextTicket + 1 } :=
      hrefill.tail (.queue _ _ _ _ _ (hrefill.asks hQ))
    dsimp only
    have hprune : Moves cfg clock Q l (if r.endpoint = .orderPlace
        then pruneOrderWindows clock { l.refill cfg clock with nextTicket := l.nextTicket + 1 }
        else { l.refill cfg clock with nextTicket := l.nextTicket + 1 }) := by
      split
      · exact hticket.tail (.prune _)
      · exact hticket
    generalize (if r.endpoint = .orderPlace
      then pruneOrderWindows clock { l.refill cfg clock with nextTicket := l.nextTicket + 1 }
      else { l.refill cfg clock with nextTicket := l.nextTicket + 1 }) = l₁ at hprune ⊢
    split
    · exact hprune
    · obtain ⟨hmoves, _, hgrant⟩ := canAcquire_spec cfg clock Q l₁ r
      split
      · next l' hcan =>
        rw [hcan] at hmoves hgrant
        exact (hprune.trans hmoves).tail (.grant l' r _ hr (hgrant rfl))
      · next l' hcan =>
        rw [hcan] at hmoves
        have hbefore := hprune.trans hmoves
        refine (hbefore.tail (.look l')).tail (.queue _ _ _ _ _ fun w hw => ?_)
        obtain hw | hw := List.mem_append.mp (mem_sortWaiters.mp hw)
        · exact Moves.asks hbefore hQ w hw
        · rw [List.mem_singleton.mp hw]
          exact fun _ => hr

variable (cfg) in
theorem next_moves (e : LimiterEvent) (hQ : Asks Q l)
    (he : ∀ r, e.action = .acquire r → 0 < r.units → Q r) :
    Moves cfg e.clock Q { l with reads := 0 } (l.next cfg e) := by
  unfold next
  cases haction : e.action with
  | acquire r => exact acquire_moves r hQ (he r haction)
  | drain => exact refill_moves cfg e.clock hQ
  | cancel ticket =>
    dsimp only [cancel]
    split
    · refine .single (.queue _ _ _ _ _ fun w hw => ?_)
      obtain ⟨v, hv, rfl⟩ := List.mem_map.mp hw
      split
      · exact nofun
      · exact hQ v hv
    · exact .refl

theorem Move.seen_le {l' : Limiter} (h : Move cfg clock Q l l') (hclock : Monotone clock)
    (hseen : l.seen ≤ clock l.reads) : l'.seen ≤ clock l'.reads := by
  cases h with
  | refill | prune | look => exact hclock (Nat.le_succ _)
  | queue => exact hseen
  | grant r ticket =>
    unfold consume
    dsimp only
    split
    · exact hclock (Nat.le_succ _)
    · exact hseen

theorem Moves.invariant {I : Limiter → Prop} {l' : Limiter}
    (keep : ∀ l l' : Limiter, l.seen ≤ clock l.reads → I l → Move cfg clock Q l l' → I l')
    (hclock : Monotone clock) (h : Moves cfg clock Q l l') (hseen : l.seen ≤ clock l.reads)
    (hI : I l) : I l' ∧ l'.seen ≤ clock l'.reads := by
  induction h with
  | refl => exact ⟨hI, hseen⟩
  | tail _ hmove ih => exact ⟨keep _ _ ih.2 ih.1 hmove, hmove.seen_le hclock ih.2⟩

/-- The clocks do not go back, within the step or since the last reading, and the request, if
there is one, is of the kind. -/
def Admissible (Q : Request → Prop) (l : Limiter) (e : LimiterEvent) : Prop :=
  (Monotone e.clock ∧ l.seen ≤ e.clock 0) ∧ ∀ r, e.action = .acquire r → 0 < r.units → Q r

/-- What every move keeps holds after every step of a run. -/
theorem run_invariant {I : Limiter → Prop}
    (keep : ∀ (clock : ℕ → Reading) (l l' : Limiter), Monotone clock → l.seen ≤ clock l.reads →
      I l → Move cfg clock Q l l' → I l')
    (reset : ∀ l : Limiter, I l → I { l with reads := 0 }) {es : List LimiterEvent}
    (h : StepsMeet (next cfg) (Admissible Q) l es) (hQ : Asks Q l)
    (hI : I l) : AlongRun (next cfg) (fun l => I l ∧ Asks Q l) l es := by
  have hstep (l : Limiter) (e : LimiterEvent) (hl : I l ∧ Asks Q l)
      (hok : Admissible Q l e) :
      I (l.next cfg e) ∧ Asks Q (l.next cfg e) := by
    obtain ⟨⟨hclock, hseen⟩, he⟩ := hok
    have hmoves := next_moves cfg e hl.2 he
    have hI := Moves.invariant (fun l l' => keep e.clock l l' hclock) hclock hmoves hseen
      (reset l hl.1)
    exact ⟨hI.1, Moves.asks hmoves hl.2⟩
  exact h.invariant hstep ⟨hI, hQ⟩

theorem next_still_seen {r : Reading} (hseen : l.seen ≤ r) (a : LimiterAction) :
    (l.next cfg (.still a r)).seen ≤ r := by
  have hmoves := next_moves cfg (Q := fun _ => True) (l := l) (.still a r)
    (fun _ _ _ => trivial) fun _ _ _ => trivial
  refine (Moves.invariant (I := fun l => l.seen ≤ r) (fun l l' _ hl hmove => ?_) monotone_const
    hmoves hseen hseen).1
  cases hmove with
  | refill | prune | look => exact le_rfl
  | queue => exact hl
  | grant =>
    unfold consume
    dsimp only
    split
    · exact le_rfl
    · exact hl

/-- The clocks stand still within the step besides. -/
def Still (Q : Request → Prop) (l : Limiter) (e : LimiterEvent) : Prop :=
  Admissible Q l e ∧ ∃ r, e.clock = fun _ => r

/-- Steps with the clocks standing still, one after the other. -/
theorem stepsMeet_still (es : List (LimiterAction × Reading)) (l : Limiter)
    (hsorted : es.Pairwise fun a b => a.2 ≤ b.2) (hseen : ∀ e ∈ es, l.seen ≤ e.2)
    (hQ : ∀ e ∈ es, ∀ r, e.1 = .acquire r → 0 < r.units → Q r) :
    StepsMeet (next cfg) (Still Q) l (es.map fun e => .still e.1 e.2) := by
  induction es generalizing l with
  | nil => trivial
  | cons e es ih =>
    obtain ⟨hhead, htail⟩ := List.pairwise_cons.mp hsorted
    have hfirst := hseen e List.mem_cons_self
    refine ⟨⟨⟨⟨monotone_const, hfirst⟩, hQ e List.mem_cons_self⟩, e.2, rfl⟩,
      ih _ htail (fun e' he' => ?_) fun e' he' => hQ e' (List.mem_cons_of_mem e he')⟩
    exact (next_still_seen hfirst e.1).trans (hhead e' he')

theorem reservedFloor_nonneg (cfg : LimiterConfig) (r : Request) : 0 ≤ cfg.reservedFloor r := by
  unfold LimiterConfig.reservedFloor
  split
  · exact le_rfl
  · split
    · exact le_min (by exact_mod_cast le_max_left _ _) (le_max_left _ _)
    · exact le_rfl

theorem Grantable.units_le {r : Request} (h : l.Grantable cfg r) :
    r.units ≤ (l.buckets r.endpoint).tokens :=
  sub_nonneg.mp ((reservedFloor_nonneg cfg r).trans h.1)

section Buckets
variable {e : EndpointClass} {l' : Limiter}

theorem consume_buckets_self (r : Request) (ticket : ℕ) :
    (l.consume clock r ticket).buckets r.endpoint = (l.buckets r.endpoint).consume r.units := by
  unfold consume
  dsimp only
  split <;> exact Function.update_self ..

theorem consume_buckets_of_ne {r : Request} (he : e ≠ r.endpoint) (ticket : ℕ) :
    (l.consume clock r ticket).buckets e = l.buckets e := by
  unfold consume
  dsimp only
  split <;> exact Function.update_of_ne he ..

variable (clock l) in
theorem consume_grants (r : Request) (ticket : ℕ) : ∃ g : Grant,
    (l.consume clock r ticket).grants = g :: l.grants ∧ g.toRequest = r ∧ g.ticket = ticket ∧
      g.left = (l.buckets r.endpoint).tokens - r.units ∧ g.waiting = l.waiters := by
  unfold consume
  dsimp only
  split <;> exact ⟨_, rfl, rfl, rfl, rfl, rfl⟩

variable (clock) in
theorem seen_le_consume (hseen : l.seen ≤ clock l.reads) (r : Request) (ticket : ℕ) :
    l.seen ≤ (l.consume clock r ticket).seen := by
  unfold consume
  dsimp only
  split
  · exact hseen
  · exact le_rfl

/-- The buckets are those of the configuration, with as many tokens as they may have. -/
structure Sound (cfg : LimiterConfig) (l : Limiter) : Prop where
  rate : ∀ e, (l.buckets e).rate = cfg.rate e
  burst : ∀ e, (l.buckets e).burst = cfg.burst e
  past : ∀ e, (l.buckets e).lastRefill ≤ l.seen.now
  valid : ∀ e, (l.buckets e).Valid

theorem start_sound (r : Reading) : Sound cfg (start cfg r) where
  rate _ := rfl
  burst _ := rfl
  past _ := le_rfl
  valid _ := TokenBucket.full_valid (Nat.cast_nonneg _) (Nat.cast_nonneg _)

theorem Sound.reset (h : Sound cfg l) : Sound cfg { l with reads := 0 } :=
  ⟨h.rate, h.burst, h.past, h.valid⟩

/-- The bucket of an endpoint is refilled at a reading that is not before the last one. -/
theorem Sound.le_refill (h : Sound cfg l) (hclock : Monotone clock)
    (hseen : l.seen ≤ clock l.reads) (e : EndpointClass) :
    (l.buckets e).lastRefill ≤ (clock (l.reads + e.index)).now :=
  (h.past e).trans (hseen.1.trans (hclock (Nat.le_add_right _ _)).1)

theorem Sound.move (h : Sound cfg l) (hQ : ∀ r, Q r → 0 ≤ r.units) (hclock : Monotone clock)
    (hseen : l.seen ≤ clock l.reads) (hmove : Move cfg clock Q l l') : Sound cfg l' := by
  cases hmove with
  | refill =>
    refine ⟨h.rate, h.burst, fun e => ?_, fun e => ?_⟩
    · exact (hclock (Nat.add_le_add_left e.index_le _)).1
    · exact (h.valid e).refill (h.le_refill hclock hseen e)
  | prune =>
    have hle := hseen.trans (hclock (Nat.le_succ _))
    exact ⟨h.rate, h.burst, fun e => (h.past e).trans hle.1, h.valid⟩
  | look => exact ⟨h.rate, h.burst, fun e => (h.past e).trans hseen.1, h.valid⟩
  | queue => exact ⟨h.rate, h.burst, h.past, h.valid⟩
  | grant r ticket hr hgrant =>
    have hle := (seen_le_consume clock hseen r ticket).1
    have hbucket (e : EndpointClass) : (l.consume clock r ticket).buckets e = l.buckets e ∨
        (e = r.endpoint ∧ (l.consume clock r ticket).buckets e =
          (l.buckets r.endpoint).consume r.units) := by
      by_cases he : e = r.endpoint
      · subst he
        exact Or.inr ⟨rfl, consume_buckets_self r ticket⟩
      · exact Or.inl (consume_buckets_of_ne he ticket)
    refine ⟨fun e => ?_, fun e => ?_, fun e => ?_, fun e => ?_⟩ <;>
      obtain hsame | ⟨rfl, hnew⟩ := hbucket e
    · rw [hsame, h.rate]
    · rw [hnew, TokenBucket.consume_rate, h.rate]
    · rw [hsame, h.burst]
    · rw [hnew, TokenBucket.consume_burst, h.burst]
    · rw [hsame]
      exact (h.past e).trans hle
    · rw [hnew, TokenBucket.consume_lastRefill]
      exact (h.past _).trans hle
    · rw [hsame]
      exact h.valid e
    · rw [hnew]
      exact (h.valid _).consume (hQ r hr) hgrant.units_le

end Buckets

end Limiter
end QuantEmbrace
