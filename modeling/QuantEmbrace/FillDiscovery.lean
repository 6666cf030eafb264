import QuantEmbrace.BulkPoller
import Mathlib.Algebra.Ring.Int.Parity
import Mathlib.Data.Rat.Floor

/-! How the fill of an entry with a stop price is discovered: the response to a delivery,
the poller, and the passes of the startup reconciliation, one after the other, each with
the stop children it creates and the position updates it makes. -/
namespace QuantEmbrace
open GuardedRun
open OrderStatus (isValidStatusTransition)
open PythonValue.Json (truncate)

/-- `f"{filled_quantity:.8f}"`, exact halves to the even neighbour. -/
def eightDecimals (q : ℚ) : ℤ :=
  let x := q * 100000000
  if x - ⌊x⌋ < 1 / 2 ∨ (x - ⌊x⌋ = 1 / 2 ∧ Even ⌊x⌋) then ⌊x⌋ else ⌊x⌋ + 1

/-- The `fill_id` in a child order id: `_protective_fill_key` of the order, or the
poller's `compute_fill_id`. -/
inductive ChildKey where
  | protective (filledQuantity : ℤ)
  | fill (key : FillKey)
  deriving DecidableEq, Repr

/-- The broker's cumulative view at a discovery, and how much of it was new. -/
abbrev Discovered := FillKey × ℚ

def Discovered.prior (d : Discovered) : ℚ := d.1.filledQuantity - d.2

/-- The order row, the fills table, the position updates that went through, and the stop
children that were created. -/
structure CoverState extends PollState where
  children : List (ChildKey × Discovered)

namespace CoverState

def start : CoverState := ⟨⟨.reserved, [], []⟩, []⟩

def write (st : CoverState) (w : StatusWrite) : CoverState :=
  { st with row := w.undisturbed st.row }

/-- `submit_child_order`: a child that exists is left alone. -/
def protect (st : CoverState) (key : ChildKey) (d : Discovered) : CoverState :=
  if key ∈ st.children.map Prod.fst then st
  else { st with children := st.children ++ [(key, d)] }

def credit (st : CoverState) (d : Discovered) : CoverState :=
  { st with credits := st.credits ++ [d] }

end CoverState

/-- A fault of a discovery; `stopFails`: the child was not stored. -/
structure DiscoveryFault extends Fault where
  stopFails : Bool

inductive Discovery where
  | respond (r : OrderResponse) (f : DiscoveryFault)
  | replay (f : DiscoveryFault)
  | poll (k : KiteOrder) (f : DiscoveryFault)
  | retryPending (r : OrderResponse) (f : DiscoveryFault)
  | recoverAckUnknown (r : OrderResponse) (f : DiscoveryFault)
  | checkPlaced (r : BrokerReport) (f : DiscoveryFault)
  | other (w : StatusWrite)

namespace CoverState
variable (st : CoverState)

/-- `record_order` of a response goes through. -/
def Records (r : OrderResponse) (f : DiscoveryFault) : Prop :=
  1 ≤ f.reached ∧ f.statusFails = false ∧ isValidStatusTransition st.row.status r.status = true

def responseFill (r : OrderResponse) : Discovered :=
  (⟨r.brokerOrderId, r.filledQuantity, r.avgFillPrice⟩, r.filledQuantity)

instance (r : OrderResponse) (f : DiscoveryFault) : Decidable (st.Records r f) :=
  inferInstanceAs (Decidable (_ ∧ _))

/-- `record_order` and `_maybe_place_protective_stop`; what raises ends it. -/
def recordAndProtect (r : OrderResponse) (f : DiscoveryFault) : CoverState :=
  if ¬ st.Records r f then st
  else if f.reached < 2 ∨ f.stopFails = true ∨ r.filledQuantity ≤ 0 then st.write (recordOrder r)
  else (st.write (recordOrder r)).protect (.protective (eightDecimals r.filledQuantity))
    (responseFill r)

/-- A delivery or redelivery that gets a response for a row that is PENDING or
ACK_UNKNOWN, and the position update of `_handle_approved_signal_event`. -/
def respond (r : OrderResponse) (f : DiscoveryFault) : CoverState :=
  if st.row.status ≠ .pending ∧ st.row.status ≠ .ackUnknown then st
  else
    let after := st.recordAndProtect r f
    if st.Records r f ∧ 3 ≤ f.reached ∧ f.stopFails = false ∧ f.creditFails = false ∧
        (r.status = .filled ∨ r.status = .partiallyFilled) ∧ 0 < r.filledQuantity
    then after.credit (responseFill r) else after

/-- The duplicate path: the stored order is the response. -/
def storedFill : Discovered :=
  (⟨st.row.brokerOrderId.getD "", st.row.filledQuantity, st.row.avgFillPrice⟩,
    st.row.filledQuantity)

def replay (f : DiscoveryFault) : CoverState :=
  if (st.row.status = .filled ∨ st.row.status = .partiallyFilled) ∧ 0 < st.row.filledQuantity ∧
      1 ≤ f.reached ∧ f.creditFails = false
  then st.credit st.storedFill else st

/-- The first pass over a PENDING entry has no position update. -/
def retryPending (r : OrderResponse) (f : DiscoveryFault) : CoverState :=
  if st.row.status = .pending then st.recordAndProtect r f else st

def recoverAckUnknown (r : OrderResponse) (f : DiscoveryFault) : CoverState :=
  if st.row.status = .ackUnknown ∧ st.Records r f then st.write (recordOrder r) else st

def reportFill (r : BrokerReport) : Discovered :=
  (⟨st.row.brokerOrderId.getD "", r.filledQuantity, r.avgFillPrice⟩,
    max 0 (r.filledQuantity - st.row.filledQuantity))

/-- The second pass asks about the order and is told a new status. -/
def Checks (r : BrokerReport) : Prop :=
  st.row.Tracked ∧ r.status ≠ st.row.status

/-- The report has a fill that the second pass applies. -/
def ReportsFill (r : BrokerReport) : Prop :=
  (r.status = .filled ∨ r.status = .partiallyFilled) ∧
    0 < max 0 (r.filledQuantity - st.row.filledQuantity)

instance (r : BrokerReport) : Decidable (st.Checks r) := inferInstanceAs (Decidable (_ ∧ _))
instance (r : BrokerReport) : Decidable (st.ReportsFill r) := inferInstanceAs (Decidable (_ ∧ _))

/-- Status, position, stop; the status and the position are not asked how they went. -/
def checkPlaced (r : BrokerReport) (f : DiscoveryFault) : CoverState :=
  if ¬ st.Checks r ∨ f.reached = 0 then st
  else
    let st1 := if f.statusFails then st else st.write (reconcileWrite r)
    if ¬ st.ReportsFill r ∨ f.reached < 2 then st1
    else
      let st2 := if f.creditFails then st1 else st1.credit (st.reportFill r)
      if f.reached < 3 ∨ f.stopFails = true then st2
      else st2.protect (.protective (eightDecimals r.filledQuantity)) (st.reportFill r)

/-- An action of a poller's handler; its stop carries the fill id of the gate. -/
def act (f : DiscoveryFault) (key : FillKey) (st : CoverState) : Action → CoverState
  | .protectiveStop q => if f.stopFails then st else st.protect (.fill key) (key, q)
  | a => { st with toPollState := QuantEmbrace.act f.toFault st.toPollState a }

def perform (f : DiscoveryFault) (key : FillKey) (n : ℕ) (as : List Action) (st : CoverState) :
    CoverState :=
  (as.take n).foldl (act f key) st

def run (h : Handler) (f : DiscoveryFault) (key : FillKey) (st : CoverState) : CoverState :=
  match h.gate with
  | none => perform f key f.reached h.seen st
  | some key =>
    if f.reached = 0 then st
    else if key ∈ st.fills then perform f key (f.reached - 1) h.seen st
    else perform f key (f.reached - 1) h.fresh { st with fills := key :: st.fills }

def poll (k : KiteOrder) (f : DiscoveryFault) : CoverState :=
  if st.row.Tracked then run (dispatch st.row k) f (fillKey st.row k) st else st

def step : Discovery → CoverState
  | .respond r f => st.respond r f
  | .replay f => st.replay f
  | .poll k f => st.poll k f
  | .retryPending r f => st.retryPending r f
  | .recoverAckUnknown r f => st.recoverAckUnknown r f
  | .checkPlaced r f => st.checkPlaced r f
  | .other w => st.write w

/-- What the stop children of the order cover. -/
def protectedQuantity : ℚ := (st.children.map fun c => c.2.2).sum

/-- The stop children cover what was credited: each credited increment has its one
child, and no increment overlaps another. -/
structure Covered : Prop where
  total : st.protectedQuantity = st.credited
  each : st.children.map Prod.snd = st.credits
  once : st.credits.Pairwise fun a b : Discovered => a.1.filledQuantity ≤ b.prior

/-- No child has this id yet. -/
def Fresh (key : ChildKey) : Prop := key ∉ st.children.map Prod.fst

/-- The increment starts where all that was credited ends. -/
def After (d : Discovered) : Prop := ∀ a ∈ st.credits, a.1.filledQuantity ≤ d.prior

/-- A delivery asks the broker about the order. -/
def Awaits : Prop := st.row.status = .pending ∨ st.row.status = .ackUnknown

/-- A recorded response gets to its stop and has a quantity for it. -/
def Protects (r : OrderResponse) (f : DiscoveryFault) : Prop :=
  st.Records r f ∧ 2 ≤ f.reached ∧ f.stopFails = false ∧ 0 < r.filledQuantity

/-- The delivery gets from the stop through the position update. -/
def Finishes (r : OrderResponse) (f : DiscoveryFault) : Prop :=
  3 ≤ f.reached ∧ f.creditFails = false ∧ (r.status = .filled ∨ r.status = .partiallyFilled)

/-- A redelivery gets the stored fill to the position. -/
def Replays (f : DiscoveryFault) : Prop :=
  (st.row.status = .filled ∨ st.row.status = .partiallyFilled) ∧ 0 < st.row.filledQuantity ∧
    1 ≤ f.reached ∧ f.creditFails = false

/-- The poller finds an increment that has no fill record. -/
def Finds (k : KiteOrder) : Prop :=
  st.row.Tracked ∧ (k.Terminal ∨ k.Partial) ∧ st.row.filledQuantity < k.filledQuantity ∧
    fillKey st.row k ∉ st.fills

/-- The steps of a cycle up to its stop. -/
def stopAt (k : KiteOrder) : ℕ := if k.Ended then 2 else 3

def pollFill (k : KiteOrder) : Discovered :=
  (fillKey st.row k, k.filledQuantity - st.row.filledQuantity)

/-- A discovery that stores the stop gets its position update through and the other way
round, and its increment is new; a redelivery has no fill to credit, and the first pass
finds no fill to protect. -/
def Meets : Discovery → Prop
  | .respond r f => st.Awaits → st.Protects r f →
      (st.Fresh (.protective (eightDecimals r.filledQuantity)) ↔ Finishes r f) ∧
        (Finishes r f → st.After (responseFill r))
  | .replay f => ¬ st.Replays f
  | .poll k f => st.Finds k →
      (stopAt k ≤ f.reached ∧ f.stopFails = false ∧ st.Fresh (.fill (fillKey st.row k)) ↔
        stopAt k < f.reached ∧ f.creditFails = false) ∧
        (stopAt k < f.reached ∧ f.creditFails = false → st.After (st.pollFill k))
  | .retryPending r f => st.row.status = .pending → st.Protects r f →
      ¬ st.Fresh (.protective (eightDecimals r.filledQuantity))
  | .checkPlaced r f => st.Checks r → st.ReportsFill r →
      (3 ≤ f.reached ∧ f.stopFails = false ∧
        st.Fresh (.protective (eightDecimals r.filledQuantity)) ↔
        2 ≤ f.reached ∧ f.creditFails = false) ∧
        (2 ≤ f.reached ∧ f.creditFails = false → st.After (st.reportFill r))
  | .recoverAckUnknown _ _ | .other _ => True

/-- What a discovery of `d` did: a child for it if `stop`, a position update if `credit`. -/
structure Outcome (st' : CoverState) (d : Discovered) (stop credit : Prop) : Prop where
  stopped : stop → st'.children.map Prod.snd = st.children.map Prod.snd ++ [d]
  unstopped : ¬ stop → st'.children = st.children
  credited : credit → st'.credits = st.credits ++ [d]
  uncredited : ¬ credit → st'.credits = st.credits

variable {st}

theorem covered_of_each (each : st.children.map Prod.snd = st.credits)
    (once : st.credits.Pairwise fun a b : Discovered => a.1.filledQuantity ≤ b.prior) :
    st.Covered := by
  refine ⟨?_, each, once⟩
  rw [protectedQuantity, PollState.credited, ← each, List.map_map]
  rfl

theorem start_covered : start.Covered := covered_of_each rfl List.Pairwise.nil

section Outcomes
variable {st' : CoverState} {d : Discovered} {stop credit : Prop}

/-- A discovery keeps the cover when it does both or neither, on a new increment. -/
theorem Outcome.covered (h : st.Outcome st' d stop credit) (hst : st.Covered) :
    st'.Covered ↔ (stop ↔ credit) ∧ (credit → st.After d) := by
  by_cases hs : stop <;> by_cases hc : credit
  · have hcr := h.credited hc
    have hch := h.stopped hs
    constructor
    · intro hcov
      have honce := hcov.once
      rw [hcr, List.pairwise_append] at honce
      exact ⟨iff_of_true hs hc, fun _ a ha => honce.2.2 a ha d (List.mem_singleton_self d)⟩
    · intro ⟨_, hafter⟩
      refine covered_of_each (by rw [hch, hcr, hst.each]) ?_
      rw [hcr, List.pairwise_append]
      refine ⟨hst.once, List.pairwise_singleton _ _, ?_⟩
      intro a ha b hb
      rw [List.mem_singleton.mp hb]
      exact hafter hc a ha
  · refine iff_of_false (fun hcov => ?_) (fun hok => hc (hok.1.mp hs))
    have heach := hcov.each
    rw [h.stopped hs, h.uncredited hc, hst.each] at heach
    simpa using congrArg List.length heach
  · refine iff_of_false (fun hcov => ?_) (fun hok => hs (hok.1.mpr hc))
    have heach := hcov.each
    rw [h.unstopped hs, h.credited hc, hst.each] at heach
    simpa using congrArg List.length heach
  · have hcr := h.uncredited hc
    have hch := h.unstopped hs
    refine iff_of_true (covered_of_each (by rw [hch, hcr, hst.each]) ?_)
      ⟨iff_of_false hs hc, fun h => absurd h hc⟩
    rw [hcr]
    exact hst.once

theorem outcome_same (d : Discovered) (hs : ¬ stop) (hc : ¬ credit)
    (hch : st'.children = st.children) (hcr : st'.credits = st.credits) :
    st.Outcome st' d stop credit :=
  ⟨fun h => absurd h hs, fun _ => hch, fun h => absurd h hc, fun _ => hcr⟩

theorem Outcome.congr {stop' credit' : Prop} (h : st.Outcome st' d stop credit)
    (hs : stop' ↔ stop) (hc : credit' ↔ credit) : st.Outcome st' d stop' credit' := by
  rwa [propext hs, propext hc]

/-- What comes first left the stops and the credits alone. -/
theorem Outcome.from {mid : CoverState} (h : st.Outcome mid d False False)
    (h' : mid.Outcome st' d stop credit) : st.Outcome st' d stop credit := by
  have hch := h.unstopped id
  have hcr := h.uncredited id
  constructor
  · rw [← hch]
    exact h'.stopped
  · rw [← hch]
    exact h'.unstopped
  · rw [← hcr]
    exact h'.credited
  · rw [← hcr]
    exact h'.uncredited

theorem Outcome.fresh_iff (h : st.Outcome st' d False credit) (key : ChildKey) :
    st'.Fresh key ↔ st.Fresh key := by
  rw [Fresh, Fresh, h.unstopped id]

theorem Outcome.thenStop {mid : CoverState} (h : st.Outcome mid d False credit)
    (h' : mid.Outcome st' d stop False) : st.Outcome st' d stop credit := by
  refine ⟨fun hs => ?_, fun hs => (h'.unstopped hs).trans (h.unstopped id),
    fun hc => (h'.uncredited id).trans (h.credited hc),
    fun hc => (h'.uncredited id).trans (h.uncredited hc)⟩
  rw [h'.stopped hs, h.unstopped id]

theorem Outcome.thenCredit {mid : CoverState} (h : st.Outcome mid d stop False)
    (h' : mid.Outcome st' d False credit) : st.Outcome st' d stop credit := by
  refine ⟨fun hs => ?_, fun hs => (h'.unstopped id).trans (h.unstopped hs), fun hc => ?_,
    fun hc => (h'.uncredited hc).trans (h.uncredited id)⟩
  · rw [h'.unstopped id, h.stopped hs]
  · rw [h'.credited hc, h.uncredited id]

end Outcomes

section Basics
variable (st) (key : ChildKey) (d : Discovered)

theorem protect_credits : (st.protect key d).credits = st.credits := by
  unfold protect
  split <;> rfl

theorem protect_taken (h : ¬ st.Fresh key) : st.protect key d = st := if_pos (not_not.mp h)

theorem protect_fresh (h : st.Fresh key) :
    (st.protect key d).children = st.children ++ [(key, d)] := by
  rw [protect, if_neg h]

end Basics

section Paths
variable (st) (r : OrderResponse) (b : BrokerReport) (k : KiteOrder) (f : DiscoveryFault)

/-- A child that is asked for, whether or not its id is taken. -/
theorem protect_outcome (key : ChildKey) (d : Discovered) :
    st.Outcome (st.protect key d) d (st.Fresh key) False := by
  refine ⟨fun h => ?_, fun h => ?_, False.elim, fun _ => protect_credits st key d⟩
  · rw [protect_fresh st key d h, List.map_append]
    rfl
  · rw [protect_taken st key d h]

theorem creditIf_outcome (d : Discovered) (c : Prop) [Decidable c] :
    st.Outcome (if c then st.credit d else st) d False c := by
  split
  next hc => exact ⟨False.elim, fun _ => rfl, fun _ => rfl, fun hno => absurd hc hno⟩
  next hc => exact outcome_same _ id hc rfl rfl

theorem writeUnless_outcome (c : Bool) (w : StatusWrite) (d : Discovered) :
    st.Outcome (if c then st else st.write w) d False False := by
  split <;> exact outcome_same _ id id rfl rfl

theorem recordAndProtect_outcome :
    st.Outcome (st.recordAndProtect r f) (responseFill r)
      (st.Protects r f ∧ st.Fresh (.protective (eightDecimals r.filledQuantity))) False := by
  unfold recordAndProtect
  by_cases hr : st.Records r f
  · rw [if_neg (not_not.mpr hr)]
    by_cases hp : f.reached < 2 ∨ f.stopFails = true ∨ r.filledQuantity ≤ 0
    · rw [if_pos hp]
      refine outcome_same _ ?_ id rfl rfl
      rintro ⟨⟨_, h2, hs, hq⟩, _⟩
      obtain h | h | h := hp
      · omega
      · simp [hs] at h
      · exact absurd hq (not_lt.mpr h)
    · rw [if_neg hp]
      obtain ⟨hlt, hp⟩ := not_or.mp hp
      obtain ⟨hfails, hle⟩ := not_or.mp hp
      have h2 : 2 ≤ f.reached := not_lt.mp hlt
      have hs : f.stopFails = false := Bool.eq_false_of_not_eq_true hfails
      have hq : 0 < r.filledQuantity := not_le.mp hle
      have h := (st.write (recordOrder r)).protect_outcome
        (.protective (eightDecimals r.filledQuantity)) (responseFill r)
      exact ⟨fun hok => h.stopped hok.2,
        fun hno => h.unstopped fun hf => hno ⟨⟨hr, h2, hs, hq⟩, hf⟩, False.elim, h.uncredited⟩
  · rw [if_pos hr]
    exact outcome_same _ (fun h => hr h.1.1) id rfl rfl

theorem respond_outcome :
    st.Outcome (st.respond r f) (responseFill r)
      (st.Awaits ∧ st.Protects r f ∧ st.Fresh (.protective (eightDecimals r.filledQuantity)))
      (st.Awaits ∧ st.Protects r f ∧ Finishes r f) := by
  unfold respond
  by_cases ha : st.Awaits
  · have hn : ¬ (st.row.status ≠ .pending ∧ st.row.status ≠ .ackUnknown) := by
      unfold Awaits at ha
      tauto
    rw [if_neg hn]
    have h := (st.recordAndProtect_outcome r f).thenCredit
      ((st.recordAndProtect r f).creditIf_outcome (responseFill r)
        (st.Records r f ∧ 3 ≤ f.reached ∧ f.stopFails = false ∧ f.creditFails = false ∧
          (r.status = .filled ∨ r.status = .partiallyFilled) ∧ 0 < r.filledQuantity))
    refine h.congr (and_iff_right ha) ?_
    simp only [ha, Protects, Finishes, true_and]
    constructor
    · exact fun ⟨⟨hr, _, hs, hq⟩, h3, hf, hk⟩ => ⟨hr, h3, hs, hf, hk, hq⟩
    · exact fun ⟨hr, h3, hs, hf, hk, hq⟩ => ⟨⟨hr, by omega, hs, hq⟩, h3, hf, hk⟩
  · have hn : st.row.status ≠ .pending ∧ st.row.status ≠ .ackUnknown := not_or.mp ha
    rw [if_pos hn]
    exact outcome_same _ (fun h => ha h.1) (fun h => ha h.1) rfl rfl

theorem replay_outcome : st.Outcome (st.replay f) st.storedFill False (st.Replays f) :=
  st.creditIf_outcome st.storedFill _

theorem retryPending_outcome :
    st.Outcome (st.retryPending r f) (responseFill r)
      (st.row.status = .pending ∧ st.Protects r f ∧
        st.Fresh (.protective (eightDecimals r.filledQuantity))) False := by
  unfold retryPending
  by_cases hp : st.row.status = .pending
  · rw [if_pos hp]
    have h := st.recordAndProtect_outcome r f
    exact ⟨fun hok => h.stopped hok.2, fun hno => h.unstopped fun hok => hno ⟨hp, hok⟩,
      False.elim, h.uncredited⟩
  · rw [if_neg hp]
    exact outcome_same _ (fun h => hp h.1) id rfl rfl

theorem recoverAckUnknown_outcome :
    st.Outcome (st.recoverAckUnknown r f) (responseFill r) False False := by
  unfold recoverAckUnknown
  split <;> exact outcome_same _ id id rfl rfl

/-- Position before stop, each on its own. -/
theorem creditThenStop_outcome (f : DiscoveryFault) (key : ChildKey) (d : Discovered) :
    let after := if f.creditFails then st else st.credit d
    st.Outcome (if f.reached < 3 ∨ f.stopFails = true then after else after.protect key d) d
      (3 ≤ f.reached ∧ f.stopFails = false ∧ st.Fresh key) (f.creditFails = false) := by
  intro after
  have hcredit : st.Outcome after d False (f.creditFails = false) := by
    have h := st.creditIf_outcome d (¬ f.creditFails = true)
    rw [ite_not] at h
    exact h.congr Iff.rfl (by simp)
  have hkey : after.Fresh key ↔ st.Fresh key := hcredit.fresh_iff key
  refine hcredit.thenStop ?_
  by_cases hs : f.reached < 3 ∨ f.stopFails = true
  · rw [if_pos hs]
    refine outcome_same _ ?_ id rfl rfl
    rintro ⟨h3, hf, _⟩
    obtain hs | hs := hs
    · omega
    · simp [hf] at hs
  · rw [if_neg hs]
    obtain ⟨hlt, hfails⟩ := not_or.mp hs
    have h3 : 3 ≤ f.reached := not_lt.mp hlt
    have hf : f.stopFails = false := Bool.eq_false_of_not_eq_true hfails
    refine (after.protect_outcome key d).congr ?_ Iff.rfl
    rw [hkey]
    exact ⟨fun h => h.2.2, fun h => ⟨h3, hf, h⟩⟩

theorem checkPlaced_outcome :
    st.Outcome (st.checkPlaced b f) (st.reportFill b)
      (st.Checks b ∧ st.ReportsFill b ∧ 3 ≤ f.reached ∧ f.stopFails = false ∧
        st.Fresh (.protective (eightDecimals b.filledQuantity)))
      (st.Checks b ∧ st.ReportsFill b ∧ 2 ≤ f.reached ∧ f.creditFails = false) := by
  unfold checkPlaced
  by_cases hg : ¬ st.Checks b ∨ f.reached = 0
  · rw [if_pos hg]
    have hno : st.Checks b → ¬ 1 ≤ f.reached := by
      intro hc
      have h0 : f.reached = 0 := hg.resolve_left (not_not.mpr hc)
      omega
    exact outcome_same _ (fun h => hno h.1 (by omega)) (fun h => hno h.1 (by omega)) rfl rfl
  rw [if_neg hg]
  have hchecks : st.Checks b := not_not.mp (not_or.mp hg).1
  have hwrite := st.writeUnless_outcome f.statusFails (reconcileWrite b) (st.reportFill b)
  by_cases h2 : ¬ st.ReportsFill b ∨ f.reached < 2
  · have hno : st.ReportsFill b → ¬ 2 ≤ f.reached := by
      intro hr
      have hlt : f.reached < 2 := h2.resolve_left (not_not.mpr hr)
      omega
    simp only [if_pos h2]
    exact hwrite.congr ⟨fun h => hno h.2.1 (by omega), False.elim⟩
      ⟨fun h => hno h.2.1 h.2.2.1, False.elim⟩
  simp only [if_neg h2]
  obtain ⟨hr, hle⟩ := not_or.mp h2
  have hreports : st.ReportsFill b := not_not.mp hr
  have hrest := hwrite.from (creditThenStop_outcome _ f
    (.protective (eightDecimals b.filledQuantity)) (st.reportFill b))
  refine hrest.congr ?_ ?_
  · rw [hwrite.fresh_iff]
    exact ⟨fun h => h.2.2, fun h => ⟨hchecks, hreports, h⟩⟩
  · exact ⟨fun h => h.2.2.2, fun h => ⟨hchecks, hreports, by omega, h⟩⟩

end Paths

section Poll
variable (f : DiscoveryFault) (key : FillKey) (st : CoverState) (k : KiteOrder)

theorem act_protectiveStop (q : ℚ) : act f key st (.protectiveStop q) =
    if f.stopFails then st else st.protect (.fill key) (key, q) := rfl

theorem act_toPollState (a : Action) :
    (act f key st a).toPollState = QuantEmbrace.act f.toFault st.toPollState a := by
  cases a with
  | protectiveStop q =>
    rw [act_protectiveStop]
    unfold protect
    split
    · rfl
    · split <;> rfl
  | _ => rfl

/-- On the row, the fills table and the position the actions are the poller's. -/
theorem perform_toPollState (n : ℕ) (as : List Action) :
    (perform f key n as st).toPollState = QuantEmbrace.perform f.toFault n as st.toPollState := by
  induction as generalizing n st with
  | nil => simp [perform]
  | cons a as ih =>
    cases n with
    | zero => rfl
    | succ n =>
      have h := ih (act f key st a) n
      rwa [act_toPollState] at h

theorem run_toPollState (h : Handler) :
    (run h f key st).toPollState = h.run f.toFault st.toPollState := by
  obtain ⟨gate, fresh, seen⟩ := h
  cases gate with
  | none => exact perform_toPollState f key st _ _
  | some key' =>
    unfold run Handler.run
    dsimp only
    split
    · rfl
    · split <;> exact perform_toPollState f key' _ _ _

theorem poll_toPollState :
    (st.poll k f).toPollState = pollCycle st.toPollState (k, f.toFault) := by
  unfold poll pollCycle
  split
  · exact run_toPollState f (fillKey st.row k) st _
  · rfl

/-- The actions without a stop leave the children alone. -/
theorem perform_children (n : ℕ) (as : List Action) (has : ∀ q, .protectiveStop q ∉ as) :
    (perform f key n as st).children = st.children := by
  induction as generalizing n st with
  | nil => simp [perform]
  | cons a as ih =>
    cases n with
    | zero => rfl
    | succ n =>
      have hrest : ∀ q, .protectiveStop q ∉ as := fun q hq => has q (List.mem_cons_of_mem a hq)
      have hact : (act f key st a).children = st.children := by
        cases a with
        | protectiveStop q => exact absurd List.mem_cons_self (has q)
        | _ => rfl
      exact (ih (act f key st a) n hrest).trans hact

theorem protect_children {st st' : CoverState} (h : st'.children = st.children) (key : ChildKey)
    (d : Discovered) : (st'.protect key d).children = (st.protect key d).children := by
  unfold protect
  rw [h]
  split
  · exact h
  · rfl

/-- The stop is made when the cycle gets past what stands before it. -/
theorem perform_stop (n : ℕ) (pre post : List Action) (q : ℚ)
    (hpre : ∀ q, .protectiveStop q ∉ pre) (hpost : ∀ q, .protectiveStop q ∉ post) :
    (perform f key n (pre ++ .protectiveStop q :: post) st).children =
      if n ≤ pre.length ∨ f.stopFails = true then st.children
      else (st.protect (.fill key) (key, q)).children := by
  by_cases hn : n ≤ pre.length
  · have htake : (pre ++ .protectiveStop q :: post).take n = pre.take n :=
      List.take_append_of_le_length hn
    rw [if_pos (Or.inl hn), perform, htake]
    exact perform_children f key st n pre hpre
  · have hall : perform f key pre.length pre st = pre.foldl (act f key) st := by
      rw [perform, List.take_length]
    obtain ⟨m, rfl⟩ : ∃ m, n = pre.length + (m + 1) := ⟨n - pre.length - 1, by omega⟩
    have hsplit : perform f key (pre.length + (m + 1)) (pre ++ .protectiveStop q :: post) st =
        perform f key m post (act f key (perform f key pre.length pre st) (.protectiveStop q)) := by
      rw [hall, perform, List.take_length_add_append, List.foldl_append]
      rfl
    have hch := perform_children f key st pre.length pre hpre
    rw [hsplit, perform_children f key _ m post hpost, act_protectiveStop]
    by_cases hs : f.stopFails = true
    · rw [if_pos hs, if_pos (Or.inr hs)]
      exact hch
    · rw [if_neg hs, if_neg (not_or.mpr ⟨hn, hs⟩)]
      exact protect_children hch _ _

/-- A handler that makes a stop of `q` for the record `key` as its `n`th step, the record
counted first. -/
structure StopsAt (h : Handler) (key : FillKey) (q : ℚ) (n : ℕ) : Prop where
  gate : h.gate = some key
  seen : ∀ q, .protectiveStop q ∉ h.seen
  fresh : ∃ pre post, h.fresh = pre ++ .protectiveStop q :: post ∧ pre.length + 2 = n ∧
    (∀ q, .protectiveStop q ∉ pre) ∧ ∀ q, .protectiveStop q ∉ post

theorem dispatch_stopsAt (o : OrderRow) (k : KiteOrder) (hk : k.Terminal ∨ k.Partial)
    (hg : o.filledQuantity < k.filledQuantity) :
    StopsAt (dispatch o k) (fillKey o k) (k.filledQuantity - o.filledQuantity) (stopAt k) := by
  obtain ⟨hc, hd⟩ | ⟨_, hp, _, hd⟩ | ⟨he, s, _, hd⟩ | ⟨hterm, hpart, _⟩ := dispatch_cases o k
  · rw [hd, stopAt, if_neg fun h => h.not_complete hc]
    have hinc : max 0 (increment o k) > 0 := lt_max_of_lt_right (sub_pos.mpr hg)
    refine ⟨rfl, by simp [handleFill], [.status (pollFillWrite (k.report .filled))],
      [.credit (fillKey o k) (increment o k) (incrementPrice o k),
        .publishFill (truncate (max 0 (increment o k))) (incrementPrice o k)],
      ?_, rfl, by simp, by simp⟩
    simp only [handleFill, if_pos hinc]
    rfl
  · rw [hd, stopAt, if_neg fun h => h.not_partial hp, handlePartial, if_neg (not_le.mpr hg)]
    exact ⟨rfl, by simp, [.status (pollPartialWrite (k.report .partiallyFilled))],
      [.credit (fillKey o k) (increment o k) (incrementPrice o k),
        .publishFill (truncate (increment o k)) (incrementPrice o k)],
      rfl, rfl, by simp, by simp⟩
  · rw [hd, stopAt, if_pos he]
    have hh : handleTerminal o k s = _ := if_pos hg
    rw [hh]
    exact ⟨rfl, by simp, [], _, rfl, rfl, by simp, by simp⟩
  · exact absurd ⟨hk.resolve_left hterm, hg⟩ hpart

/-- Without an increment no handler has a stop to make. -/
theorem dispatch_noStop (o : OrderRow) (k : KiteOrder)
    (hno : ¬ ((k.Terminal ∨ k.Partial) ∧ o.filledQuantity < k.filledQuantity)) (q : ℚ) :
    .protectiveStop q ∉ (dispatch o k).fresh ∧ .protectiveStop q ∉ (dispatch o k).seen := by
  obtain ⟨hc, hd⟩ | ⟨_, hp, hg, _⟩ | ⟨he, s, _, hd⟩ | ⟨_, _, hd⟩ := dispatch_cases o k
  · have hg : ¬ o.filledQuantity < k.filledQuantity := fun hg => hno ⟨Or.inl (Or.inl hc), hg⟩
    have hinc : ¬ max 0 (increment o k) > 0 := by
      have hle : increment o k ≤ 0 := sub_nonpos.mpr (not_lt.mp hg)
      simp [max_eq_left hle]
    rw [hd, handleFill, if_neg hinc]
    simp
  · exact absurd ⟨Or.inr hp, hg⟩ hno
  · have hg : ¬ o.filledQuantity < k.filledQuantity := fun hg => hno ⟨Or.inl (Or.inr he), hg⟩
    have hh : handleTerminal o k s = _ := if_neg hg
    rw [hd, hh]
    split <;> simp
  · rw [hd]
    exact ⟨List.not_mem_nil, List.not_mem_nil⟩

theorem run_children_quiet (h : Handler) (hfresh : ∀ q, .protectiveStop q ∉ h.fresh)
    (hseen : ∀ q, .protectiveStop q ∉ h.seen) : (run h f key st).children = st.children := by
  unfold run
  split
  next => exact perform_children f key st _ _ hseen
  next key' _ =>
    split
    · rfl
    · split
      · exact perform_children f key' st _ _ hseen
      · exact perform_children f key' _ _ _ hfresh

theorem run_children_stopsAt {h : Handler} {q : ℚ} {n : ℕ} (hs : StopsAt h key q n) :
    (run h f key st).children =
      if key ∈ st.fills ∨ f.reached < n ∨ f.stopFails = true then st.children
      else (st.protect (.fill key) (key, q)).children := by
  obtain ⟨pre, post, hfresh, hn, hpre, hpost⟩ := hs.fresh
  unfold run
  rw [hs.gate]
  dsimp only
  by_cases hz : f.reached = 0
  · rw [if_pos hz, if_pos (Or.inr (Or.inl (by omega)))]
  rw [if_neg hz]
  by_cases hk : key ∈ st.fills
  · rw [if_pos hk, if_pos (Or.inl hk)]
    exact perform_children f key st _ _ hs.seen
  · rw [if_neg hk, hfresh, perform_stop f key _ _ pre post q hpre hpost]
    have hiff : (f.reached - 1 ≤ pre.length ∨ f.stopFails = true) ↔
        (key ∈ st.fills ∨ f.reached < n ∨ f.stopFails = true) := by
      rw [or_iff_right hk]
      refine or_congr_left ?_
      omega
    have hch : ({ st with fills := key :: st.fills } : CoverState).children = st.children := rfl
    exact if_congr hiff hch (protect_children hch _ _)

theorem credits_iff :
    Credits st.toPollState (k, f.toFault) ↔
      st.Finds k ∧ stopAt k < f.reached ∧ f.creditFails = false := by
  have hle : (if k.Ended then 3 else 4) ≤ f.reached ↔ stopAt k < f.reached := by
    unfold stopAt
    split <;> omega
  unfold Credits Finds
  rw [hle]
  unfold Grows Recorded
  tauto

theorem poll_outcome :
    st.Outcome (st.poll k f) (st.pollFill k)
      (st.Finds k ∧ stopAt k ≤ f.reached ∧ f.stopFails = false ∧
        st.Fresh (.fill (fillKey st.row k)))
      (st.Finds k ∧ stopAt k < f.reached ∧ f.creditFails = false) := by
  have heff := pollCycle_effect st.toPollState (k, f.toFault)
  rw [← poll_toPollState] at heff
  have hstop : st.Outcome { st with children := (st.poll k f).children } (st.pollFill k)
      (st.Finds k ∧ stopAt k ≤ f.reached ∧ f.stopFails = false ∧
        st.Fresh (.fill (fillKey st.row k))) False := by
    by_cases hf : st.row.Tracked ∧ (k.Terminal ∨ k.Partial) ∧
        st.row.filledQuantity < k.filledQuantity
    · have hs := dispatch_stopsAt st.row k hf.2.1 hf.2.2
      have hch := run_children_stopsAt f (fillKey st.row k) st hs
      have hpoll : st.poll k f = run (dispatch st.row k) f (fillKey st.row k) st := if_pos hf.1
      rw [hpoll, hch]
      by_cases hno : fillKey st.row k ∈ st.fills ∨ f.reached < stopAt k ∨ f.stopFails = true
      · rw [if_pos hno]
        refine outcome_same _ ?_ id rfl rfl
        rintro ⟨hfinds, hle, hsf, _⟩
        obtain hno | hno | hno := hno
        · exact hfinds.2.2.2 hno
        · omega
        · simp [hsf] at hno
      · rw [if_neg hno]
        obtain ⟨hnew, hno⟩ := not_or.mp hno
        obtain ⟨hlt, hfails⟩ := not_or.mp hno
        have hle : stopAt k ≤ f.reached := not_lt.mp hlt
        have hsf : f.stopFails = false := Bool.eq_false_of_not_eq_true hfails
        have h := st.protect_outcome (.fill (fillKey st.row k)) (st.pollFill k)
        have hfinds : st.Finds k := ⟨hf.1, hf.2.1, hf.2.2, hnew⟩
        exact ⟨fun hok => h.stopped hok.2.2.2,
          fun hno => h.unstopped fun hfr => hno ⟨hfinds, hle, hsf, hfr⟩, False.elim, fun _ => rfl⟩
    · refine outcome_same _ (fun h => hf ⟨h.1.1, h.1.2.1, h.1.2.2.1⟩) id ?_ rfl
      show (st.poll k f).children = st.children
      unfold poll
      split
      next ht =>
        have hno (q : ℚ) := dispatch_noStop st.row k (fun h => hf ⟨ht, h⟩) q
        exact run_children_quiet f _ st _ (fun q => (hno q).1) (fun q => (hno q).2)
      next => rfl
  have hcr := credits_iff f st k
  exact ⟨hstop.stopped, hstop.unstopped, fun hc => heff.credited (hcr.mpr hc),
    fun hc => heff.uncredited (mt hcr.mp hc)⟩

end Poll

theorem guarded_iff {a stop credit new : Prop} :
    ((a ∧ stop ↔ a ∧ credit) ∧ (a ∧ credit → new)) ↔ (a → (stop ↔ credit) ∧ (credit → new)) := by
  rw [and_congr_right_iff, and_imp, imp_and]

/-- One discovery keeps the cover exactly when it meets the condition. -/
theorem Covered.step_iff (h : st.Covered) (e : Discovery) : (st.step e).Covered ↔ st.Meets e := by
  cases e with
  | respond r f =>
    refine ((st.respond_outcome r f).covered h).trans ?_
    rw [guarded_iff, guarded_iff]
    rfl
  | replay f =>
    refine ((st.replay_outcome f).covered h).trans ?_
    exact ⟨fun hok => hok.1.mpr, fun hno => ⟨iff_of_false id hno, fun hr => absurd hr hno⟩⟩
  | poll k f => exact ((poll_outcome f st k).covered h).trans guarded_iff
  | retryPending r f =>
    refine ((st.retryPending_outcome r f).covered h).trans ?_
    rw [iff_false, and_iff_left False.elim, not_and, not_and]
    rfl
  | recoverAckUnknown r f =>
    exact ((st.recoverAckUnknown_outcome r f).covered h).trans
      (iff_of_true ⟨Iff.rfl, False.elim⟩ trivial)
  | checkPlaced r f =>
    refine ((st.checkPlaced_outcome r f).covered h).trans ?_
    rw [guarded_iff, guarded_iff]
    rfl
  | other w => exact iff_of_true (covered_of_each h.each h.once) trivial

/-- However the fills of an entry are discovered, and whatever is redelivered or cut short
between them, every credited increment has its one stop child exactly as long as every
discovery meets the condition. -/
theorem increments_protected_once (es : List Discovery) :
    AlongRun step Covered start es ↔ StepsMeet step Meets start es :=
  alongRun_iff (I := fun _ => True) (D := fun _ => True) (fun _ _ _ _ => trivial)
    (fun _ e _ _ h => h.step_iff e) es (fun _ _ => trivial) start trivial start_covered

/-- The startup pass over a PENDING entry places it, the broker fills all of it at once, and
the fill has a stop and no position update. -/
theorem startup_fill_protected_uncredited :
    ¬ ∀ es : List Discovery,
      AlongRun step (fun st => st.protectedQuantity = st.credited) start es := by
  intro hall
  have h := (hall [.retryPending ⟨"B1", .filled, 10, 100, ""⟩ ⟨Fault.none, false⟩]).last
  revert h
  decide +kernel

end CoverState
end QuantEmbrace
