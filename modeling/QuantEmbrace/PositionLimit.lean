import QuantEmbrace.LiveApproval
import QuantEmbrace.PaperOrder
import Mathlib.Algebra.Order.BigOperators.Group.List

/-! BUY signals of one symbol from the risk engine to the positions table. The position check
counts the positions row and the orders of three statuses. An approval is in neither before
its order is written, while the order is not acknowledged, and from the last status of the
order to the recording of its fill. -/
namespace QuantEmbrace.RiskCheck
open GuardedRun
open OrderStatus (isValidStatusTransition)

/-- What the signals of a run have in common, and the settings of the risk engine. -/
structure Desk where
  cfg : RiskConfig
  symbol : String
  market : String

namespace Desk

/-- A BUY signal of the symbol. -/
structure Buy (b : Desk) where
  signal : Signal
  ofSymbol : signal.symbol = b.symbol
  ofMarket : signal.market = b.market
  buys : signal.direction = .buy
  shares : 0 < signal.quantity

/-- `max_per_symbol` -/
def limit (b : Desk) : ℤ := truncated (b.cfg.limits.getLimit .maxPositionPerSymbol b.market)

end Desk

/-- Where an approval has got: its event waits for the execution engine, its order is in the
orders table, or no order will be written. -/
inductive Stage where
  | queued
  | order (status : OrderStatus)
  | dropped
  deriving DecidableEq, Repr

def Stage.isOpen : Stage → Bool
  | queued => true
  | order status => decide ¬status.Terminal
  | dropped => false

/-- One approval; `filled` is what has been executed, `recorded` what of it the positions row
has. -/
structure Ticket where
  quantity : ℕ
  filled : ℕ
  recorded : ℕ
  stage : Stage
  recorded_le : recorded ≤ filled
  filled_le : filled ≤ quantity

namespace Ticket

/-- An approved quantity that the positions row does not have. -/
def outstanding (t : Ticket) : ℤ := (if t.stage.isOpen then t.quantity else t.filled) - t.recorded

/-- `_IN_FLIGHT_STATUSES` -/
def inFlight (t : Ticket) : Bool :=
  t.stage ∈ [.order .pending, .order .placed, .order .partiallyFilled]

/-- What the position check adds for the order, which is its full quantity. -/
def counted (t : Ticket) : ℤ := if t.inFlight then t.quantity else 0

/-- The tables show the position check all of the approval. -/
def Shown (t : Ticket) : Prop :=
  t.inFlight = true ∨ t.stage.isOpen = false ∧ t.recorded = t.filled

def approved (quantity : ℕ) : Ticket := ⟨quantity, 0, 0, .queued, le_refl 0, quantity.zero_le⟩

/-- `submit_order` -/
def submit (t : Ticket) : Ticket :=
  if t.stage = .queued then { t with stage := .order .pending } else t

/-- Not published, expired, a duplicate, or sent to a dead-letter topic. -/
def drop (t : Ticket) : Ticket := if t.stage = .queued then { t with stage := .dropped } else t

/-- A status write that `_transition_order_status` lets through. -/
def update (t : Ticket) (status : OrderStatus) : Ticket :=
  match t.stage with
  | .order previous =>
    if isValidStatusTransition previous status then { t with stage := .order status } else t
  | _ => t

/-- The broker, or the simulator, executes part of an open order. -/
def execute (t : Ticket) (shares : ℕ) : Ticket :=
  if h : (t.stage.isOpen ∧ t.stage ≠ .queued) ∧ t.filled + shares ≤ t.quantity then
    { t with filled := t.filled + shares, filled_le := h.2
             recorded_le := t.recorded_le.trans (Nat.le_add_right _ _) }
  else t

end Ticket

/-- The positions row of the symbol and the approvals of the run. -/
structure Holdings where
  confirmed : ℤ
  tickets : List Ticket

namespace Holdings
variable (h : Holdings)

/-- The confirmed quantity, the unfilled open orders and what is approved but not recorded. -/
def total : ℤ := h.confirmed + (h.tickets.map Ticket.outstanding).sum

/-- `effective_qty` of the position check. -/
def effective : ℤ := h.confirmed + (h.tickets.map Ticket.counted).sum

/-- What the tables do not show; negative where a filled part is counted twice. -/
def missed : ℤ := (h.tickets.map fun t => t.outstanding - t.counted).sum

/-- The rows of the `symbol-status-index` under a status. -/
def ordersOf (status : String) : List Ticket :=
  h.tickets.filter fun t =>
    match t.stage with
    | .order s => s.value = status
    | _ => false

/-- The reads of a validation whose position check sees the tables as they are. -/
def reads (w : Reads) : Reads :=
  { w with
    validators :=
      { w.validators with
        dynamo := true
        confirmed := .item { quantity := some h.confirmed }
        inFlight := fun status => some ((h.ordersOf status).map fun t => some t.quantity) } }

def advance (n : ℕ) (f : Ticket → Ticket) : Holdings :=
  match h.tickets[n]? with
  | some t => { h with tickets := h.tickets.set n (f t) }
  | none => h

/-- `apply_fill_to_position`, for executed shares that the row does not have. -/
def record (n shares : ℕ) : Holdings :=
  match h.tickets[n]? with
  | some t =>
    if hle : t.recorded + shares ≤ t.filled then
      ⟨h.confirmed + shares,
        h.tickets.set n { t with recorded := t.recorded + shares, recorded_le := hle }⟩
    else h
  | none => h

end Holdings

/-- The steps of both engines; `validate` is a call of `validate_signal`. -/
inductive DeskEvent (b : Desk) where
  | validate (s : b.Buy) (w : Reads) (c : Caches) (riskDecisionId : String)
  | submit (n : ℕ)
  | drop (n : ℕ)
  | update (n : ℕ) (status : OrderStatus)
  | execute (n shares : ℕ)
  | record (n shares : ℕ)

namespace Desk
variable (b : Desk)

def next (h : Holdings) : DeskEvent b → Holdings
  | .validate s w c id =>
    if (validateSignal b.cfg (h.reads w) s.signal id c).1.status = .APPROVED then
      { h with tickets := h.tickets ++ [.approved s.signal.quantity.toNat] }
    else h
  | .submit n => h.advance n Ticket.submit
  | .drop n => h.advance n Ticket.drop
  | .update n status => h.advance n fun t => t.update status
  | .execute n shares => h.advance n fun t => t.execute shares
  | .record n shares => h.record n shares

def WithinLimit (h : Holdings) : Prop := h.total ≤ b.limit

instance (h : Holdings) : Decidable (b.WithinLimit h) := inferInstanceAs (Decidable (_ ≤ _))

/-- A signal that passes the checks leaves room for what the tables do not show. -/
def LeavesRoom (h : Holdings) : DeskEvent b → Prop
  | .validate s w c _ => Cleared s.signal.bid s.signal.ask b.cfg (h.reads w) s.signal c →
      h.missed ≤ b.limit - (h.effective + s.signal.quantity)
  | _ => True

/-- A signal that passes the checks does so when the tables show all earlier approvals. -/
def ShownAll (h : Holdings) : DeskEvent b → Prop
  | .validate s w c _ => Cleared s.signal.bid s.signal.ask b.cfg (h.reads w) s.signal c →
      ∀ t ∈ h.tickets, t.Shown
  | _ => True

end Desk

theorem intOf_intCast (n : ℤ) : intOf (some (n : ℚ)) = some n := by
  have hden : (n : ℚ).den = 1 := Rat.den_intCast n
  rw [intOf, Option.getD_some, if_pos hden, Rat.num_intCast]

section Quantities
variable {α : Type*} (quantity : α → ℕ)

theorem mapM_intOf (orders : List α) :
    (orders.map fun o => some (quantity o : ℚ)).mapM intOf =
      some (orders.map fun o => (quantity o : ℤ)) := by
  induction orders with
  | nil => rfl
  | cons o orders ih =>
    have hquantity := intOf_intCast (quantity o)
    rw [Int.cast_natCast] at hquantity
    rw [List.map_cons, List.mapM_cons, hquantity, ih]
    rfl

/-- Where each of the three queries is answered, their quantities are added. -/
theorem pendingQuantity_eq {v : ValidatorReads} (hdynamo : v.dynamo = true)
    {found : String → List α} (hfound : ∀ status,
      v.inFlight status = some ((found status).map fun o => some (quantity o : ℚ))) :
    PositionCheck.pendingQuantity v =
      some (((found "PENDING").map fun o => (quantity o : ℤ)).sum +
        (((found "PLACED").map fun o => (quantity o : ℤ)).sum +
          ((found "PARTIALLY_FILLED").map fun o => (quantity o : ℤ)).sum)) := by
  have hstatus (status : String) : (v.inFlight status).bind (fun items =>
      (items.mapM intOf).map List.sum) =
        some ((found status).map fun o => (quantity o : ℤ)).sum := by
    rw [hfound, Option.bind_some, mapM_intOf]
    rfl
  rw [PositionCheck.pendingQuantity, if_pos hdynamo]
  simp only [hstatus, List.mapM_cons, List.mapM_nil, Option.pure_def, Option.bind_eq_bind,
    Option.bind_some, Option.map_some, List.sum_cons, List.sum_nil, add_zero]

end Quantities

namespace Holdings
variable (h : Holdings)

def sharesOf (status : String) : ℤ := ((h.ordersOf status).map fun t => (t.quantity : ℤ)).sum

theorem sharesOf_cons (confirmed : ℤ) (t : Ticket) (ts : List Ticket) (status : String) :
    sharesOf ⟨confirmed, t :: ts⟩ status =
      sharesOf ⟨confirmed, [t]⟩ status + sharesOf ⟨confirmed, ts⟩ status := by
  unfold sharesOf ordersOf
  rw [← List.sum_append, ← List.map_append, ← List.filter_append]
  rfl

/-- An order in flight is found under exactly one of the three statuses. -/
theorem sharesOf_single (confirmed : ℤ) (t : Ticket) :
    sharesOf ⟨confirmed, [t]⟩ "PENDING" + sharesOf ⟨confirmed, [t]⟩ "PLACED" +
      sharesOf ⟨confirmed, [t]⟩ "PARTIALLY_FILLED" = t.counted := by
  obtain ⟨quantity, filled, recorded, stage, hr, hf⟩ := t
  cases stage with
  | queued | dropped => simp [sharesOf, ordersOf, Ticket.counted, Ticket.inFlight]
  | order status =>
    cases status <;>
      simp [sharesOf, ordersOf, Ticket.counted, Ticket.inFlight, OrderStatus.value]

theorem sharesOf_sum :
    h.sharesOf "PENDING" + h.sharesOf "PLACED" + h.sharesOf "PARTIALLY_FILLED" =
      (h.tickets.map Ticket.counted).sum := by
  obtain ⟨confirmed, tickets⟩ := h
  induction tickets with
  | nil => rfl
  | cons t ts ih =>
    have ht := sharesOf_single confirmed t
    have hcons := sharesOf_cons confirmed t ts
    rw [hcons, hcons, hcons, List.map_cons, List.sum_cons, ← ht, ← ih]
    ring

theorem pendingQuantity_reads (w : Reads) :
    PositionCheck.pendingQuantity (h.reads w).validators =
      some (h.tickets.map Ticket.counted).sum := by
  have hdynamo : (h.reads w).validators.dynamo = true := rfl
  rw [pendingQuantity_eq Ticket.quantity hdynamo fun _ => rfl, ← sharesOf_sum, add_assoc]
  rfl

theorem confirmedPosition_reads (w : Reads) :
    PositionCheck.confirmedPosition (h.reads w).validators = some h.confirmed :=
  intOf_intCast h.confirmed

theorem total_eq : h.total = h.effective + h.missed := by
  rw [effective, missed, add_assoc, ← List.sum_map_add]
  simp only [add_sub_cancel]
  rfl

end Holdings

theorem PositionCheck.proposed_le_of_approved {cfg : RiskConfig} {v : ValidatorReads} {s : Signal}
    {confirmed pending : ℤ} (hc : confirmedPosition v = some confirmed)
    (hp : pendingQuantity v = some pending) (h : (validate cfg v s).approved = true) :
    confirmed + pending + s.quantity ≤
      truncated (cfg.limits.getLimit .maxPositionPerSymbol s.market) := by
  rw [validate, hc, hp] at h
  unfold withinLimits at h
  dsimp only at h
  split at h
  · cases h
  split at h
  · cases h
  · exact not_lt.mp ‹_›

namespace Desk
variable {b : Desk} {h : Holdings}

/-- A signal that passes the checks fits under the limit with what the tables show. -/
theorem effective_le_of_cleared {s : b.Buy} {w : Reads} {c : Caches}
    (hc : Cleared s.signal.bid s.signal.ask b.cfg (h.reads w) s.signal c) :
    h.effective + s.signal.quantity ≤ b.limit := by
  have hposition := PositionCheck.proposed_le_of_approved (h.confirmedPosition_reads w)
    (h.pendingQuantity_reads w) hc.position
  rwa [s.ofMarket] at hposition

end Desk

namespace Ticket
variable (t : Ticket)

theorem outstanding_le_counted {t : Ticket} (h : t.Shown) : t.outstanding ≤ t.counted := by
  have hrecorded := t.recorded_le
  have hfilled := t.filled_le
  unfold outstanding counted
  obtain hflight | ⟨hclosed, heq⟩ := h
  · rw [if_pos hflight]
    split <;> omega
  · have hnot : ¬t.stage.isOpen = true := by rw [hclosed]; exact Bool.false_ne_true
    rw [if_neg hnot, heq]
    split <;> omega

theorem outstanding_submit : t.submit.outstanding = t.outstanding := by
  unfold submit
  split
  · next hq => simp [outstanding, hq, Stage.isOpen, OrderStatus.Terminal]
  · rfl

theorem outstanding_drop_le : t.drop.outstanding ≤ t.outstanding := by
  have hfilled := t.filled_le
  unfold drop
  split
  · next hq => simpa [outstanding, hq, Stage.isOpen] using hfilled
  · exact le_refl _

/-- A closed order stays closed. -/
theorem outstanding_update_le (status : OrderStatus) :
    (t.update status).outstanding ≤ t.outstanding := by
  have hfilled := t.filled_le
  unfold update
  split
  · next previous hstage =>
    split
    · next hvalid =>
      by_cases hterminal : previous.Terminal
      · rw [hterminal.stays hvalid, ← hstage]
      · have hopen : t.stage.isOpen = true := by simp [hstage, Stage.isOpen, hterminal]
        unfold outstanding
        rw [if_pos hopen]
        dsimp only
        split <;> omega
    · exact le_refl _
  · exact le_refl _

theorem outstanding_execute (shares : ℕ) : (t.execute shares).outstanding = t.outstanding := by
  unfold execute
  split
  · next h => simp [outstanding, h.1.1]
  · rfl

end Ticket

namespace Holdings
variable {h : Holdings} {n : ℕ} {t : Ticket}

theorem sum_set_outstanding (hn : h.tickets[n]? = some t) (t' : Ticket) :
    ((h.tickets.set n t').map Ticket.outstanding).sum =
      (h.tickets.map Ticket.outstanding).sum + (t'.outstanding - t.outstanding) := by
  obtain ⟨hlt, rfl⟩ := List.getElem?_eq_some_iff.mp hn
  have hlt' : n < (h.tickets.map Ticket.outstanding).length := by rwa [List.length_map]
  rw [List.map_set, List.sum_set', dif_pos hlt', List.getElem_map]
  ring

theorem total_advance_le (f : Ticket → Ticket) (hf : ∀ t, (f t).outstanding ≤ t.outstanding) :
    (h.advance n f).total ≤ h.total := by
  unfold advance
  split
  · next t hn =>
    have ht := hf t
    rw [total, total, sum_set_outstanding hn]
    dsimp only
    omega
  · exact le_refl _

/-- A fill moves from the approval to the positions row. -/
theorem total_record (shares : ℕ) : (h.record n shares).total = h.total := by
  unfold record
  split
  · next t hn =>
    split
    · rw [total, total, sum_set_outstanding hn]
      simp only [Ticket.outstanding]
      push_cast
      ring
    · rfl
  · rfl

theorem missed_nonpos (hs : ∀ t ∈ h.tickets, t.Shown) : h.missed ≤ 0 := by
  have hsum : (h.tickets.map Ticket.outstanding).sum ≤ (h.tickets.map Ticket.counted).sum :=
    List.sum_le_sum fun t ht => Ticket.outstanding_le_counted (hs t ht)
  have htotal := h.total_eq
  rw [total, effective] at htotal
  omega

theorem total_append (t : Ticket) :
    total { h with tickets := h.tickets ++ [t] } = h.total + t.outstanding := by
  rw [total, total, List.map_append, List.sum_append, List.map_singleton, List.sum_singleton]
  ring

end Holdings

namespace Desk
variable {b : Desk} {h : Holdings}

theorem outstanding_approved (s : b.Buy) :
    (Ticket.approved s.signal.quantity.toNat).outstanding = s.signal.quantity := by
  have hpos := s.shares
  change ((s.signal.quantity.toNat : ℤ) - (0 : ℕ)) = _
  omega

/-- Only an approval adds to the total. -/
theorem withinLimit_next_iff (e : DeskEvent b) (hw : b.WithinLimit h) :
    b.WithinLimit (b.next h e) ↔ b.LeavesRoom h e := by
  have hle {h' : Holdings} (ht : h'.total ≤ h.total) : b.WithinLimit h' ↔ True :=
    iff_true_intro (ht.trans hw)
  cases e with
  | validate s w c id =>
    have happroved := validateQuoted_approved_iff s.signal.bid s.signal.ask b.cfg (h.reads w)
      s.signal id c
    unfold next LeavesRoom
    dsimp only
    split
    · next hstatus =>
      have hcleared := happroved.mp hstatus
      have htotal := h.total_append (Ticket.approved s.signal.quantity.toNat)
      rw [outstanding_approved, h.total_eq] at htotal
      rw [WithinLimit, htotal]
      constructor
      · intro hlimit _
        omega
      · intro hroom
        have hmissed := hroom hcleared
        omega
    · next hstatus =>
      exact iff_of_true hw fun hcleared => absurd (happroved.mpr hcleared) hstatus
  | submit n => exact hle (Holdings.total_advance_le _ fun t => t.outstanding_submit.le)
  | drop n => exact hle (Holdings.total_advance_le _ Ticket.outstanding_drop_le)
  | update n status =>
    exact hle (Holdings.total_advance_le _ fun t => t.outstanding_update_le status)
  | execute n shares =>
    exact hle (Holdings.total_advance_le _ fun t => (t.outstanding_execute shares).le)
  | record n shares => exact hle (Holdings.total_record shares).le

theorem leavesRoom_of_shownAll (e : DeskEvent b) (hs : b.ShownAll h e) : b.LeavesRoom h e := by
  cases e with
  | validate s w c id =>
    intro hcleared
    have hmissed := Holdings.missed_nonpos (hs hcleared)
    have hroom := effective_le_of_cleared hcleared
    omega
  | submit _ | drop _ | update _ _ | execute _ _ | record _ _ => trivial

/-- The limit holds in a run exactly if it holds at its start and every approval leaves room
for what the tables do not show; as it does if they show all earlier approvals. -/
theorem position_limit_holds (b : Desk) (h : Holdings) (es : List (DeskEvent b)) :
    (AlongRun b.next b.WithinLimit h es ↔
      b.WithinLimit h ∧ StepsMeet b.next b.LeavesRoom h es) ∧
    (StepsMeet b.next b.ShownAll h es → StepsMeet b.next b.LeavesRoom h es) := by
  have hiff (hw : b.WithinLimit h) :=
    alongRun_iff (D := fun _ => True) (I := fun _ => True) (fun _ _ _ _ => trivial)
      (fun (h : Holdings) (e : DeskEvent b) _ _ hw => withinLimit_next_iff e hw) es
      (fun _ _ => trivial) h trivial hw
  constructor
  · constructor
    · intro hrun
      exact ⟨hrun.head, (hiff hrun.head).mp hrun⟩
    · intro ⟨hw, hmeet⟩
      exact (hiff hw).mpr hmeet
  · exact StepsMeet.imp fun _ e => leavesRoom_of_shownAll e

section TwoBuys

private def paperBuy (id : String) : Signal where
  signalId := id
  symbol := "INFY"
  market := "NSE"
  direction := .buy
  quantity := 60
  confidence := 1
  strategyName := "momentum"
  generatedAt := 100
  priceAtSignal := 50
  paperTrade := true

/-- Two signals of 60 shares under a limit of 100; the second is validated before the execution
engine has taken up the first. -/
theorem two_queued_buys_exceed_limit :
    ¬∀ (b : Desk) (es : List (DeskEvent b)),
      b.WithinLimit ⟨0, []⟩ → AlongRun b.next b.WithinLimit ⟨0, []⟩ es := by
  intro h
  have hrun := h ⟨tinyLive, "INFY", "NSE"⟩
    [.validate ⟨paperBuy "S1", rfl, rfl, rfl, by decide⟩ quietReads {} "R1",
      .validate ⟨paperBuy "S2", rfl, rfl, rfl, by decide⟩ quietReads {} "R2"]
    (by decide +kernel)
  have hlast := hrun.last
  revert hlast
  decide +kernel

end TwoBuys

end Desk

end QuantEmbrace.RiskCheck
