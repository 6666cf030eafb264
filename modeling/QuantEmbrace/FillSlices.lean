import QuantEmbrace.StartupCredits
import QuantEmbrace.TerminalSnapshot

/-! The increments that the bulk poller and the startup reconciliation derive from the
broker's cumulative reports on one order, and what they add up to. -/
namespace QuantEmbrace
open OrderStatus (isValidStatusTransition)
open PythonValue.Json (truncate)

/-- A cumulative report of the broker, with the component that handles it. -/
inductive FillReport where
  | polled (k : KiteOrder)
  | reconciled (r : BrokerReport)

namespace FillReport

def quantity : FillReport → ℚ
  | polled k => k.filledQuantity
  | reconciled r => r.filledQuantity

def price : FillReport → ℚ
  | polled k => k.averagePrice
  | reconciled r => r.avgFillPrice

/-- The cumulative cost. -/
def cost (e : FillReport) : ℚ := e.quantity * e.price

/-- The second report has more filled, at no less cost. -/
structure Precedes (a b : FillReport) : Prop where
  quantity : a.quantity < b.quantity
  cost : a.cost ≤ b.cost

/-- The last word of the broker on an order it refuses. -/
def Rejected : FillReport → Prop
  | polled k => k.Rejected
  | reconciled r => r.status = .rejected

end FillReport

/-- An increment as it is applied to the position. -/
structure FillSlice where
  quantity : ℚ
  price : ℚ
  deriving DecidableEq, Repr

def FillSlice.cost (s : FillSlice) : ℚ := s.quantity * s.price

def Action.slice : Action → Option FillSlice
  | .credit _ quantity price => some ⟨quantity, price⟩
  | _ => none

/-- What a handler does when nothing fails. -/
def Handler.actions (h : Handler) (fills : List FillKey) : List Action :=
  match h.gate with
  | none => h.seen
  | some key => if key ∈ fills then h.seen else h.fresh

instance (k : KiteOrder) : Decidable k.Terminal := inferInstanceAs (Decidable (_ ∨ _))

/-- One order, its fill records, and the increments applied so far. -/
structure SliceBook where
  order : StoredOrder
  fills : List FillKey
  slices : List FillSlice

namespace SliceBook

/-- A cycle of the poller, which follows the orders of one market. -/
def poll (b : SliceBook) (k : KiteOrder) : SliceBook :=
  if b.order.market = .nse ∧ b.order.row.Tracked then
    let st := pollCycle ⟨b.order.row, b.fills, []⟩ (k, Fault.none)
    { order := { b.order with row := st.row }
      fills := st.fills
      slices := b.slices ++ ((dispatch b.order.row k).actions b.fills).filterMap Action.slice }
  else b

/-- The startup pass over an order that is on the broker's book. -/
def reconcile (b : SliceBook) (r : BrokerReport) : SliceBook :=
  if b.order.row.Tracked then
    let out := reconcileOrder b.order b.order.row (turnOf r) false
    { b with
      order := { b.order with row := out.row }
      slices := b.slices ++ out.credit.toList.map fun c => ⟨c.1, c.2⟩ }
  else b

def step (b : SliceBook) : FillReport → SliceBook
  | .polled k => b.poll k
  | .reconciled r => b.reconcile r

/-- The component takes the report for a fill of the order. -/
def Derives (b : SliceBook) : FillReport → Prop
  | .polled k => b.order.market = .nse ∧ b.order.row.Tracked ∧ (k.Terminal ∨ k.Partial)
  | .reconciled r => b.order.row.Tracked ∧ b.order.Credited r

instance (b : SliceBook) : (e : FillReport) → Decidable (b.Derives e)
  | .polled _ => inferInstanceAs (Decidable (_ ∧ _ ∧ _))
  | .reconciled _ => inferInstanceAs (Decidable (_ ∧ _))

/-- The increment on top of what the row holds. -/
def slice (b : SliceBook) (e : FillReport) : FillSlice where
  quantity := e.quantity - b.order.row.filledQuantity
  price := deltaFillPrice b.order.row.filledQuantity b.order.row.avgFillPrice e.quantity e.price

def quantity (b : SliceBook) : ℚ := (b.slices.map FillSlice.quantity).sum

def cost (b : SliceBook) : ℚ := (b.slices.map FillSlice.cost).sum

/-- A tracked order that has nothing filled. -/
structure Unfilled (b : SliceBook) : Prop where
  tracked : b.order.row.Tracked
  filled : b.order.row.filledQuantity = 0
  fills : b.fills = []
  slices : b.slices = []

end SliceBook

theorem deltaFillPrice_nonneg {q₀ q : ℚ} (p₀ p : ℚ) (h : q₀ < q) :
    0 ≤ deltaFillPrice q₀ p₀ q p := by
  rw [deltaFillPrice, if_neg (not_le.mpr (sub_pos.mpr h))]
  exact le_max_left 0 _

/-- The price of an increment gives back the cost it was inferred from; the clamp at zero
does nothing. -/
theorem deltaFillPrice_cost {q₀ p₀ q p : ℚ} (h : q₀ < q) (hcost : q₀ * p₀ ≤ q * p) :
    (q - q₀) * deltaFillPrice q₀ p₀ q p = q * p - q₀ * p₀ := by
  have hpos : 0 < q - q₀ := sub_pos.mpr h
  have hprice : 0 ≤ (q * p - q₀ * p₀) / (q - q₀) := div_nonneg (sub_nonneg.mpr hcost) hpos.le
  rw [deltaFillPrice, if_neg (not_le.mpr hpos), max_eq_right hprice]
  exact mul_div_cancel₀ _ hpos.ne'

section Actions
variable {o : OrderRow} {k : KiteOrder} {fills : List FillKey}

theorem handleTerminal_quiet (s : OrderStatus) (w : StatusWrite) (reason : String) :
    ((.status w :: if s = .rejected then [Action.publishRejection reason] else []).filterMap
      Action.slice) = [] := by
  split <;> rfl

/-- With more filled than stored and no record of it, a handler credits the difference when
the broker's status is one that it reads as a fill. -/
theorem dispatch_slices (hg : o.filledQuantity < k.filledQuantity) (hkey : fillKey o k ∉ fills) :
    ((dispatch o k).actions fills).filterMap Action.slice =
      if k.Terminal ∨ k.Partial then [⟨increment o k, incrementPrice o k⟩] else [] := by
  obtain ⟨hc, hd⟩ | ⟨_, hp, _, hd⟩ | ⟨he, s, _, hd⟩ | ⟨hterm, hpart, hd⟩ := dispatch_cases o k
  · have hinc : max 0 (increment o k) > 0 := lt_max_of_lt_right (sub_pos.mpr hg)
    have hterm : k.Terminal := Or.inl hc
    rw [hd, if_pos (Or.inl hterm)]
    simp only [Handler.actions, handleFill, if_neg hkey, if_pos hinc]
    rfl
  · have hh : handlePartial o k = _ := if_neg (not_le.mpr hg)
    rw [hd, if_pos (Or.inr hp), hh]
    simp only [Handler.actions, if_neg hkey]
    rfl
  · have hh : handleTerminal o k s = _ := if_pos hg
    have hterm : k.Terminal := Or.inr he
    rw [hd, if_pos (Or.inl hterm), hh]
    simp only [Handler.actions, if_neg hkey]
    rw [List.filterMap_append, handleTerminal_quiet]
    rfl
  · rw [hd, if_neg]
    · rfl
    · rintro (h | h)
      · exact hterm h
      · exact hpart ⟨h, hg⟩

end Actions

section Row
variable {st : PollState} {k : KiteOrder}

theorem act_fills (f : Fault) (st : PollState) (a : Action) : (act f st a).fills = st.fills := by
  cases a with
  | status w =>
    rw [act]
    split <;> rfl
  | credit key q p =>
    rw [act]
    split <;> rfl
  | protectiveStop q | publishFill q p | publishRejection r => rfl

theorem perform_fills (f : Fault) (n : ℕ) (as : List Action) (st : PollState) :
    (perform f n as st).fills = st.fills := by
  induction as generalizing n st with
  | nil => rw [perform_nil]
  | cons a as ih =>
    cases n with
    | zero => rfl
    | succ n => rw [perform_succ, ih, act_fills]

/-- A handler adds the record of its gate at most. -/
theorem run_fills (h : Handler) (f : Fault) (st : PollState) :
    ∀ g ∈ (h.run f st).fills, h.gate = some g ∨ g ∈ st.fills := by
  intro g hg
  cases hgate : h.gate with
  | none =>
    rw [Handler.run, hgate] at hg
    exact Or.inr (perform_fills f _ _ _ ▸ hg)
  | some key =>
    rw [Handler.run_gate key hgate] at hg
    split at hg
    · exact Or.inr hg
    · split at hg
      · exact Or.inr (perform_fills f _ _ _ ▸ hg)
      · rw [perform_fills] at hg
        exact (List.mem_cons.mp hg).imp_left fun h => congrArg some h.symm

theorem dispatch_gate (o : OrderRow) (k : KiteOrder) (g : FillKey)
    (hg : (dispatch o k).gate = some g) : g = fillKey o k := by
  obtain ⟨_, hd⟩ | ⟨_, _, hgrow, hd⟩ | ⟨_, s, _, hd⟩ | ⟨_, _, hd⟩ := dispatch_cases o k
  · rw [hd] at hg
    exact (Option.some.inj hg).symm
  · rw [hd, handlePartial, if_neg (not_le.mpr hgrow)] at hg
    exact (Option.some.inj hg).symm
  · rw [hd, handleTerminal] at hg
    split at hg
    · exact (Option.some.inj hg).symm
    · cases hg
  · rw [hd] at hg
    cases hg

theorem pollCycle_fills (st : PollState) (c : KiteOrder × Fault) :
    ∀ g ∈ (pollCycle st c).fills, g = fillKey st.row c.1 ∨ g ∈ st.fills := by
  intro g hg
  unfold pollCycle at hg
  split at hg
  · exact (run_fills _ _ _ g hg).imp_left (dispatch_gate _ _ g)
  · exact Or.inr hg

theorem handlePartial_row (hg : st.row.filledQuantity < k.filledQuantity)
    (hkey : fillKey st.row k ∉ st.fills) :
    ((handlePartial st.row k).run Fault.none st).row =
      (pollPartialWrite (k.report .partiallyFilled)).undisturbed st.row := by
  have hh : handlePartial st.row k = _ := if_neg (not_le.mpr hg)
  rw [hh, Handler.run_gate (fillKey st.row k) rfl, if_neg (by decide), if_neg hkey]
  have hpost := publish_offRow (truncate (increment st.row k)) (incrementPrice st.row k) _
    (creditIncrement_offRow st.row k)
  exact perform_row Fault.none 9 _ (pollPartialWrite (k.report .partiallyFilled))
    (List.forall_mem_nil _) hpost (by simp [creditIncrement]) rfl

/-- What a cycle leaves of a tracked row whose order the broker has not rejected: the row
itself, a row that is followed no more, or the figures of a fill. -/
theorem pollCycle_row_cases (ht : st.row.Tracked) (hg : st.row.filledQuantity < k.filledQuantity)
    (hkey : fillKey st.row k ∉ st.fills) (hrej : ¬ k.Rejected) :
    ((pollCycle st (k, Fault.none)).row = st.row ∧ ¬ (k.Terminal ∨ k.Partial)) ∨
      ¬ (pollCycle st (k, Fault.none)).row.Tracked ∨
      ((k.Terminal ∨ k.Partial) ∧
        (pollCycle st (k, Fault.none)).row.filledQuantity = k.filledQuantity ∧
        (pollCycle st (k, Fault.none)).row.avgFillPrice = k.averagePrice) := by
  have hrun : pollCycle st (k, Fault.none) = (dispatch st.row k).run Fault.none st := if_pos ht
  have hclosed (hk : k.Terminal) (hok : Closes st k Fault.none) :
      ¬ (pollCycle st (k, Fault.none)).row.Tracked :=
    fun h => h.not_terminal ((pollCycle_terminal_iff ht hk le_rfl).mpr hok)
  obtain ⟨hc, _⟩ | ⟨_, hp, _, hd⟩ | ⟨he, _⟩ | ⟨hterm, hpart, hd⟩ := dispatch_cases st.row k
  · exact Or.inr (Or.inl (hclosed (Or.inl hc) ⟨rfl, fun _ => hkey, fun h => absurd h hrej⟩))
  · have hvalid : isValidStatusTransition st.row.status .partiallyFilled = true := by
      obtain hs | hs := ht.2 <;> rw [hs] <;> decide
    have hrow : (pollCycle st (k, Fault.none)).row =
        (pollPartialWrite (k.report .partiallyFilled)).set st.row := by
      rw [hrun, hd, handlePartial_row hg hkey]
      exact StatusWrite.undisturbed_valid hvalid
    rw [hrow]
    exact Or.inr (Or.inr ⟨Or.inr hp, rfl, rfl⟩)
  · have hnc : ¬ k.Complete := he.not_complete
    exact Or.inr (Or.inl (hclosed (Or.inr he)
      ⟨rfl, fun h => absurd h hnc, fun h => absurd h hrej⟩))
  · refine Or.inl ⟨?_, ?_⟩
    · rw [hrun, hd]
      simp [Handler.run, Handler.idle]
    · rintro (h | h)
      · exact hterm h
      · exact hpart ⟨h, hg⟩

end Row

section Reconciled
variable {o : StoredOrder} {r : BrokerReport}

/-- A tracked row in the startup pass; a fill in a new status always gets through. -/
theorem reconcile_row_cases (ht : o.row.Tracked) (hg : o.row.filledQuantity < r.filledQuantity) :
    ((reconcileOrder o o.row (turnOf r) false).row = o.row ∧ ¬ o.Credited r) ∨
      ¬ (reconcileOrder o o.row (turnOf r) false).row.Tracked ∨
      (o.Credited r ∧
        (reconcileOrder o o.row (turnOf r) false).row.filledQuantity = r.filledQuantity ∧
        (reconcileOrder o o.row (turnOf r) false).row.avgFillPrice = r.avgFillPrice) := by
  have hp : o.row.status ≠ .pending := by
    obtain hs | hs := ht.2 <;> rw [hs] <;> decide
  have ha : o.row.status ≠ .ackUnknown := by
    obtain hs | hs := ht.2 <;> rw [hs] <;> decide
  rw [reconcile_placed hp ha]
  by_cases hid : o.brokerOrderId = ""
  · rw [if_pos hid]
    exact Or.inl ⟨rfl, fun h => h.2.2.1 hid⟩
  by_cases hpaper : o.IsPaperOrder
  · rw [if_neg hid, if_pos hpaper]
    exact Or.inl ⟨rfl, fun h => h.2.2.2.1 hpaper⟩
  rw [if_neg hid, if_neg hpaper]
  by_cases hst : r.status = o.row.status
  · refine Or.inl ⟨?_, fun h => h.2.2.2.2.1 hst⟩
    simp only [checkPlacedOrder, turnOf, brokerOf, if_pos hst]
  have hrow : (checkPlacedOrder o o.row (turnOf r)).row = (reconcileWrite r).undisturbed o.row := by
    simp only [checkPlacedOrder, turnOf, brokerOf, if_neg hst]
  rw [hrow]
  by_cases hfill : r.status = .filled ∨ r.status = .partiallyFilled
  · have hcred : o.Credited r := ⟨hp, ha, hid, hpaper, hst, hfill, hg⟩
    have hvalid : isValidStatusTransition o.row.status (reconcileWrite r).newStatus = true := by
      change isValidStatusTransition o.row.status r.status = true
      obtain hs | hs := ht.2 <;> obtain hf | hf := hfill <;> rw [hs, hf] <;> decide
    rw [StatusWrite.undisturbed_valid hvalid]
    exact Or.inr (Or.inr ⟨hcred, rfl, rfl⟩)
  · by_cases hvalid : isValidStatusTransition o.row.status r.status = true
    · rw [StatusWrite.undisturbed_valid hvalid]
      refine Or.inr (Or.inl fun h => ?_)
      obtain hs | hs := h.2
      · have hr : r.status = .placed := hs
        obtain hs | hs := ht.2
        · exact hst (hr.trans hs.symm)
        · rw [hr, hs] at hvalid
          revert hvalid
          decide
      · exact hfill (Or.inr hs)
    · have hkeep : (reconcileWrite r).undisturbed o.row = o.row := if_neg hvalid
      rw [hkeep]
      exact Or.inl ⟨rfl, fun h => hfill h.2.2.2.2.2.1⟩

end Reconciled

namespace SliceBook
variable {b : SliceBook} {e : FillReport}

theorem step_slices (hg : b.order.row.filledQuantity < e.quantity)
    (hkeys : ∀ key ∈ b.fills, key.filledQuantity < e.quantity) :
    (b.Derives e → (b.step e).slices = b.slices ++ [b.slice e]) ∧
      (¬ b.Derives e → (b.step e).slices = b.slices) := by
  cases e with
  | polled k =>
    have hkey : fillKey b.order.row k ∉ b.fills := fun h => lt_irrefl _ (hkeys _ h)
    by_cases hm : b.order.market = .nse ∧ b.order.row.Tracked
    · have hslices : (b.step (.polled k)).slices =
          b.slices ++ if k.Terminal ∨ k.Partial then [b.slice (.polled k)] else [] := by
        rw [step, poll, if_pos hm]
        exact congrArg (b.slices ++ ·) (dispatch_slices hg hkey)
      rw [hslices]
      constructor
      · intro h
        rw [if_pos h.2.2]
      · intro h
        rw [if_neg fun hk => h ⟨hm.1, hm.2, hk⟩, List.append_nil]
    · have hstay : b.step (.polled k) = b := if_neg hm
      rw [hstay]
      exact ⟨fun h => absurd ⟨h.1, h.2.1⟩ hm, fun _ => rfl⟩
  | reconciled r =>
    by_cases ht : b.order.row.Tracked
    · have hslices : (b.step (.reconciled r)).slices = b.slices ++
          (reconcileOrder b.order b.order.row (turnOf r) false).credit.toList.map
            fun c => ⟨c.1, c.2⟩ := by
        rw [step, reconcile, if_pos ht]
      rw [hslices, reconcile_credit rfl]
      constructor
      · intro h
        rw [if_pos h.2]
        rfl
      · intro h
        rw [if_neg fun hc => h ⟨ht, hc⟩]
        exact List.append_nil _
    · have hstay : b.step (.reconciled r) = b := if_neg ht
      rw [hstay]
      exact ⟨fun h => absurd h.1 ht, fun _ => rfl⟩

/-- What a report that is not a rejection does to the row. -/
theorem step_row (hg : b.order.row.filledQuantity < e.quantity)
    (hkeys : ∀ key ∈ b.fills, key.filledQuantity < e.quantity) (hrej : ¬ e.Rejected) :
    ((b.step e).order.row = b.order.row ∧ ¬ b.Derives e) ∨ ¬ (b.step e).order.row.Tracked ∨
      (b.Derives e ∧ (b.step e).order.row.filledQuantity = e.quantity ∧
        (b.step e).order.row.avgFillPrice = e.price) := by
  cases e with
  | polled k =>
    have hkey : fillKey b.order.row k ∉ b.fills := fun h => lt_irrefl _ (hkeys _ h)
    by_cases hm : b.order.market = .nse ∧ b.order.row.Tracked
    · have hrow : (b.step (.polled k)).order.row =
          (pollCycle ⟨b.order.row, b.fills, []⟩ (k, Fault.none)).row := by
        rw [step, poll, if_pos hm]
      rw [hrow]
      obtain ⟨h, hk⟩ | h | ⟨hk, h⟩ :=
        @pollCycle_row_cases ⟨b.order.row, b.fills, []⟩ k hm.2 hg hkey hrej
      · exact Or.inl ⟨h, fun hd => hk hd.2.2⟩
      · exact Or.inr (Or.inl h)
      · exact Or.inr (Or.inr ⟨⟨hm.1, hm.2, hk⟩, h⟩)
    · have hstay : b.step (.polled k) = b := if_neg hm
      rw [hstay]
      exact Or.inl ⟨rfl, fun h => hm ⟨h.1, h.2.1⟩⟩
  | reconciled r =>
    by_cases ht : b.order.row.Tracked
    · have hrow : (b.step (.reconciled r)).order.row =
          (reconcileOrder b.order b.order.row (turnOf r) false).row := by
        rw [step, reconcile, if_pos ht]
      rw [hrow]
      obtain ⟨h, hc⟩ | h | ⟨hc, h⟩ := reconcile_row_cases (r := r) ht hg
      · exact Or.inl ⟨h, fun hd => hc hd.2⟩
      · exact Or.inr (Or.inl h)
      · exact Or.inr (Or.inr ⟨⟨ht, hc⟩, h⟩)
    · have hstay : b.step (.reconciled r) = b := if_neg ht
      rw [hstay]
      exact Or.inl ⟨rfl, fun h => ht h.1⟩

theorem step_fills (b : SliceBook) (e : FillReport) :
    ∀ key ∈ (b.step e).fills, key.filledQuantity = e.quantity ∨ key ∈ b.fills := by
  intro key hkey
  cases e with
  | polled k =>
    by_cases hm : b.order.market = .nse ∧ b.order.row.Tracked
    · rw [step, poll, if_pos hm] at hkey
      refine (pollCycle_fills _ _ key hkey).imp_left fun h => ?_
      rw [h]
      rfl
    · have hstay : b.step (.polled k) = b := if_neg hm
      exact Or.inr (hstay ▸ hkey)
  | reconciled r =>
    rw [step, reconcile] at hkey
    split at hkey
    · exact Or.inr hkey
    · exact Or.inr hkey

/-- The increments up to a report of `quantity` and `cost`: no price is negative, and while
the order is followed they add up to what the row holds. -/
structure Level (b : SliceBook) (quantity cost : ℚ) : Prop where
  prices : ∀ s ∈ b.slices, 0 ≤ s.price
  total : b.quantity ≤ quantity
  keys : ∀ key ∈ b.fills, key.filledQuantity ≤ quantity
  level : b.order.row.Tracked → b.quantity = b.order.row.filledQuantity ∧
    b.cost = b.order.row.filledQuantity * b.order.row.avgFillPrice ∧ b.cost ≤ cost

theorem Derives.tracked (h : b.Derives e) : b.order.row.Tracked := by
  cases e with
  | polled k => exact h.2.1
  | reconciled r => exact h.1

theorem step_untracked (h : ¬ b.order.row.Tracked) : b.step e = b := by
  cases e with
  | polled k => exact if_neg fun hm => h hm.2
  | reconciled r => exact if_neg h

section Level
variable {quantity cost : ℚ}

theorem Level.filled_lt (h : b.Level quantity cost) (hq : quantity < e.quantity)
    (ht : b.order.row.Tracked) : b.order.row.filledQuantity < e.quantity := by
  rw [← (h.level ht).1]
  exact h.total.trans_lt hq

theorem Level.keys_lt (h : b.Level quantity cost) (hq : quantity < e.quantity) :
    ∀ key ∈ b.fills, key.filledQuantity < e.quantity :=
  fun key hkey => (h.keys key hkey).trans_lt hq

/-- The increment that is derived brings the sums up to the report. -/
theorem Level.derived (h : b.Level quantity cost) (hq : quantity < e.quantity)
    (hc : cost ≤ e.cost) (hd : b.Derives e) :
    (∀ s ∈ (b.step e).slices, 0 ≤ s.price) ∧ (b.step e).quantity = e.quantity ∧
      (b.step e).cost = e.cost := by
  obtain ⟨htotal, hcost, hle⟩ := h.level hd.tracked
  have hg := h.filled_lt hq hd.tracked
  have hslices := (step_slices hg (h.keys_lt hq)).1 hd
  have hrow : b.order.row.filledQuantity * b.order.row.avgFillPrice ≤ e.cost := by
    rw [← hcost]
    exact hle.trans hc
  refine ⟨?_, ?_, ?_⟩
  · rw [hslices]
    intro s hs
    obtain hs | hs := List.mem_append.mp hs
    · exact h.prices s hs
    · rw [List.mem_singleton.mp hs]
      exact deltaFillPrice_nonneg _ _ hg
  · rw [SliceBook.quantity, hslices, List.map_append, List.sum_append,
      show (b.slices.map FillSlice.quantity).sum = _ from htotal]
    simp [slice]
  · rw [SliceBook.cost, hslices, List.map_append, List.sum_append,
      show (b.slices.map FillSlice.cost).sum = _ from hcost]
    have hslice : (b.slice e).cost =
        e.cost - b.order.row.filledQuantity * b.order.row.avgFillPrice :=
      deltaFillPrice_cost hg hrow
    simp [hslice]

/-- Without an increment the sums stay. -/
theorem Level.not_derived (h : b.Level quantity cost) (hq : quantity < e.quantity)
    (hd : ¬ b.Derives e) : (b.step e).slices = b.slices := by
  by_cases ht : b.order.row.Tracked
  · exact (step_slices (h.filled_lt hq ht) (h.keys_lt hq)).2 hd
  · rw [step_untracked ht]

theorem Level.step (h : b.Level quantity cost) (hq : quantity < e.quantity) (hc : cost ≤ e.cost)
    (hrej : ¬ e.Rejected) : (b.step e).Level e.quantity e.cost := by
  have hkeys : ∀ key ∈ (b.step e).fills, key.filledQuantity ≤ e.quantity := by
    intro key hkey
    obtain hk | hk := step_fills b e key hkey
    · exact hk.le
    · exact (h.keys key hk).trans hq.le
  by_cases ht : b.order.row.Tracked
  · have hrow := step_row (h.filled_lt hq ht) (h.keys_lt hq) hrej
    by_cases hd : b.Derives e
    · obtain ⟨hprices, htotal, hcost⟩ := h.derived hq hc hd
      refine ⟨hprices, htotal.le, hkeys, fun ht' => ?_⟩
      obtain ⟨_, hn⟩ | hn | ⟨_, hfill, havg⟩ := hrow
      · exact absurd hd hn
      · exact absurd ht' hn
      · rw [htotal, hcost, hfill, havg]
        exact ⟨rfl, rfl, le_rfl⟩
    · have hslices := h.not_derived hq hd
      have htotal : (b.step e).quantity = b.quantity := by rw [SliceBook.quantity, hslices]; rfl
      have hcost : (b.step e).cost = b.cost := by rw [SliceBook.cost, hslices]; rfl
      refine ⟨hslices ▸ h.prices, htotal ▸ h.total.trans hq.le, hkeys, fun ht' => ?_⟩
      obtain ⟨hsame, _⟩ | hn | ⟨hd', _⟩ := hrow
      · rw [hsame, htotal, hcost]
        obtain ⟨h₁, h₂, h₃⟩ := h.level ht
        exact ⟨h₁, h₂, h₃.trans hc⟩
      · exact absurd ht' hn
      · exact absurd hd' hd
  · rw [step_untracked ht]
    exact ⟨h.prices, h.total.trans hq.le,
      fun key hkey => (h.keys key hkey).trans hq.le, fun ht' => absurd ht' ht⟩

end Level

theorem Unfilled.level (h : b.Unfilled) : b.Level 0 0 where
  prices := by
    rw [h.slices]
    exact List.forall_mem_nil _
  total := by rw [SliceBook.quantity, h.slices]; rfl
  keys := by
    rw [h.fills]
    exact List.forall_mem_nil _
  level _ := by
    rw [SliceBook.quantity, SliceBook.cost, h.slices, h.filled, zero_mul]
    exact ⟨rfl, rfl, le_rfl⟩

/-- Before the last report, the sums stand at an earlier one. -/
theorem run_level {quantity cost : ℚ} (h : b.Level quantity cost) {es : List FillReport}
    (hfrom : ∀ x ∈ es ++ [e], quantity < x.quantity ∧ cost ≤ x.cost)
    (hp : (es ++ [e]).Pairwise FillReport.Precedes) (hrej : ∀ x ∈ es, ¬ x.Rejected) :
    ∃ quantity' cost', (es.foldl step b).Level quantity' cost' ∧ quantity' < e.quantity ∧
      cost' ≤ e.cost := by
  induction es generalizing b quantity cost with
  | nil => exact ⟨quantity, cost, h, hfrom e List.mem_cons_self⟩
  | cons x es ih =>
    obtain ⟨hx, hp⟩ := List.pairwise_cons.mp hp
    obtain ⟨hq, hc⟩ := hfrom x List.mem_cons_self
    refine ih (h.step hq hc (hrej x List.mem_cons_self)) (fun y hy => ?_) hp
      fun y hy => hrej y (List.mem_cons_of_mem x hy)
    exact ⟨(hx y hy).quantity, (hx y hy).cost⟩

end SliceBook

/-- Over cumulative reports handled by either component in any order, the increments of one
order have no negative price and add up to the quantity and the cost of the last report
exactly when the component that is given the last report derives an increment from it. -/
theorem fill_slices_telescope {b : SliceBook} (hb : b.Unfilled) (es : List FillReport)
    (e : FillReport) (hpos : ∀ x ∈ es ++ [e], 0 < x.quantity ∧ 0 ≤ x.cost)
    (hp : (es ++ [e]).Pairwise FillReport.Precedes) (hrej : ∀ x ∈ es, ¬ x.Rejected) :
    ((∀ s ∈ ((es ++ [e]).foldl SliceBook.step b).slices, 0 ≤ s.price) ∧
        ((es ++ [e]).foldl SliceBook.step b).quantity = e.quantity ∧
        ((es ++ [e]).foldl SliceBook.step b).cost = e.cost) ↔
      (es.foldl SliceBook.step b).Derives e := by
  rw [List.foldl_append, List.foldl_cons, List.foldl_nil]
  obtain ⟨quantity, cost, hlevel, hq, hc⟩ := SliceBook.run_level hb.level hpos hp hrej
  constructor
  · rintro ⟨_, htotal, _⟩
    by_contra hd
    have hslices := hlevel.not_derived hq hd
    rw [SliceBook.quantity, hslices] at htotal
    exact absurd htotal (hlevel.total.trans_lt hq).ne
  · exact hlevel.derived hq hc

def unfilledBook : SliceBook := ⟨placedEntry, [], []⟩

theorem unfilledBook_unfilled : unfilledBook.Unfilled := ⟨⟨nofun, Or.inl rfl⟩, rfl, rfl, rfl⟩

/-- Four shares at 100, seen by the poller. -/
def fourShares : FillReport := .polled ⟨"PARTIALLY FILLED", 4, 100, ""⟩

/-- All ten at 101 on average, seen at startup. -/
def tenShares (status : OrderStatus) : FillReport := .reconciled ⟨status, 10, 101, ""⟩

section Sample
variable {status : OrderStatus}

theorem sample_pos : ∀ x ∈ [fourShares] ++ [tenShares status], 0 < x.quantity ∧ 0 ≤ x.cost := by
  intro x hx
  simp only [List.cons_append, List.nil_append, List.mem_cons, List.not_mem_nil, or_false] at hx
  obtain rfl | rfl := hx <;>
    norm_num [fourShares, tenShares, FillReport.cost, FillReport.quantity, FillReport.price]

theorem sample_pairwise : ([fourShares] ++ [tenShares status]).Pairwise FillReport.Precedes := by
  refine List.pairwise_pair.mpr ⟨?_, ?_⟩ <;>
    norm_num [fourShares, tenShares, FillReport.cost, FillReport.quantity, FillReport.price]

theorem fourShares_not_rejected : ∀ x ∈ [fourShares], ¬ x.Rejected := by
  intro x hx
  rw [List.mem_singleton.mp hx]
  change ¬ KiteOrder.Rejected _
  unfold KiteOrder.Rejected
  decide +kernel

end Sample

theorem fill_slices_telescope_filled :
    ([fourShares, tenShares .filled].foldl SliceBook.step unfilledBook).cost = 10 * 101 :=
  ((fill_slices_telescope unfilledBook_unfilled [fourShares] (tenShares .filled) sample_pos
    sample_pairwise fourShares_not_rejected).mpr (by decide +kernel)).2.2

/-- The same fills with the order still open at startup: the second pass compares statuses,
and the six shares are not derived. -/
theorem partial_growth_not_derived :
    ¬ ∀ (b : SliceBook) (es : List FillReport) (e : FillReport), b.Unfilled →
      (∀ x ∈ es ++ [e], 0 < x.quantity ∧ 0 ≤ x.cost) →
      (es ++ [e]).Pairwise FillReport.Precedes →
      (∀ s ∈ ((es ++ [e]).foldl SliceBook.step b).slices, 0 ≤ s.price) ∧
        ((es ++ [e]).foldl SliceBook.step b).quantity = e.quantity ∧
        ((es ++ [e]).foldl SliceBook.step b).cost = e.cost := by
  intro hall
  have h := (hall unfilledBook [fourShares] (tenShares .partiallyFilled) unfilledBook_unfilled
    sample_pos sample_pairwise).2.1
  revert h
  decide +kernel

end QuantEmbrace
