import QuantEmbrace.FillSlices

/-! What `orders.events` tells the risk engine of the fills of one order, against what the
positions table is given: the event carries `int(quantity)`. -/
namespace QuantEmbrace
open GuardedRun
open PythonValue.Json (truncate)

/-- A fill as the placement's response brings it, or a cycle of the poller. -/
inductive HandledFill where
  | immediate (r : OrderResponse)
  | polled (k : KiteOrder)

def Action.quantityFilled : Action → Option ℤ
  | .publishFill n _ => some n
  | _ => none

/-- The response of a placement that is taken for a fill. -/
def OrderResponse.IsFill (r : OrderResponse) : Prop :=
  r.status = .filled ∨ r.status = .partiallyFilled

instance (r : OrderResponse) : Decidable r.IsFill := inferInstanceAs (Decidable (_ ∨ _))

/-- The increments applied to the position, and `quantity_filled` of the events published. -/
structure EventBook extends SliceBook where
  published : List ℤ

namespace EventBook

/-- `_handle_approved_signal_event` after the placement was recorded. -/
def placed (w : EventBook) (r : OrderResponse) : EventBook where
  order := { w.order with row := (recordOrder r).undisturbed w.order.row }
  fills := w.fills
  slices := w.slices ++
    if r.IsFill ∧ 0 < r.filledQuantity then [⟨r.filledQuantity, r.avgFillPrice⟩] else []
  published := w.published ++ if r.IsFill then [truncate r.filledQuantity] else []

/-- The actions of a cycle; there are none for an order that is not followed. -/
def actions (w : EventBook) (k : KiteOrder) : List Action :=
  if w.order.market = .nse ∧ w.order.row.Tracked then (dispatch w.order.row k).actions w.fills
  else []

def step (w : EventBook) : HandledFill → EventBook
  | .immediate r => w.placed r
  | .polled k =>
    { toSliceBook := w.poll k
      published := w.published ++ (w.actions k).filterMap Action.quantityFilled }

/-- The quantity that the published events add up to. -/
def told (w : EventBook) : ℚ := (w.published.map fun n : ℤ => (n : ℚ)).sum

/-- The cycle applies an increment. -/
def Applies (w : EventBook) (k : KiteOrder) : Prop :=
  w.order.market = .nse ∧ w.order.row.Tracked ∧ (k.Terminal ∨ k.Partial) ∧
    w.order.row.filledQuantity < k.filledQuantity ∧ fillKey w.order.row k ∉ w.fills

/-- The event tells all of the increment: it is a whole number, and not the last fill of an
order that was cancelled or rejected, for which no fill is published. -/
def Whole (w : EventBook) : HandledFill → Prop
  | .immediate r => r.IsFill → r.filledQuantity.den = 1
  | .polled k => w.Applies k →
    ¬ k.Ended ∧ (k.filledQuantity - w.order.row.filledQuantity).den = 1

instance (w : EventBook) (k : KiteOrder) : Decidable (w.Applies k) :=
  inferInstanceAs (Decidable (_ ∧ _ ∧ _ ∧ _ ∧ _))

instance (w : EventBook) : (e : HandledFill) → Decidable (w.Whole e)
  | .immediate _ => inferInstanceAs (Decidable (_ → _))
  | .polled _ => inferInstanceAs (Decidable (_ → _))

end EventBook

theorem truncate_of_nonneg {q : ℚ} (h : 0 ≤ q) : truncate q = ⌊q⌋ := if_pos h

/-- Dropping the fraction loses nothing of a whole number, and of no other. -/
theorem truncate_eq_iff {q : ℚ} (h : 0 ≤ q) : ((truncate q : ℤ) : ℚ) = q ↔ q.den = 1 := by
  rw [truncate_of_nonneg h]
  constructor
  · intro hq
    rw [← hq]
    exact Rat.den_intCast _
  · intro hq
    rw [← Rat.coe_int_num_of_den_eq_one hq, Int.floor_intCast]

theorem truncate_le {q : ℚ} (h : 0 ≤ q) : ((truncate q : ℤ) : ℚ) ≤ q := by
  rw [truncate_of_nonneg h]
  exact Int.floor_le q

section Dispatch
variable {o : OrderRow} {k : KiteOrder} {fills : List FillKey}

theorem handleTerminal_unpublished (s : OrderStatus) (w : StatusWrite) (reason : String) :
    ((.status w :: if s = .rejected then [Action.publishRejection reason] else []).filterMap
      Action.quantityFilled) = [] := by
  split <;> rfl

/-- The events of a cycle that applies an increment. -/
theorem dispatch_published (hk : k.Terminal ∨ k.Partial) (hg : o.filledQuantity < k.filledQuantity)
    (hkey : fillKey o k ∉ fills) :
    ((dispatch o k).actions fills).filterMap Action.quantityFilled =
      if k.Ended then [] else [truncate (increment o k)] := by
  have hinc : 0 < increment o k := sub_pos.mpr hg
  obtain ⟨hc, hd⟩ | ⟨_, hp, _, hd⟩ | ⟨he, s, _, hd⟩ | ⟨hterm, hpart, _⟩ := dispatch_cases o k
  · rw [hd, if_neg fun he => he.not_complete hc]
    simp only [Handler.actions, handleFill, if_neg hkey, max_eq_right hinc.le, gt_iff_lt, hinc,
      if_true]
    rfl
  · have hh : handlePartial o k = _ := if_neg (not_le.mpr hg)
    rw [hd, if_neg fun he => he.not_partial hp, hh]
    simp only [Handler.actions, if_neg hkey]
    rfl
  · have hh : handleTerminal o k s = _ := if_pos hg
    rw [hd, if_pos he, hh]
    simp only [Handler.actions, if_neg hkey]
    rw [List.filterMap_append, handleTerminal_unpublished]
    rfl
  · exact absurd ⟨hk.resolve_left hterm, hg⟩ hpart

/-- A cycle that applies nothing publishes nothing, or a fill of zero. -/
theorem dispatch_idle (hno : ¬ ((k.Terminal ∨ k.Partial) ∧ o.filledQuantity < k.filledQuantity ∧
      fillKey o k ∉ fills)) :
    ((dispatch o k).actions fills).filterMap Action.slice = [] ∧
      (((dispatch o k).actions fills).filterMap Action.quantityFilled = [] ∨
        ((dispatch o k).actions fills).filterMap Action.quantityFilled = [0]) := by
  obtain ⟨hc, hd⟩ | ⟨_, hp, hg, hd⟩ | ⟨he, s, _, hd⟩ | ⟨_, _, hd⟩ := dispatch_cases o k
  · rw [hd]
    by_cases hkey : fillKey o k ∈ fills
    · simp only [Handler.actions, handleFill, if_pos hkey]
      exact ⟨rfl, Or.inl rfl⟩
    · have hle : increment o k ≤ 0 := by
        refine sub_nonpos.mpr (not_lt.mp fun hg => hno ⟨Or.inl (Or.inl hc), hg, hkey⟩)
      simp only [Handler.actions, handleFill, if_neg hkey, max_eq_left hle, gt_iff_lt, lt_irrefl,
        if_false]
      exact ⟨rfl, Or.inr rfl⟩
  · have hkey : fillKey o k ∈ fills := by
      by_contra hkey
      exact hno ⟨Or.inr hp, hg, hkey⟩
    have hh : handlePartial o k = _ := if_neg (not_le.mpr hg)
    rw [hd, hh]
    simp only [Handler.actions, if_pos hkey]
    exact ⟨rfl, Or.inl rfl⟩
  · rw [hd]
    by_cases hg : o.filledQuantity < k.filledQuantity
    · have hkey : fillKey o k ∈ fills := by
        by_contra hkey
        exact hno ⟨Or.inl (Or.inr he), hg, hkey⟩
      have hh : handleTerminal o k s = _ := if_pos hg
      rw [hh]
      simp only [Handler.actions, if_pos hkey]
      exact ⟨handleTerminal_quiet s _ _, Or.inl (handleTerminal_unpublished s _ _)⟩
    · have hh : handleTerminal o k s = _ := if_neg hg
      rw [hh]
      exact ⟨handleTerminal_quiet s _ _, Or.inl (handleTerminal_unpublished s _ _)⟩
  · rw [hd]
    exact ⟨rfl, Or.inl rfl⟩

end Dispatch

namespace EventBook
variable {w : EventBook}

theorem told_append (w : EventBook) (ns : List ℤ) :
    ((w.published ++ ns).map fun n : ℤ => (n : ℚ)).sum =
      w.told + (ns.map fun n : ℤ => (n : ℚ)).sum := by
  rw [List.map_append, List.sum_append]
  rfl

/-- How far the events lag behind the position. -/
def gap (w : EventBook) : ℚ := w.quantity - w.told

/-- What a step appends to the two books is what the gap grows by. -/
theorem gap_step {w' : EventBook} {ss : List FillSlice} {ns : List ℤ}
    (hs : w'.slices = w.slices ++ ss) (hn : w'.published = w.published ++ ns) :
    w'.gap = w.gap + ((ss.map FillSlice.quantity).sum - (ns.map fun n : ℤ => (n : ℚ)).sum) := by
  rw [gap, gap, SliceBook.quantity, told, hs, hn, told_append, List.map_append, List.sum_append,
    SliceBook.quantity]
  ring

theorem polled_slices (w : EventBook) (k : KiteOrder) :
    (w.step (.polled k)).slices = w.slices ++ (w.actions k).filterMap Action.slice := by
  rw [step, actions]
  simp only [SliceBook.poll]
  split
  · rfl
  · simp

/-- The gap never shrinks, and it grows unless the event tells all of the increment. -/
theorem gap_immediate (w : EventBook) {r : OrderResponse} (hr : 0 < r.filledQuantity) :
    w.gap ≤ (w.step (.immediate r)).gap ∧
      ((w.step (.immediate r)).gap = w.gap ↔ w.Whole (.immediate r)) := by
  have hgap : (w.step (.immediate r)).gap = w.gap + _ := gap_step rfl rfl
  rw [hgap]
  by_cases hf : r.IsFill
  · simp only [hf, hr, and_self, if_true, List.map_cons, List.map_nil, List.sum_singleton]
    refine ⟨le_add_of_nonneg_right (sub_nonneg.mpr (truncate_le hr.le)), ?_⟩
    rw [add_eq_left, sub_eq_zero, eq_comm, truncate_eq_iff hr.le]
    exact ⟨fun h _ => h, fun h => h hf⟩
  · simp [hf, Whole]

theorem gap_polled (w : EventBook) (k : KiteOrder) :
    w.gap ≤ (w.step (.polled k)).gap ∧
      ((w.step (.polled k)).gap = w.gap ↔ w.Whole (.polled k)) := by
  have hgap : (w.step (.polled k)).gap = w.gap + _ := gap_step (polled_slices w k) rfl
  rw [hgap]
  by_cases hm : w.order.market = .nse ∧ w.order.row.Tracked
  · have hactions : w.actions k = (dispatch w.order.row k).actions w.fills := if_pos hm
    rw [hactions]
    by_cases ha : w.Applies k
    · obtain ⟨-, -, hk, hg, hkey⟩ := ha
      have hinc : 0 < increment w.order.row k := sub_pos.mpr hg
      rw [dispatch_slices hg hkey, if_pos hk, dispatch_published hk hg hkey]
      by_cases he : k.Ended
      · simp only [if_pos he, List.map_cons, List.map_nil, List.sum_nil, List.sum_singleton,
          sub_zero]
        refine ⟨le_add_of_nonneg_right hinc.le, iff_of_false ?_ fun h => (h ⟨hm.1, hm.2, hk, hg,
          hkey⟩).1 he⟩
        rw [add_eq_left]
        exact hinc.ne'
      · simp only [if_neg he, List.map_cons, List.map_nil, List.sum_singleton]
        refine ⟨le_add_of_nonneg_right (sub_nonneg.mpr (truncate_le hinc.le)), ?_⟩
        rw [add_eq_left, sub_eq_zero, eq_comm, truncate_eq_iff hinc.le]
        exact ⟨fun h _ => ⟨he, h⟩, fun h => (h ⟨hm.1, hm.2, hk, hg, hkey⟩).2⟩
    · have hno : ¬ ((k.Terminal ∨ k.Partial) ∧ w.order.row.filledQuantity < k.filledQuantity ∧
          fillKey w.order.row k ∉ w.fills) := fun h => ha ⟨hm.1, hm.2, h⟩
      obtain ⟨hs, hn⟩ := dispatch_idle hno
      have hnone : w.Whole (.polled k) := fun h => absurd h ha
      obtain hn | hn := hn <;> rw [hs, hn] <;> simp [hnone]
  · have hactions : w.actions k = [] := if_neg hm
    have hnone : w.Whole (.polled k) := fun h => absurd ⟨h.1, h.2.1⟩ hm
    rw [hactions]
    simp [hnone]

end EventBook

/-- The events published for an order add up to what its position was given exactly when
each event tells all of its increment. -/
theorem events_match_position_iff {w : EventBook} (hslices : w.slices = [])
    (hpublished : w.published = []) (es : List HandledFill)
    (hpos : ∀ r, .immediate r ∈ es → 0 < r.filledQuantity) :
    (es.foldl EventBook.step w).told = (es.foldl EventBook.step w).quantity ↔
      StepsMeet EventBook.step EventBook.Whole w es := by
  have hstart : w.gap = 0 := by
    simp [EventBook.gap, SliceBook.quantity, EventBook.told, hslices, hpublished]
  have hstep : ∀ (w : EventBook) (e : HandledFill), (∀ r, e = .immediate r → 0 < r.filledQuantity) →
      w.gap ≤ (w.step e).gap ∧ ((w.step e).gap = w.gap ↔ w.Whole e) := by
    intro w e he
    cases e with
    | immediate r => exact w.gap_immediate (he r rfl)
    | polled k => exact w.gap_polled k
  have hmain : (es.foldl EventBook.step w).gap = w.gap ↔
      StepsMeet EventBook.step EventBook.Whole w es :=
    foldl_eq_iff (fun w e he => (hstep w e he).1) (fun w e he => (hstep w e he).2) es
      (fun e he r hr => hpos r (hr ▸ he)) w
  rw [← hmain, hstart, EventBook.gap, sub_eq_zero, eq_comm]

/-- An order that is reserved at the moment its placement is answered. -/
def reservedBook : EventBook where
  order := { placedEntry with row := OrderRow.reserved }
  fills := []
  slices := []
  published := []

/-- Four shares at once, the other six in the next cycle. -/
def wholeFills : List HandledFill :=
  [.immediate ⟨"B1", .partiallyFilled, 4, 100, ""⟩, .polled ⟨"COMPLETE", 10, 100, ""⟩]

/-- The same in two halves of a fractional order. -/
def halfFills : List HandledFill :=
  [.immediate ⟨"B1", .partiallyFilled, 5 / 2, 100, ""⟩, .polled ⟨"COMPLETE", 5, 100, ""⟩]

theorem events_match_position_iff_whole :
    (wholeFills.foldl EventBook.step reservedBook).told =
      (wholeFills.foldl EventBook.step reservedBook).quantity :=
  (events_match_position_iff rfl rfl wholeFills (fun r hr => by
    obtain hr | hr := List.mem_cons.mp hr
    · cases hr
      decide
    · cases List.mem_singleton.mp hr)).mpr ⟨by decide +kernel, by decide +kernel, trivial⟩

/-- Two events of two shares each for five. -/
theorem fractional_fills_truncated :
    ¬ ∀ (w : EventBook) (es : List HandledFill), w.slices = [] → w.published = [] →
      (∀ r, .immediate r ∈ es → 0 < r.filledQuantity) →
      (es.foldl EventBook.step w).told = (es.foldl EventBook.step w).quantity := by
  intro hall
  have h := hall reservedBook halfFills rfl rfl fun r hr => by
    obtain hr | hr := List.mem_cons.mp hr
    · cases hr
      norm_num
    · cases List.mem_singleton.mp hr
  revert h
  decide +kernel

end QuantEmbrace
