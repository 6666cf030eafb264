import QuantEmbrace.BulkPoller

/-! When the poller lets an order go: the status write of a cycle that sees the order's
terminal snapshot, after any history of snapshots, crashes and failed requests. -/
namespace QuantEmbrace
open GuardedRun
open OrderStatus (isValidStatusTransition)
open PythonValue.Json (truncate)

/-- A row the poller follows, or followed until it ended. -/
def OrderRow.Polled (row : OrderRow) : Prop :=
  row.brokerOrderId ≠ none ∧
    (row.status = .placed ∨ row.status = .partiallyFilled ∨ row.status.Terminal)

theorem OrderRow.Tracked.polled {row : OrderRow} (h : row.Tracked) : row.Polled :=
  ⟨h.1, h.2.imp_right Or.inl⟩

theorem OrderRow.Tracked.not_terminal {row : OrderRow} (h : row.Tracked) :
    ¬ row.status.Terminal := by
  obtain h | h := h.2 <;> rw [h] <;> decide

theorem OrderRow.Polled.terminal {row : OrderRow} (h : row.Polled) (ht : ¬ row.Tracked) :
    row.status.Terminal := by
  obtain hs | hs | hs := h.2
  · exact absurd ⟨h.1, Or.inl hs⟩ ht
  · exact absurd ⟨h.1, Or.inr hs⟩ ht
  · exact hs

/-- No write leads a followed row anywhere else. -/
theorem OrderRow.Tracked.undisturbed {row : OrderRow} (h : row.Tracked) (w : StatusWrite) :
    (w.undisturbed row).Polled := by
  by_cases hv : isValidStatusTransition row.status w.newStatus = true
  · rw [StatusWrite.undisturbed_valid hv]
    constructor
    · cases hb : w.brokerOrderId with
      | none =>
        have hid := h.1
        simpa [StatusWrite.set, hb] using hid
      | some b => simp [StatusWrite.set, hb]
    · rw [StatusWrite.set_status]
      obtain hs | hs := h.2 <;> rw [hs] at hv <;> revert hv <;> cases w.newStatus <;> decide
  · rw [StatusWrite.undisturbed, if_neg hv]
    exact h.polled

theorem pollCycle_polled {st : PollState} (h : st.row.Polled) (c : KiteOrder × Fault) :
    (pollCycle st c).row.Polled := by
  by_cases ht : st.row.Tracked
  · by_cases hs : Stores st c
    · obtain ⟨w, hrow, _⟩ := (pollCycle_effect st c).stored hs
      rw [hrow]
      exact ht.undisturbed w
    · rw [(pollCycle_effect st c).kept hs]
      exact h
  · rw [show pollCycle st c = st from pollCycle_untracked ht]
    exact h

theorem foldl_pollCycle_polled {st : PollState} (h : st.row.Polled)
    (cs : List (KiteOrder × Fault)) : (cs.foldl pollCycle st).row.Polled := by
  induction cs generalizing st with
  | nil => exact h
  | cons c cs ih => exact ih (pollCycle_polled h c)

/-- The action leaves the order row alone. -/
def Action.OffRow : Action → Prop
  | .status _ => False
  | _ => True

theorem act_row_of_offRow (f : Fault) (st : PollState) {a : Action} (ha : a.OffRow) :
    (act f st a).row = st.row := by
  cases a with
  | status w => cases ha
  | credit key q p =>
    rw [act]
    split <;> rfl
  | protectiveStop q | publishFill q p | publishRejection r => rfl

theorem foldl_act_row (f : Fault) (st : PollState) {as : List Action}
    (has : ∀ a ∈ as, a.OffRow) : (as.foldl (act f) st).row = st.row := by
  induction as generalizing st with
  | nil => rfl
  | cons a as ih =>
    rw [List.foldl_cons, ih _ fun b hb => has b (List.mem_cons_of_mem a hb)]
    exact act_row_of_offRow f st (has a List.mem_cons_self)

/-- A handler's actions write the row once, wherever the write stands among them. -/
theorem perform_row (f : Fault) (n : ℕ) (st : PollState) (w : StatusWrite)
    {pre post : List Action} (hpre : ∀ a ∈ pre, a.OffRow) (hpost : ∀ a ∈ post, a.OffRow)
    (hn : (pre ++ .status w :: post).length ≤ n) (hf : f.statusFails = false) :
    (perform f n (pre ++ .status w :: post) st).row = w.undisturbed st.row := by
  rw [perform, List.take_of_length_le hn, List.foldl_append, List.foldl_cons,
    foldl_act_row f _ hpost]
  simp [act, hf, foldl_act_row f st hpre]

namespace KiteOrder

def Cancelled (k : KiteOrder) : Prop := k.status.toUpper = "CANCELLED"

def Rejected (k : KiteOrder) : Prop := k.status.toUpper = "REJECTED"

end KiteOrder

section Dispatch
variable {o : OrderRow} {k : KiteOrder}

theorem dispatch_complete (h : k.Complete) : dispatch o k = handleFill o k := if_pos h

theorem dispatch_ended (h : k.Ended) :
    dispatch o k = if k.status.toUpper = "CANCELLED" then handleTerminal o k .cancelled
      else if k.status.toUpper = "REJECTED" then handleTerminal o k .rejected else .idle :=
  (if_neg h.not_complete).trans (if_neg fun hp => h.not_partial hp.1)

theorem dispatch_cancelled (h : k.Cancelled) : dispatch o k = handleTerminal o k .cancelled :=
  (dispatch_ended (Or.inl h)).trans (if_pos h)

theorem dispatch_rejected (h : k.Rejected) : dispatch o k = handleTerminal o k .rejected := by
  have hn : k.status.toUpper ≠ "CANCELLED" := by
    rw [h]
    decide
  rw [dispatch_ended (Or.inr h), if_neg hn]
  exact if_pos h

end Dispatch

/-- The cycle runs to the end of every handler. -/
def Fault.CrashFree (f : Fault) : Prop := Fault.none.reached ≤ f.reached

section Closing
variable {st : PollState} {k : KiteOrder} {f : Fault}

theorem creditIncrement_offRow (o : OrderRow) (k : KiteOrder) :
    ∀ a ∈ creditIncrement o k, a.OffRow := by
  intro a ha
  simp only [creditIncrement, List.mem_cons, List.not_mem_nil, or_false] at ha
  obtain rfl | rfl := ha <;> trivial

theorem publish_offRow (q : ℤ) (p : ℚ) (as : List Action) (has : ∀ a ∈ as, a.OffRow) :
    ∀ a ∈ as ++ [.publishFill q p], a.OffRow := by
  intro a ha
  obtain ha | ha := List.mem_append.mp ha
  · exact has a ha
  · rw [List.mem_singleton.mp ha]
    trivial

theorem handleFill_row (hf : f.CrashFree) (hok : f.statusFails = false)
    (hk : ¬ Recorded st (k, f)) :
    ((handleFill st.row k).run f st).row =
      (pollFillWrite (k.report .filled)).undisturbed st.row := by
  have h10 : 10 ≤ f.reached := hf
  have hnew : fillKey st.row k ∉ st.fills := hk
  rw [Handler.run_gate (fillKey st.row k) rfl, if_neg (by omega), if_neg hnew]
  have hpost : ∀ a ∈ (if max 0 (increment st.row k) > 0 then creditIncrement st.row k else []) ++
      [Action.publishFill (truncate (max 0 (increment st.row k))) (incrementPrice st.row k)],
        a.OffRow := by
    refine publish_offRow _ _ _ ?_
    split
    · exact creditIncrement_offRow st.row k
    · exact List.forall_mem_nil _
  refine perform_row f _ _ (pollFillWrite (k.report .filled)) (List.forall_mem_nil _) hpost ?_ hok
  split <;> simp [creditIncrement] <;> omega

theorem handleTerminal_row (hf : f.CrashFree) (hok : f.statusFails = false) (s : OrderStatus) :
    ((handleTerminal st.row k s).run f st).row =
      (pollTerminalWrite st.row (k.report s)).undisturbed st.row := by
  have h10 : 10 ≤ f.reached := hf
  have hpost : ∀ a ∈ (if s = .rejected then [Action.publishRejection
      (if k.statusMessage = "" then "broker_rejected" else k.statusMessage)] else []),
      a.OffRow := by
    intro a ha
    split at ha
    · rw [List.mem_singleton.mp ha]
      trivial
    · cases ha
  have hclose (n : ℕ) (hn : 9 ≤ n) := perform_row f n st (pollTerminalWrite st.row (k.report s))
    (List.forall_mem_nil _) hpost (by split <;> simp <;> omega) hok
  by_cases hg : k.filledQuantity > st.row.filledQuantity
  · have hh : handleTerminal st.row k s = _ := if_pos hg
    rw [hh, Handler.run_gate (fillKey st.row k) rfl, if_neg (by omega)]
    by_cases hk : fillKey st.row k ∈ st.fills
    · rw [if_pos hk]
      exact hclose _ (by omega)
    · rw [if_neg hk]
      refine perform_row f _ _ _ (creditIncrement_offRow st.row k) hpost ?_ hok
      split <;> simp [creditIncrement] <;> omega
  · have hh : handleTerminal st.row k s = _ := if_neg hg
    rw [hh]
    exact hclose _ (by omega)

/-- A cycle whose status requests fail leaves the row as it is. -/
theorem pollCycle_row_of_fails (hf : f.statusFails = true) :
    (pollCycle st (k, f)).row = st.row := by
  refine (pollCycle_effect st (k, f)).kept fun hs => ?_
  rw [show f.statusFails = false from hs.2.1] at hf
  cases hf

/-- What the cycle needs of the row and the fills table to close the order: a status
request that goes through, for a completed order no fill record of the same quantity and
price, for a rejected one a row that is not partially filled. -/
def Closes (st : PollState) (k : KiteOrder) (f : Fault) : Prop :=
  f.statusFails = false ∧ (k.Complete → ¬ Recorded st (k, f)) ∧
    (k.Rejected → st.row.status ≠ .partiallyFilled)

theorem undisturbed_terminal_iff {row : OrderRow} (h : row.Tracked) {w : StatusWrite}
    (hw : w.newStatus.Terminal) : (w.undisturbed row).status.Terminal ↔
      ¬ (w.newStatus = .rejected ∧ row.status = .partiallyFilled) := by
  obtain hs | hs := h.2 <;> obtain hw | hw | hw := hw <;>
    simp [StatusWrite.undisturbed, StatusWrite.set, hs, hw, isValidStatusTransition,
      OrderStatus.validTransitions, OrderStatus.Terminal]

/-- One cycle over the terminal snapshot of a tracked order. -/
theorem pollCycle_terminal_iff (ht : st.row.Tracked) (hk : k.Terminal) (hf : f.CrashFree) :
    (pollCycle st (k, f)).row.status.Terminal ↔ Closes st k f := by
  have hrun : pollCycle st (k, f) = (dispatch st.row k).run f st := if_pos ht
  have hfilled : OrderStatus.filled.Terminal := Or.inl rfl
  have hcancelled : OrderStatus.cancelled.Terminal := Or.inr (Or.inl rfl)
  have hrejected : OrderStatus.rejected.Terminal := Or.inr (Or.inr rfl)
  by_cases hok : f.statusFails = true
  · rw [pollCycle_row_of_fails hok]
    exact iff_of_false ht.not_terminal fun h => by rw [h.1] at hok; cases hok
  have hok : f.statusFails = false := by simpa using hok
  obtain hc | hx | hr := hk
  · have hnr : ¬ k.Rejected := fun hr => KiteOrder.Ended.not_complete (Or.inr hr) hc
    by_cases hrec : Recorded st (k, f)
    · -- taken for a duplicate
      have hrow : (pollCycle st (k, f)).row = st.row :=
        (pollCycle_effect st (k, f)).kept (by
          rintro ⟨_, _, ⟨_, hn, _⟩ | ⟨hn, _⟩ | ⟨he, _⟩ | ⟨he, _⟩ | ⟨he, _⟩⟩
          · exact hn hrec
          · exact hn hc
          · exact he.not_complete hc
          · exact he.not_complete hc
          · exact he.not_complete hc)
      rw [hrow]
      exact iff_of_false ht.not_terminal fun h => h.2.1 hc hrec
    · rw [hrun, dispatch_complete hc, handleFill_row hf hok hrec,
        undisturbed_terminal_iff ht hfilled]
      exact iff_of_true (by rintro ⟨h, _⟩; cases h) ⟨hok, fun _ => hrec, fun h => absurd h hnr⟩
  · have hnc : ¬ k.Complete := KiteOrder.Ended.not_complete (Or.inl hx)
    have hnr : ¬ k.Rejected := fun hr => absurd (hx.symm.trans hr) (by decide)
    rw [hrun, dispatch_cancelled hx, handleTerminal_row hf hok,
      undisturbed_terminal_iff ht hcancelled]
    exact iff_of_true (by rintro ⟨h, _⟩; cases h)
      ⟨hok, fun h => absurd h hnc, fun h => absurd h hnr⟩
  · have hnc : ¬ k.Complete := KiteOrder.Ended.not_complete (Or.inr hr)
    rw [hrun, dispatch_rejected hr, handleTerminal_row hf hok,
      undisturbed_terminal_iff ht hrejected]
    constructor
    · exact fun h => ⟨hok, fun hc => absurd hc hnc, fun _ hp => h ⟨rfl, hp⟩⟩
    · exact fun h hp => h.2.2 hr hp.2

end Closing

/-- Once a crash-free cycle has gone through a terminal snapshot, the stored status is
terminal and the order is followed no more exactly when the order was closed before, or
the cycle's status request goes through and meets neither its own fill record (COMPLETE)
nor a partially filled row (REJECTED). -/
theorem terminal_snapshot_closes_iff {st : PollState} (hst : st.row.Tracked)
    (cs : List (KiteOrder × Fault)) (k : KiteOrder) (f : Fault) (hk : k.Terminal)
    (hf : f.CrashFree) :
    (((cs ++ [(k, f)]).foldl pollCycle st).row.status.Terminal ∧
        ¬ ((cs ++ [(k, f)]).foldl pollCycle st).row.Tracked) ↔
      ((cs.foldl pollCycle st).row.Tracked → Closes (cs.foldl pollCycle st) k f) := by
  rw [List.foldl_append, List.foldl_cons, List.foldl_nil]
  have hpolled := foldl_pollCycle_polled hst.polled cs
  generalize cs.foldl pollCycle st = s at hpolled ⊢
  have hopen (h : (pollCycle s (k, f)).row.status.Terminal) : ¬ (pollCycle s (k, f)).row.Tracked :=
    fun ht => ht.not_terminal h
  by_cases ht : s.row.Tracked
  · have hiff := pollCycle_terminal_iff ht hk hf
    exact ⟨fun h _ => hiff.mp h.1, fun h => ⟨hiff.mpr (h ht), hopen (hiff.mpr (h ht))⟩⟩
  · have hsame : pollCycle s (k, f) = s := pollCycle_untracked ht
    rw [hsame]
    exact iff_of_true ⟨hpolled.terminal ht, ht⟩ fun h => absurd h ht

/-- All ten shares, the order not yet reported complete. -/
def allFilled : KiteOrder := ⟨"PARTIALLY FILLED", 10, 100, ""⟩

theorem placedState_tracked : placedState.row.Tracked := ⟨nofun, Or.inl rfl⟩

theorem completed_not_rejected : ¬ completed.Rejected := by
  unfold KiteOrder.Rejected
  decide +kernel

theorem terminal_snapshot_closes_iff_completed :
    ([(completed, Fault.none)].foldl pollCycle placedState).row.status.Terminal :=
  ((terminal_snapshot_closes_iff placedState_tracked [] completed Fault.none completed_terminal
    le_rfl).mpr fun _ => ⟨rfl, fun _ h => absurd h List.not_mem_nil,
      fun h => absurd h completed_not_rejected⟩).1

theorem allFilled_not_terminal : ¬ allFilled.Terminal := by
  unfold KiteOrder.Terminal
  decide +kernel

/-- The last partial fill is the whole order: the completed snapshot meets the fill
record of the same quantity and price, and the row stays PARTIALLY_FILLED. -/
theorem completed_after_full_partial_stays_open :
    ¬ ∀ (st : PollState) (cs : List (KiteOrder × Fault)) (k : KiteOrder), Placed st →
      (openOrder :: (cs ++ [(k, Fault.none)]).map Prod.fst).IsChain Follows →
      (∀ c ∈ cs, c.2 = Fault.none) → k.Terminal →
      ((cs ++ [(k, Fault.none)]).foldl pollCycle st).row.status.Terminal := by
  intro hall
  have hopen : Follows openOrder allFilled :=
    ⟨by norm_num [openOrder, allFilled], fun h => absurd h (by
      unfold KiteOrder.Terminal
      decide +kernel)⟩
  have hlast : Follows allFilled completed :=
    ⟨le_rfl, fun h => absurd h allFilled_not_terminal⟩
  have h := hall placedState [(allFilled, Fault.none)] completed placedState_placed
    (List.isChain_cons_cons.mpr ⟨hopen, List.isChain_cons_cons.mpr
      ⟨hlast, List.isChain_singleton _⟩⟩)
    (by simp) completed_terminal
  revert h
  decide +kernel

end QuantEmbrace
