import QuantEmbrace.RateLimiter

/-! The order caps of the limiter: orders a second, a minute and a day, whichever path grants
them. -/
namespace QuantEmbrace
namespace Limiter
open GuardedRun
variable {cfg : LimiterConfig} {clock : ℕ → Reading} {l l' : Limiter}

/-- An order takes one unit. -/
def UnitOrder (r : Request) : Prop := r.endpoint = .orderPlace → r.units = 1

/-- The orders granted. -/
def orders (l : Limiter) : List Grant := l.grants.filter (·.endpoint = .orderPlace)

def orderTimes (l : Limiter) : List ℚ := l.orders.map (·.time)

/-- The orders granted under the cap of one date. -/
def ordersOn (l : Limiter) (day : ℤ) : ℕ := l.orders.countP (·.day = day)

/-- The queues have all that counts, and the caps hold. -/
structure CapsKept (cfg : LimiterConfig) (l : Limiter) : Prop where
  second : SlidingWindow.Retains 1 l.seen.now l.secondWindow l.orderTimes
  minute : SlidingWindow.Retains 60 l.seen.now l.minuteWindow l.orderTimes
  day : l.ordersOn l.dayKey ≤ l.dayWindow.length
  past : ∀ g ∈ l.orders, g.day ≤ l.dayKey
  today : l.dayKey ≤ l.seen.today
  secondCapped : SlidingWindow.Capped 1 cfg.maxOrdersPerSecond l.orderTimes
  minuteCapped : SlidingWindow.Capped 60 cfg.maxOrdersPerMinute l.orderTimes
  dayCapped : ∀ d, l.ordersOn d ≤ cfg.maxOrdersPerDay

theorem start_capsKept (r : Reading) : CapsKept cfg (start cfg r) where
  second := SlidingWindow.retains_nil
  minute := SlidingWindow.retains_nil
  day := le_rfl
  past _ hg := absurd hg List.not_mem_nil
  today := le_rfl
  secondCapped := SlidingWindow.capped_nil
  minuteCapped := SlidingWindow.capped_nil
  dayCapped _ := Nat.zero_le _

/-- A reading of the clocks that touches neither the queues nor the orders. -/
theorem CapsKept.later (h : CapsKept cfg l) (hseen : l.seen ≤ l'.seen)
    (hsame : l'.secondWindow = l.secondWindow ∧ l'.minuteWindow = l.minuteWindow ∧
      l'.dayWindow = l.dayWindow ∧ l'.dayKey = l.dayKey ∧ l'.orders = l.orders) :
    CapsKept cfg l' := by
  obtain ⟨hsecond, hminute, hday, hkey, horders⟩ := hsame
  have htimes : l'.orderTimes = l.orderTimes := by rw [orderTimes, horders, orderTimes]
  have hon (d : ℤ) : l'.ordersOn d = l.ordersOn d := by rw [ordersOn, horders, ordersOn]
  constructor
  · rw [hsecond, htimes]
    exact h.second.mono hseen.1
  · rw [hminute, htimes]
    exact h.minute.mono hseen.1
  · rw [hkey, hday, hon]
    exact h.day
  · rw [horders, hkey]
    exact h.past
  · rw [hkey]
    exact h.today.trans hseen.2
  · rw [htimes]
    exact h.secondCapped
  · rw [htimes]
    exact h.minuteCapped
  · intro d
    rw [hon]
    exact h.dayCapped d

theorem CapsKept.prune (h : CapsKept cfg l) (hclock : Monotone clock)
    (hseen : l.seen ≤ clock l.reads) : CapsKept cfg (l.pruneOrderWindows clock) := by
  have hnext : clock l.reads ≤ clock (l.reads + 1) := hclock (Nat.le_succ _)
  have hkey : l.dayKey ≤ (clock l.reads).today := h.today.trans hseen.2
  have hnow : l.seen.now ≤ (clock (l.reads + 1)).now := hseen.1.trans hnext.1
  have hsame : (if (clock l.reads).today ≠ l.dayKey then (clock l.reads).today else l.dayKey) =
      (clock l.reads).today := by
    split
    · rfl
    · next heq => exact (not_not.mp heq).symm
  refine ⟨h.second.prune hnow, h.minute.prune hnow, ?_, ?_, ?_, h.secondCapped, h.minuteCapped,
    h.dayCapped⟩
  · simp only [pruneOrderWindows, hsame]
    split
    -- no order has been granted on a new date
    · next hne =>
      refine le_of_eq (List.countP_eq_zero.mpr fun g hg => ?_)
      have hlt : l.dayKey < (clock l.reads).today := lt_of_le_of_ne hkey (Ne.symm hne)
      simpa using ((h.past g hg).trans_lt hlt).ne
    · next heq =>
      rw [not_not.mp heq]
      exact h.day
  · simp only [pruneOrderWindows, hsame]
    exact fun g hg => (h.past g hg).trans hkey
  · simp only [pruneOrderWindows, hsame]
    exact hnext.2

/-- An order that finds room under the caps. -/
theorem CapsKept.order (h : CapsKept cfg l) {t : ℚ} (ht : l.seen.now ≤ t) (hfree : l.CapsFree cfg)
    {g : Grant} (hplace : g.endpoint = .orderPlace) (htime : g.time = t) (hday : g.day = l.dayKey)
    (hseen : l.seen ≤ l'.seen) (hl' : l'.secondWindow = l.secondWindow ++ [t] ∧
      l'.minuteWindow = l.minuteWindow ++ [t] ∧ l'.dayWindow = l.dayWindow ++ [t] ∧
      l'.dayKey = l.dayKey ∧ l'.grants = g :: l.grants) : CapsKept cfg l' := by
  obtain ⟨hsecond, hminute, hdays, hkey, hgrants⟩ := hl'
  have horders : l'.orders = g :: l.orders := by
    rw [orders, hgrants, List.filter_cons_of_pos (by simpa using hplace), orders]
  have htimes : l'.orderTimes = t :: l.orderTimes := by
    rw [orderTimes, horders, List.map_cons, htime, orderTimes]
  have hon (d : ℤ) : l'.ordersOn d = l.ordersOn d + if l.dayKey = d then 1 else 0 := by
    rw [ordersOn, horders, List.countP_cons, hday, ordersOn]
    simp only [decide_eq_true_eq]
  constructor
  · rw [hsecond, htimes]
    exact (h.second.push t).mono hseen.1
  · rw [hminute, htimes]
    exact (h.minute.push t).mono hseen.1
  · rw [hkey, hdays, hon, if_pos rfl, List.length_append]
    exact Nat.add_le_add_right h.day 1
  · rw [horders, hkey]
    intro g' hg'
    obtain rfl | hg' := List.mem_cons.mp hg'
    · exact hday.le
    · exact h.past g' hg'
  · rw [hkey]
    exact h.today.trans hseen.2
  · rw [htimes]
    exact h.secondCapped.cons h.second hfree.1 ht
  · rw [htimes]
    exact h.minuteCapped.cons h.minute hfree.2.1 ht
  · intro d
    rw [hon]
    split
    · next heq =>
      subst heq
      exact h.day.trans_lt hfree.2.2
    · exact h.dayCapped d

theorem CapsKept.grant (h : CapsKept cfg l) (hseen : l.seen ≤ clock l.reads) {r : Request}
    (ticket : ℕ) (hr : UnitOrder r) (hfree : r.endpoint = .orderPlace → l.CapsFree cfg) :
    CapsKept cfg (l.consume clock r ticket) := by
  unfold consume
  dsimp only
  split
  · next hplace =>
    have hone : r.units.floor.toNat = 1 := by rw [hr hplace]; rfl
    rw [hone]
    exact h.order hseen.1 (hfree hplace) hplace rfl rfl hseen ⟨rfl, rfl, rfl, rfl, rfl⟩
  · next hplace =>
    refine h.later le_rfl ⟨rfl, rfl, rfl, rfl, ?_⟩
    exact List.filter_cons_of_neg (by simpa using hplace)

theorem CapsKept.move (h : CapsKept cfg l) (hclock : Monotone clock)
    (hseen : l.seen ≤ clock l.reads) (hmove : Move cfg clock UnitOrder l l') :
    CapsKept cfg l' := by
  cases hmove with
  | refill => exact h.later (hseen.trans (hclock (Nat.le_add_right _ _))) ⟨rfl, rfl, rfl, rfl, rfl⟩
  | prune => exact h.prune hclock hseen
  | look => exact h.later hseen ⟨rfl, rfl, rfl, rfl, rfl⟩
  | queue => exact h.later le_rfl ⟨rfl, rfl, rfl, rfl, rfl⟩
  | grant r ticket hr hgrant => exact h.grant hseen ticket hr hgrant.2

/-- Two orders a second: the third waits for the next second. -/
def threeOrders : List (LimiterAction × Reading) :=
  [(.acquire ⟨.high, .orderPlace, 1⟩, ⟨0, 0⟩), (.acquire ⟨.critical, .orderPlace, 1⟩, ⟨0, 0⟩),
    (.acquire ⟨.high, .orderPlace, 1⟩, ⟨1 / 2, 0⟩), (.drain, ⟨3 / 4, 0⟩), (.drain, ⟨1, 0⟩)]

end Limiter
end QuantEmbrace
