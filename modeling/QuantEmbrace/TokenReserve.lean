import QuantEmbrace.RateLimiter

/-! Token accounting over all buckets, and the tokens that are kept back for CRITICAL
requests. -/
namespace QuantEmbrace
open GuardedRun

/-- The endpoint classes with tokens kept for CRITICAL requests. -/
def EndpointClass.Reserved (e : EndpointClass) : Prop :=
  e = orderPlace ∨ e = orderControl ∨ e = other

def LimiterConfig.reserve (cfg : LimiterConfig) (e : EndpointClass) : ℚ :=
  min (cfg.criticalReservedTokens : ℚ) (cfg.burst e - 1)

/-- A grant to a request that is not CRITICAL leaves the reserve. -/
def Grant.Leaves (cfg : LimiterConfig) (g : Grant) : Prop :=
  g.priority ≠ .critical → g.endpoint.Reserved → cfg.reserve g.endpoint ≤ g.left

namespace Limiter
variable {cfg : LimiterConfig} {clock : ℕ → Reading} {l l' : Limiter} {e : EndpointClass}
  {Q : Request → Prop}

def PositiveUnits (r : Request) : Prop := 0 < r.units

theorem reserve_le_floor {r : Request} (hr : r.priority ≠ .critical) (he : r.endpoint.Reserved) :
    cfg.reserve r.endpoint ≤ cfg.reservedFloor r := by
  rw [LimiterConfig.reservedFloor, if_neg hr, if_pos (show _ ∨ _ ∨ _ from he)]
  refine min_le_min ?_ (le_max_right _ _)
  exact_mod_cast le_max_right _ _

/-- No CRITICAL request has been granted on the endpoint since one that is not. -/
def Spared (l : Limiter) (e : EndpointClass) : Prop :=
  ∀ g, (l.grants.filter (·.endpoint = e)).head? = some g → g.priority ≠ .critical

/-- The tokens are in bounds, the grants have left the reserve, and it is there as long as no
CRITICAL request has used it. -/
structure Reserving (cfg : LimiterConfig) (l : Limiter) : Prop where
  sound : Sound cfg l
  leaves : ∀ g ∈ l.grants, g.Leaves cfg
  spared : ∀ e, e.Reserved → l.Spared e → cfg.reserve e ≤ (l.buckets e).tokens

theorem start_reserving (r : Reading) : Reserving cfg (start cfg r) where
  sound := start_sound r
  leaves _ hg := absurd hg List.not_mem_nil
  spared _ _ _ := (min_le_right _ _).trans (sub_le_self _ zero_le_one)

theorem Sound.tokens_le_refill (h : Sound cfg l) (hclock : Monotone clock)
    (hseen : l.seen ≤ clock l.reads) (e : EndpointClass) :
    (l.buckets e).tokens ≤ ((l.refillBuckets clock).buckets e).tokens :=
  (h.valid e).tokens_le_refill (h.le_refill hclock hseen e)

theorem Reserving.move (h : Reserving cfg l) (hclock : Monotone clock)
    (hseen : l.seen ≤ clock l.reads) (hmove : Move cfg clock PositiveUnits l l') :
    Reserving cfg l' := by
  have hsound := h.sound.move (fun r hr => (show 0 < r.units from hr).le) hclock hseen hmove
  cases hmove with
  | refill =>
    refine ⟨hsound, h.leaves, fun e he hspared => (h.spared e he hspared).trans ?_⟩
    exact h.sound.tokens_le_refill hclock hseen e
  | prune | look | queue => exact ⟨hsound, h.leaves, h.spared⟩
  | grant r ticket hr hgrant =>
    obtain ⟨g, hgrants, rfl, _, hleft, _⟩ := consume_grants clock l r ticket
    have hleaves : g.Leaves cfg := by
      intro hpriority he
      rw [hleft]
      exact (reserve_le_floor hpriority he).trans hgrant.1
    refine ⟨hsound, fun g' hg' => ?_, fun e he hspared => ?_⟩
    · rw [hgrants] at hg'
      obtain rfl | hg' := List.mem_cons.mp hg'
      · exact hleaves
      · exact h.leaves g' hg'
    · rw [Spared, hgrants] at hspared
      by_cases heq : g.endpoint = e
      · subst heq
        rw [consume_buckets_self, TokenBucket.consume_tokens, ← hleft]
        refine hleaves (hspared g ?_) he
        rw [List.filter_cons_of_pos (by simp), List.head?_cons]
      · rw [consume_buckets_of_ne (Ne.symm heq)]
        rw [List.filter_cons_of_neg (by simpa using heq)] at hspared
        exact h.spared e he hspared

/-- The reserve of one endpoint outlasts the grants to other requests. -/
theorem reserve_kept (hclock : Monotone clock) (hseen : l.seen ≤ clock l.reads)
    (hsound : Sound cfg l) (he : e.Reserved) (hreserve : cfg.reserve e ≤ (l.buckets e).tokens)
    (h : Moves cfg clock (fun r => 0 < r.units ∧ (r.endpoint = e → r.priority ≠ .critical)) l l') :
    cfg.reserve e ≤ (l'.buckets e).tokens := by
  refine (Moves.invariant (I := fun l => Sound cfg l ∧ cfg.reserve e ≤ (l.buckets e).tokens)
    (fun l l' hseen hl hmove => ?_) hclock h hseen ⟨hsound, hreserve⟩).1.2
  refine ⟨hl.1.move (fun r hr => hr.1.le) hclock hseen hmove, ?_⟩
  cases hmove with
  | refill => exact hl.2.trans (hl.1.tokens_le_refill hclock hseen e)
  | prune | look | queue => exact hl.2
  | grant r ticket hr hgrant =>
    by_cases heq : r.endpoint = e
    · subst heq
      rw [consume_buckets_self, TokenBucket.consume_tokens]
      exact (reserve_le_floor (hr.2 rfl) he).trans hgrant.1
    · rw [consume_buckets_of_ne (Ne.symm heq)]
      exact hl.2

/-- The ticket is granted by the last step. -/
def GrantedLast (l : Limiter) (r : Request) (ticket : ℕ) : Prop :=
  ∃ g, l.grants.head? = some g ∧ g.toRequest = r ∧ g.ticket = ticket

theorem consume_grantedLast (r : Request) (ticket : ℕ) :
    (l.consume clock r ticket).GrantedLast r ticket := by
  obtain ⟨g, hgrants, hr, hticket, _⟩ := consume_grants clock l r ticket
  exact ⟨g, by rw [hgrants, List.head?_cons], hr, hticket⟩

/-- A CRITICAL request for one unit that finds a token is granted on the fast path, unless an
order cap is exhausted. -/
theorem acquire_critical (htoken : 1 ≤ ((l.refill cfg clock).buckets e).tokens) :
    let l' := l.acquire cfg clock ⟨.critical, e, 1⟩
    l'.GrantedLast ⟨.critical, e, 1⟩ l.nextTicket ∨ (e = .orderPlace ∧ ¬ l'.CapsFree cfg) := by
  have hfloor : cfg.reservedFloor ⟨.critical, e, 1⟩ = 0 := if_pos rfl
  unfold acquire
  rw [if_neg (show ¬ (1 : ℚ) ≤ 0 by norm_num)]
  dsimp only
  have hbuckets : (if e = .orderPlace
      then pruneOrderWindows clock { l.refill cfg clock with nextTicket := l.nextTicket + 1 }
      else { l.refill cfg clock with nextTicket := l.nextTicket + 1 }).buckets =
        (l.refill cfg clock).buckets := by
    split <;> rfl
  generalize (if e = .orderPlace
    then pruneOrderWindows clock { l.refill cfg clock with nextTicket := l.nextTicket + 1 }
    else { l.refill cfg clock with nextTicket := l.nextTicket + 1 }) = l₁ at hbuckets ⊢
  have htokens : ¬ (l₁.buckets e).tokens - 1 < cfg.reservedFloor ⟨.critical, e, 1⟩ := by
    rw [hbuckets, hfloor]
    exact (sub_nonneg.mpr htoken).not_gt
  split
  · next hexhausted => exact Or.inr ⟨hexhausted.1, fun hfree => hfree.2.2.not_ge hexhausted.2⟩
  · unfold canAcquire
    rw [if_neg htokens]
    by_cases hplace : e = .orderPlace
    · rw [if_pos hplace, orderCapsAvailable]
      by_cases hfree : (l₁.pruneOrderWindows clock).CapsFree cfg
      · simp only [hfree, decide_true]
        exact Or.inl (consume_grantedLast _ _)
      · simp only [hfree, decide_false]
        exact Or.inr ⟨hplace, hfree⟩
    · rw [if_neg hplace]
      exact Or.inl (consume_grantedLast _ _)

/-- In every state reached, the tokens of each bucket are between nothing and its burst, what
is granted to other requests leaves the reserve, and a CRITICAL request for one unit that
comes next is granted at once where there is a reserve. -/
theorem emergency_reserve (cfg : LimiterConfig) (r : Reading) (es : List LimiterEvent)
    (h : StepsMeet (next cfg) (Admissible PositiveUnits) (start cfg r) es) :
    let l := es.foldl (next cfg) (start cfg r)
    (∀ e, 0 ≤ (l.buckets e).tokens ∧ (l.buckets e).tokens ≤ cfg.burst e) ∧
      (∀ g ∈ l.grants, g.Leaves cfg) ∧
      ∀ (e : EndpointClass) (clock : ℕ → Reading), e.Reserved → 2 ≤ cfg.burst e →
        1 ≤ cfg.criticalReservedTokens → l.Spared e →
        (∀ w ∈ l.waiters, w.done = false → w.endpoint = e → w.priority ≠ .critical) →
        Monotone clock → l.seen ≤ clock 0 →
        let l' := l.next cfg ⟨.acquire ⟨.critical, e, 1⟩, clock⟩
        l'.GrantedLast ⟨.critical, e, 1⟩ l.nextTicket ∨
          (e = .orderPlace ∧ ¬ l'.CapsFree cfg) := by
  intro l
  obtain ⟨hreserving, hasks⟩ : Reserving cfg l ∧ Asks PositiveUnits l :=
    (run_invariant (fun _ _ _ hclock hseen hl hmove => hl.move hclock hseen hmove)
      (fun _ hl => ⟨hl.sound.reset, hl.leaves, hl.spared⟩) h
      (fun w hw => absurd hw List.not_mem_nil) (start_reserving r)).last
  refine ⟨fun e => ?_, hreserving.leaves, ?_⟩
  · have hvalid := hreserving.sound.valid e
    exact ⟨hvalid.tokens_nonneg, hreserving.sound.burst e ▸ hvalid.tokens_le⟩
  · intro e clock he hburst hcritical hspared hwaiters hclock hseen
    refine acquire_critical ?_
    have hmoves := refill_moves cfg clock (l := { l with reads := 0 })
      (Q := fun r => 0 < r.units ∧ (r.endpoint = e → r.priority ≠ .critical))
      fun w hw hlive => ⟨hasks w hw hlive, hwaiters w hw hlive⟩
    have hkept := reserve_kept (l := { l with reads := 0 }) hclock hseen hreserving.sound.reset he
      (hreserving.spared e he hspared) hmoves
    refine le_trans (le_min ?_ ?_) hkept
    · exact_mod_cast hcritical
    · exact le_sub_iff_add_le.mpr (by exact_mod_cast hburst)

/-- Of three tokens, the reserve of two is kept from a second request. -/
def twoHigh : List (LimiterAction × Reading) :=
  [(.acquire ⟨.high, .other, 1⟩, ⟨0, 0⟩), (.acquire ⟨.high, .other, 1⟩, ⟨0, 0⟩)]

theorem emergency_reserve_two_high :
    let cfg : LimiterConfig := { capacity := 3, otherCapacity := 3 }
    let l := (twoHigh.map fun e => LimiterEvent.still e.1 e.2).foldl (next cfg) (start cfg ⟨0, 0⟩)
    l.waiters.length = 1 ∧
      (l.next cfg ⟨.acquire ⟨.critical, .other, 1⟩, fun _ => ⟨0, 0⟩⟩).GrantedLast
        ⟨.critical, .other, 1⟩ l.nextTicket := by
  intro cfg l
  have h := emergency_reserve cfg ⟨0, 0⟩ (twoHigh.map fun e => .still e.1 e.2)
    ((stepsMeet_still _ _ (by decide +kernel) (by decide +kernel) fun _ _ _ _ hpos => hpos).imp
      fun _ _ h => h.1)
  have hspared : l.Spared .other := by
    intro g hg
    have hhead : ((l.grants.filter (·.endpoint = .other)).head?.map (·.priority)) = some .high := by
      decide +kernel
    rw [hg] at hhead
    rw [show g.priority = .high from Option.some.inj hhead]
    decide
  have hgranted := h.2.2 .other (fun _ => ⟨0, 0⟩) (Or.inr (Or.inr rfl)) (by decide) (by decide)
    hspared (by decide +kernel) monotone_const (by decide +kernel)
  exact ⟨by decide +kernel, hgranted.resolve_right fun hplace => by cases hplace.1⟩

end Limiter
end QuantEmbrace
