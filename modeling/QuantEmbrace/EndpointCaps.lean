import QuantEmbrace.RateLimiter

/-! How many requests of one endpoint class the token bucket lets through in a second. -/
namespace QuantEmbrace
namespace Limiter
open GuardedRun
variable {cfg : LimiterConfig} {clock : ℕ → Reading} {l l' : Limiter} {e : EndpointClass}

def UnitRequest (r : Request) : Prop := r.units = 1

/-- The times of the requests granted on an endpoint. -/
def grantTimes (l : Limiter) (e : EndpointClass) : List ℚ :=
  (l.grants.filter (·.endpoint = e)).map (·.time)

theorem grantTimes_consume_of_ne {r : Request} (he : r.endpoint ≠ e) (ticket : ℕ) :
    (l.consume clock r ticket).grantTimes e = l.grantTimes e := by
  unfold consume grantTimes
  dsimp only
  split <;> rw [List.filter_cons_of_neg (by simpa using he)]

theorem grantTimes_consume_self {r : Request} (hplace : r.endpoint ≠ .orderPlace) (ticket : ℕ) :
    (l.consume clock r ticket).grantTimes r.endpoint =
      (l.buckets r.endpoint).lastRefill :: l.grantTimes r.endpoint := by
  unfold consume grantTimes
  dsimp only
  rw [if_neg hplace, List.filter_cons_of_pos (by simp), List.map_cons,
    TokenBucket.consume_lastRefill]

/-- The bucket accounts for every grant on its endpoint. -/
structure Paced (cfg : LimiterConfig) (e : EndpointClass) (l : Limiter) : Prop where
  sound : Sound cfg l
  accounts : TokenBucket.Accounts 1 (l.grantTimes e) (l.buckets e)

theorem start_paced (hc : 1 ≤ cfg.rate e) (r : Reading) : Paced cfg e (start cfg r) where
  sound := start_sound r
  accounts := TokenBucket.accounts_nil ((start_sound r).valid e) one_pos (Nat.cast_pos.mpr hc)

theorem Paced.move (h : Paced cfg e l) (he : e ≠ .orderPlace) (hc : 1 ≤ cfg.rate e)
    (hclock : Monotone clock) (hseen : l.seen ≤ clock l.reads)
    (hmove : Move cfg clock UnitRequest l l') : Paced cfg e l' := by
  have hunit (r : Request) (hr : UnitRequest r) : 0 ≤ r.units := by
    rw [show r.units = 1 from hr]
    exact zero_le_one
  refine ⟨h.sound.move hunit hclock hseen hmove, ?_⟩
  cases hmove with
  | refill => exact h.accounts.refill (h.sound.valid e) (h.sound.le_refill hclock hseen e)
  | prune | look | queue => exact h.accounts
  | grant r ticket hr hgrant =>
    by_cases heq : r.endpoint = e
    · subst heq
      have hr : r.units = 1 := hr
      rw [grantTimes_consume_self he, consume_buckets_self, hr]
      refine h.accounts.consume ?_ (hr ▸ hgrant.units_le)
      rw [h.sound.rate]
      exact Nat.cast_pos.mpr hc
    · rw [grantTimes_consume_of_ne heq, consume_buckets_of_ne (Ne.symm heq)]
      exact h.accounts

/-- In a second, fewer requests than a burst and the rate together. -/
theorem grants_lt_burst_add_rate (he : e ≠ .orderPlace) (hc : 1 ≤ cfg.rate e) (r : Reading)
    {es : List LimiterEvent}
    (h : StepsMeet (next cfg) (Admissible UnitRequest) (start cfg r) es) (s : ℚ) :
    SlidingWindow.within 1 ((es.foldl (next cfg) (start cfg r)).grantTimes e) s <
      cfg.burst e + cfg.rate e := by
  have hpaced : Paced cfg e (es.foldl (next cfg) (start cfg r)) :=
    (run_invariant (fun _ _ _ hclock hseen hl hmove => hl.move he hc hclock hseen hmove)
      (fun _ hl => ⟨hl.sound.reset, hl.accounts⟩) h
      (fun w hw => absurd hw List.not_mem_nil) (start_paced hc r)).last.1
  have hwindow := hpaced.accounts.window s
  rw [hpaced.sound.burst, hpaced.sound.rate, mul_one] at hwindow
  exact_mod_cast hwindow

theorem refill_of_no_waiters (h : l.waiters = []) :
    l.refill cfg clock = (l.refillBuckets clock).pruneOrderWindows clock := by
  have hnone : ((l.refillBuckets clock).pruneOrderWindows clock).waiters = [] := h
  rw [refill, hnone, List.length_nil, rounds, round, hnone]
  simp only [sortWaiters, List.insertionSort_nil, scan]
  rw [← hnone]

/-- A request for the last token the bucket can spare. -/
def critical (e : EndpointClass) : LimiterAction := .acquire ⟨.critical, e, 1⟩

theorem canAcquire_critical (he : e ≠ .orderPlace) (htoken : 1 ≤ (l.buckets e).tokens) :
    l.canAcquire cfg clock ⟨.critical, e, 1⟩ = (true, l) := by
  have hfloor : cfg.reservedFloor ⟨.critical, e, 1⟩ = 0 := if_pos rfl
  rw [canAcquire, if_neg ?_, if_neg he]
  rw [hfloor]
  exact (sub_nonneg.mpr htoken).not_gt

theorem acquire_granted {r : Request} (he : r.endpoint ≠ .orderPlace) (hunits : 0 < r.units)
    (h : canAcquire cfg clock { l.refill cfg clock with nextTicket := l.nextTicket + 1 } r =
      (true, l')) : l.acquire cfg clock r = l'.consume clock r l.nextTicket := by
  simp only [acquire, if_neg hunits.not_ge, he, false_and, if_false, h]

variable (cfg) in
/-- With nobody waiting and a token there, the request is granted on the fast path. -/
theorem next_critical (he : e ≠ .orderPlace) (hwait : l.waiters = []) {t : ℚ}
    (htoken : 1 ≤ ((l.buckets e).refill t).tokens) :
    let l' := l.next cfg (.still (critical e) ⟨t, 0⟩)
    l'.waiters = [] ∧ l'.buckets e = ((l.buckets e).refill t).consume 1 ∧
      l'.grantTimes e = t :: l.grantTimes e := by
  intro l'
  let clock : ℕ → Reading := fun _ => ⟨t, 0⟩
  let l₀ := refill cfg clock { l with reads := 0 }
  have hrefill : l₀ = (({ l with reads := 0 }).refillBuckets clock).pruneOrderWindows clock :=
    refill_of_no_waiters hwait
  have hwaiters : l₀.waiters = [] := by rw [hrefill]; exact hwait
  have hbucket : l₀.buckets e = (l.buckets e).refill t := by rw [hrefill]; rfl
  have htimes : l₀.grantTimes e = l.grantTimes e := by rw [hrefill]; rfl
  have htoken₀ : 1 ≤ (l₀.buckets e).tokens := by rw [hbucket]; exact htoken
  have hl' : l' = consume clock { l₀ with nextTicket := l.nextTicket + 1 } ⟨.critical, e, 1⟩
      l.nextTicket :=
    acquire_granted (r := ⟨.critical, e, 1⟩) he one_pos (canAcquire_critical he htoken₀)
  rw [hl', consume_waiters]
  refine ⟨hwaiters, ?_, ?_⟩
  · exact (consume_buckets_self _ _).trans (congrArg (·.consume 1) hbucket)
  · rw [grantTimes_consume_self (r := ⟨.critical, e, 1⟩) he l.nextTicket]
    change (l₀.buckets e).lastRefill :: l₀.grantTimes e = _
    rw [hbucket, htimes, TokenBucket.refill_lastRefill]

/-- Unit takes at these times, each of which finds a token. -/
def Serves : TokenBucket ℚ → List ℚ → Prop
  | _, [] => True
  | b, t :: ts => 1 ≤ (b.refill t).tokens ∧ Serves ((b.refill t).consume 1) ts

variable (cfg) in
theorem run_critical (he : e ≠ .orderPlace) {ts : List ℚ} (hwait : l.waiters = [])
    (hserves : Serves (l.buckets e) ts) :
    ((ts.map fun t => LimiterEvent.still (critical e) ⟨t, 0⟩).foldl (next cfg) l).grantTimes e =
      ts.reverse ++ l.grantTimes e := by
  induction ts generalizing l with
  | nil => rfl
  | cons t ts ih =>
    obtain ⟨htoken, hrest⟩ := hserves
    obtain ⟨hwait', hbucket, htimes⟩ := next_critical cfg he hwait htoken
    rw [List.map_cons, List.foldl_cons, ih hwait' (hbucket ▸ hrest), htimes]
    simp

/-- At every `1 / rate` a new token is there. -/
theorem serves_steady (burst rate : ℚ) (hburst : 1 ≤ burst) (hrate : 0 < rate) (n k : ℕ) :
    Serves ⟨rate, burst, 0, n / rate⟩
      ((List.range' n k).map fun j : ℕ => ((j : ℚ) + 1) / rate) := by
  induction k generalizing n with
  | zero => trivial
  | succ k ih =>
    have hin : ((n : ℚ) + 1) / rate - n / rate = 1 / rate := by rw [← sub_div, add_sub_cancel_left]
    have hrefill : (TokenBucket.mk rate burst 0 (n / rate)).refill (((n : ℚ) + 1) / rate) =
        ⟨rate, burst, 1, ((n : ℚ) + 1) / rate⟩ := by
      simp only [TokenBucket.refill, hin, zero_add, one_div_mul_cancel hrate.ne',
        min_eq_right hburst]
    rw [List.range'_succ, List.map_cons, Serves, hrefill]
    refine ⟨le_rfl, ?_⟩
    have hnext := ih (n + 1)
    rw [Nat.cast_add, Nat.cast_one] at hnext
    simpa [TokenBucket.consume] using hnext

theorem serves_burst {burst rate : ℚ} {ts : List ℚ} (hts : Serves ⟨rate, burst, 0, 0⟩ ts) (k : ℕ)
    (hk : (k : ℚ) ≤ burst) : Serves ⟨rate, burst, k, 0⟩ (List.replicate k 0 ++ ts) := by
  induction k with
  | zero => simpa using hts
  | succ k ih =>
    have hrefill : (TokenBucket.mk rate burst ((k + 1 : ℕ) : ℚ) 0).refill 0 =
        ⟨rate, burst, ((k + 1 : ℕ) : ℚ), 0⟩ := by
      simp only [TokenBucket.refill, sub_self, zero_mul, add_zero, min_eq_right hk]
    rw [List.replicate_succ, List.cons_append, Serves, hrefill]
    refine ⟨by simp, ?_⟩
    have hle : (k : ℚ) ≤ burst := (Nat.cast_le.mpr (Nat.le_succ k)).trans hk
    simpa [TokenBucket.consume] using ih hle

/-- A full burst at once, and then a token at a time. -/
def burstThenSteady (burst rate : ℕ) : List ℚ :=
  List.replicate burst 0 ++ (List.range' 0 (rate - 1)).map fun j : ℕ => ((j : ℚ) + 1) / rate

theorem mem_burstThenSteady {burst rate : ℕ} {t : ℚ} (ht : t ∈ burstThenSteady burst rate) :
    0 ≤ t ∧ t < 1 := by
  obtain ht | ht := List.mem_append.mp ht
  · rw [List.eq_of_mem_replicate ht]
    exact ⟨le_rfl, zero_lt_one⟩
  · obtain ⟨j, hj, rfl⟩ := List.mem_map.mp ht
    obtain ⟨_, hj⟩ := List.mem_range'_1.mp hj
    have hlt : (j : ℚ) + 1 < rate := by exact_mod_cast (by omega : j + 1 < rate)
    have hpos : (0 : ℚ) < j + 1 := by positivity
    exact ⟨(div_pos hpos (hpos.trans hlt)).le, (div_lt_one (hpos.trans hlt)).mpr hlt⟩

theorem pairwise_burstThenSteady (burst rate : ℕ) :
    (burstThenSteady burst rate).Pairwise (· ≤ ·) := by
  refine List.pairwise_append.mpr ⟨?_, ?_, fun t ht u hu => ?_⟩
  · exact List.pairwise_replicate.mpr (Or.inr le_rfl)
  · refine List.Pairwise.map _ (fun j k hjk => ?_) (List.pairwise_lt_range' 1)
    exact div_le_div_of_nonneg_right (by exact_mod_cast (Nat.add_le_add_right hjk.le 1))
      (Nat.cast_nonneg rate)
  · rw [List.eq_of_mem_replicate ht]
    exact (mem_burstThenSteady (List.mem_append_right (List.replicate burst 0) hu)).1

/-- A run of CRITICAL requests in one second that grants a burst, and a token more with each
that comes in. -/
theorem burst_over_rate (he : e ≠ .orderPlace) (hc : 1 ≤ cfg.rate e) (hburst : 1 ≤ cfg.burst e) :
    ∃ es, StepsMeet (next cfg) (Admissible UnitRequest) (start cfg ⟨0, 0⟩) es ∧
      SlidingWindow.within 1 ((es.foldl (next cfg) (start cfg ⟨0, 0⟩)).grantTimes e) 0 =
        cfg.burst e + (cfg.rate e - 1) := by
  let ts := burstThenSteady (cfg.burst e) (cfg.rate e)
  have hserves : Serves ((start cfg ⟨0, 0⟩).buckets e) ts := by
    refine serves_burst ?_ (cfg.burst e) le_rfl
    simpa using serves_steady (cfg.burst e) (cfg.rate e)
      (by exact_mod_cast hburst) (by exact_mod_cast hc) 0 (cfg.rate e - 1)
  refine ⟨(ts.map fun t => (critical e, (⟨t, 0⟩ : Reading))).map fun ev => .still ev.1 ev.2,
    (stepsMeet_still _ _ ?_ ?_ ?_).imp fun _ _ h => h.1, ?_⟩
  · refine (pairwise_burstThenSteady _ _).map _ fun t u htu => ?_
    exact ⟨htu, le_rfl⟩
  · intro ev hev
    obtain ⟨t, ht, rfl⟩ := List.mem_map.mp hev
    exact ⟨(mem_burstThenSteady ht).1, le_rfl⟩
  · intro ev hev r hr _
    obtain ⟨t, ht, rfl⟩ := List.mem_map.mp hev
    cases hr
    rfl
  · rw [List.map_map]
    have hrun := run_critical cfg (l := start cfg ⟨0, 0⟩) he rfl hserves
    have hall : ∀ t ∈ ts.reverse, decide (0 ≤ t ∧ t < 0 + 1) = true := fun t ht => by
      simpa using mem_burstThenSteady (List.mem_reverse.mp ht)
    have hlength : ts.length = cfg.burst e + (cfg.rate e - 1) := by
      simp [ts, burstThenSteady]
    calc SlidingWindow.within 1 (grantTimes _ e) 0
        = SlidingWindow.within 1 (ts.reverse ++ []) 0 := congrArg (SlidingWindow.within 1 · 0) hrun
      _ = cfg.burst e + (cfg.rate e - 1) := by
        rw [List.append_nil, SlidingWindow.within, List.countP_eq_length.mpr hall,
          List.length_reverse, hlength]

/-- The requests granted in a second stay within the configured rate, whatever the arrivals,
exactly for an endpoint whose burst is at most one. -/
theorem endpoint_cap_holds_iff (cfg : LimiterConfig) (e : EndpointClass) (he : e ≠ .orderPlace)
    (hc : 1 ≤ cfg.rate e) :
    (∀ (r : Reading) (es : List LimiterEvent),
      StepsMeet (next cfg) (Admissible UnitRequest) (start cfg r) es →
        ∀ s, SlidingWindow.within 1 ((es.foldl (next cfg) (start cfg r)).grantTimes e) s ≤
          cfg.rate e) ↔ cfg.burst e ≤ 1 := by
  constructor
  · intro h
    by_contra hburst
    obtain ⟨es, hes, hcount⟩ := burst_over_rate he hc (lt_of_not_ge hburst).le
    have hle := h ⟨0, 0⟩ es hes 0
    omega
  · intro hburst r es hes s
    have hlt := grants_lt_burst_add_rate he hc r hes s
    omega

theorem quote_cap_holds_iff :
    (∀ (r : Reading) (es : List LimiterEvent),
      StepsMeet (next {}) (Admissible UnitRequest) (start {} r) es →
        ∀ s, SlidingWindow.within 1 ((es.foldl (next {}) (start {} r)).grantTimes .quote) s ≤ 1) ↔
      ({} : LimiterConfig).burst .quote ≤ 1 :=
  endpoint_cap_holds_iff {} .quote (by decide) le_rfl

/-- Three requests for historical data at once, and one more a third of a second later. -/
def fourHistorical : List (LimiterAction × Reading) :=
  [(.acquire ⟨.low, .historical, 1⟩, ⟨0, 0⟩), (.acquire ⟨.low, .historical, 1⟩, ⟨0, 0⟩),
    (.acquire ⟨.low, .historical, 1⟩, ⟨0, 0⟩), (.acquire ⟨.low, .historical, 1⟩, ⟨1 / 3, 0⟩)]

theorem historical_cap_exceeded :
    ¬ ∀ (r : Reading) (es : List LimiterEvent),
      StepsMeet (next {}) (Admissible UnitRequest) (start {} r) es →
        ∀ s, SlidingWindow.within 1 ((es.foldl (next {}) (start {} r)).grantTimes .historical) s ≤
          3 := by
  intro h
  refine absurd (h ⟨0, 0⟩ (fourHistorical.map fun e => .still e.1 e.2)
    ((stepsMeet_still _ _ (by decide +kernel) (by decide +kernel) ?_).imp fun _ _ h => h.1) 0)
    (by decide +kernel)
  intro e he q hq _
  simp only [fourHistorical, List.mem_cons, List.not_mem_nil, or_false] at he
  obtain rfl | rfl | rfl | rfl := he <;> cases hq <;> rfl

end Limiter
end QuantEmbrace
