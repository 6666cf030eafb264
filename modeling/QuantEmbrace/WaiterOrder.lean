import QuantEmbrace.RateLimiter
import QuantEmbrace.Lib.StableSort
import Mathlib.Data.Prod.Lex

/-! The order in which requests are granted, on the fast path and from the queue, when the
clocks stand still within a step, and what becomes of the waiters. -/
namespace QuantEmbrace
open GuardedRun

theorem Priority.value_inj {p q : Priority} : p.value = q.value ↔ p = q := by
  cases p <;> cases q <;> simp [Priority.value]

/-- The order of service: priority first, then arrival. -/
def serviceRank (p : Priority) (ticket : ℕ) : ℕ ×ₗ ℕ := toLex (p.value, ticket)

def Waiter.rank (w : Waiter) : ℕ ×ₗ ℕ := serviceRank w.priority w.ticket

instance : Std.Total fun a b : Waiter => a.rank ≤ b.rank := ⟨fun _ _ => le_total _ _⟩

instance : IsTrans Waiter fun a b => a.rank ≤ b.rank := ⟨fun _ _ _ => le_trans⟩

/-- No live waiter of the endpoint was before the request when it was granted. -/
def Grant.InTurn (g : Grant) : Prop :=
  ∀ w ∈ g.waiting, w.done = false → w.endpoint = g.endpoint →
    serviceRank g.priority g.ticket < w.rank

namespace Limiter
variable {cfg : LimiterConfig} {r : Reading} {l l' : Limiter}

theorem serviceRank_lt {p q : Priority} {m n : ℕ} :
    serviceRank p m < serviceRank q n ↔ p.value < q.value ∨ (p.value = q.value ∧ m < n) :=
  Prod.Lex.toLex_lt_toLex

section Servable

/-- `_can_acquire`, with the clocks standing still. -/
def Servable (cfg : LimiterConfig) (r : Reading) (l : Limiter) (q : Request) : Prop :=
  (l.canAcquire cfg (fun _ => r) q).1 = true

theorem servable_iff {q : Request} : Servable cfg r l q ↔
    cfg.reservedFloor q ≤ (l.buckets q.endpoint).tokens - q.units ∧
      (q.endpoint = .orderPlace → (l.pruneOrderWindows fun _ => r).CapsFree cfg) := by
  unfold Servable canAcquire
  split
  · next hlow => exact iff_of_false nofun fun h => h.1.not_gt hlow
  · next hlow =>
    rw [and_iff_right (le_of_not_gt hlow)]
    split
    · next hplace => simp [orderCapsAvailable, hplace]
    · next hplace => simp [hplace]

theorem reservedFloor_mono {p q : Request} (he : p.endpoint = q.endpoint)
    (hle : p.priority.value ≤ q.priority.value) : cfg.reservedFloor p ≤ cfg.reservedFloor q := by
  by_cases hp : p.priority = .critical
  · rw [LimiterConfig.reservedFloor, if_pos hp]
    exact reservedFloor_nonneg cfg q
  · have hq : q.priority ≠ .critical := by
      intro hq
      rw [hq] at hle
      exact hp (by cases h : p.priority <;> simp [h, Priority.value] at hle ⊢)
    simp only [LimiterConfig.reservedFloor, if_neg hp, if_neg hq, he, le_refl]

/-- A request that is as urgent can be served where the other can. -/
theorem Servable.mono {p q : Request} (h : Servable cfg r l q) (he : p.endpoint = q.endpoint)
    (hunits : p.units = q.units) (hle : p.priority.value ≤ q.priority.value) :
    Servable cfg r l p := by
  obtain ⟨htokens, hcaps⟩ := servable_iff.mp h
  refine servable_iff.mpr ⟨?_, fun hplace => hcaps (he ▸ hplace)⟩
  rw [he, hunits]
  exact (reservedFloor_mono he hle).trans htokens

end Servable

/-- The other limiter differs by readings at `r` and what they prune. -/
structure Alike (cfg : LimiterConfig) (r : Reading) (l l' : Limiter) : Prop where
  buckets : l'.buckets = l.buckets
  waiters : l'.waiters = l.waiters
  nextTicket : l'.nextTicket = l.nextTicket
  enqueued : l'.enqueued = l.enqueued
  grants : l'.grants = l.grants
  cancelled : l'.cancelled = l.cancelled
  seen : l'.seen = l.seen ∨ l'.seen = r
  caps : (l'.pruneOrderWindows fun _ => r).CapsFree cfg ↔
    (l.pruneOrderWindows fun _ => r).CapsFree cfg

theorem Alike.refl (l : Limiter) : Alike cfg r l l :=
  ⟨rfl, rfl, rfl, rfl, rfl, rfl, .inl rfl, .rfl⟩

theorem Alike.trans {l₁ l₂ l₃ : Limiter} (h : Alike cfg r l₁ l₂) (h' : Alike cfg r l₂ l₃) :
    Alike cfg r l₁ l₃ where
  buckets := h'.buckets.trans h.buckets
  waiters := h'.waiters.trans h.waiters
  nextTicket := h'.nextTicket.trans h.nextTicket
  enqueued := h'.enqueued.trans h.enqueued
  grants := h'.grants.trans h.grants
  cancelled := h'.cancelled.trans h.cancelled
  seen := by
    obtain hs | hs := h'.seen
    · rw [hs]
      exact h.seen
    · exact Or.inr hs
  caps := h'.caps.trans h.caps

theorem Alike.servable (h : Alike cfg r l l') {q : Request} :
    Servable cfg r l' q ↔ Servable cfg r l q := by
  rw [servable_iff, servable_iff, h.buckets, h.caps]

theorem pruneOrderWindows_alike : Alike cfg r l (l.pruneOrderWindows fun _ => r) := by
  refine ⟨rfl, rfl, rfl, rfl, rfl, rfl, .inr rfl, ?_⟩
  -- a second prune at the same reading drops nothing
  simp only [CapsFree, pruneOrderWindows, SlidingWindow.prune_prune]
  split
  · simp
  · simp

variable (cfg r l) in
theorem canAcquire_alike (q : Request) : Alike cfg r l (l.canAcquire cfg (fun _ => r) q).2 := by
  unfold canAcquire
  split
  · exact .refl l
  · split
    · exact pruneOrderWindows_alike
    · exact .refl l

variable (cfg r) in
/-- What a scan finds is behind live waiters that cannot be served; and if it finds nothing,
all are. -/
theorem scan_still (ws : List Waiter) (l : Limiter) :
    Alike cfg r l (l.scan cfg (fun _ => r) ws).2 ∧
      match (l.scan cfg (fun _ => r) ws).1 with
      | none => ∀ v ∈ ws, v.done = false ∧ ¬ Servable cfg r l v.toRequest
      | some w => ∃ front back, ws = front ++ w :: back ∧
          (∀ v ∈ front, v.done = false ∧ ¬ Servable cfg r l v.toRequest) ∧
          (w.done = false → Servable cfg r l w.toRequest) := by
  induction ws generalizing l with
  | nil => exact ⟨.refl l, fun _ hv => absurd hv List.not_mem_nil⟩
  | cons w ws ih =>
    rw [scan]
    split
    · next hdone =>
      exact ⟨.refl l, [], ws, rfl, fun _ hv => absurd hv List.not_mem_nil,
        fun hlive => by cases hdone.symm.trans hlive⟩
    · next hdone =>
      have halike := canAcquire_alike cfg r l w.toRequest
      split
      · next l' hcan =>
        rw [hcan] at halike
        refine ⟨halike, [], ws, rfl, fun _ hv => absurd hv List.not_mem_nil, fun _ => ?_⟩
        exact congrArg Prod.fst hcan
      · next l' hcan =>
        rw [hcan] at halike
        have hw : w.done = false ∧ ¬ Servable cfg r l w.toRequest := by
          refine ⟨eq_false_of_ne_true hdone, fun h => ?_⟩
          cases (congrArg Prod.fst hcan).symm.trans h
        obtain ⟨halike', hfound⟩ := ih l'
        refine ⟨halike.trans halike', ?_⟩
        split at hfound
        · refine List.forall_mem_cons.mpr ⟨hw, fun v hv => ?_⟩
          rw [← halike.servable]
          exact hfound v hv
        · obtain ⟨front, back, rfl, hfront, hv⟩ := hfound
          refine ⟨w :: front, back, rfl, List.forall_mem_cons.mpr ⟨hw, fun u hu => ?_⟩, ?_⟩
          · rw [← halike.servable]
            exact hfront u hu
          · rwa [← halike.servable]

/-- The tickets granted. -/
def granted (l : Limiter) : List ℕ := l.grants.map (·.ticket)

/-- The queue is in the order of service, every grant was, and each ticket that was enqueued
waits, is granted or is cancelled. -/
structure InOrder (l : Limiter) : Prop where
  sorted : l.waiters.Pairwise fun a b => a.rank < b.rank
  nodup : (l.waiters.map (·.ticket)).Nodup
  unit : ∀ w ∈ l.waiters, w.units = 1
  arrival : ∀ a ∈ l.waiters, ∀ b ∈ l.waiters, a.ticket < b.ticket → a.enqueuedAt ≤ b.enqueuedAt
  past : ∀ w ∈ l.waiters, w.enqueuedAt ≤ l.seen.now
  inTurn : ∀ g ∈ l.grants, g.InTurn
  once : l.granted.Nodup
  issued : ∀ t, t ∈ l.enqueued ∨ t ∈ l.granted ∨ t ∈ l.cancelled → t < l.nextTicket
  waiting : ∀ w ∈ l.waiters, w.ticket ∈ l.enqueued ∧ w.ticket ∉ l.granted ∧
    (w.done = true ↔ w.ticket ∈ l.cancelled)
  kept : ∀ t ∈ l.enqueued,
    (∃ w ∈ l.waiters, w.ticket = t) ∨ t ∈ l.granted ∨ t ∈ l.cancelled
  apart : ∀ t ∈ l.cancelled, t ∉ l.granted

theorem start_inOrder : InOrder (start cfg r) where
  sorted := .nil
  nodup := .nil
  unit _ hw := absurd hw List.not_mem_nil
  arrival _ ha := absurd ha List.not_mem_nil
  past _ hw := absurd hw List.not_mem_nil
  inTurn _ hg := absurd hg List.not_mem_nil
  once := .nil
  issued _ ht := by simp [start, granted] at ht
  waiting _ hw := absurd hw List.not_mem_nil
  kept _ ht := absurd ht List.not_mem_nil
  apart _ ht := absurd ht List.not_mem_nil

theorem InOrder.later (h : InOrder l) (hwaiters : l'.waiters = l.waiters)
    (hnext : l.nextTicket ≤ l'.nextTicket) (henqueued : l'.enqueued = l.enqueued)
    (hgrants : l'.grants = l.grants) (hcancelled : l'.cancelled = l.cancelled)
    (hseen : l.seen.now ≤ l'.seen.now) : InOrder l' := by
  have hgranted : l'.granted = l.granted := by rw [granted, hgrants, granted]
  refine ⟨?_, ?_, ?_, ?_, ?_, ?_, ?_, ?_, ?_, ?_, ?_⟩
  · exact hwaiters ▸ h.sorted
  · exact hwaiters ▸ h.nodup
  · exact hwaiters ▸ h.unit
  · exact hwaiters ▸ h.arrival
  · rw [hwaiters]
    exact fun w hw => (h.past w hw).trans hseen
  · exact hgrants ▸ h.inTurn
  · exact hgranted ▸ h.once
  · rw [henqueued, hgranted, hcancelled]
    exact fun t ht => (h.issued t ht).trans_le hnext
  · rw [hwaiters, henqueued, hgranted, hcancelled]
    exact h.waiting
  · rw [hwaiters, henqueued, hgranted, hcancelled]
    exact h.kept
  · rw [hgranted, hcancelled]
    exact h.apart

theorem Alike.seen_le (h : Alike cfg r l l') (hseen : l.seen ≤ r) :
    l.seen ≤ l'.seen ∧ l'.seen ≤ r := by
  obtain hs | hs := h.seen
  · rw [hs]
    exact ⟨le_rfl, hseen⟩
  · rw [hs]
    exact ⟨hseen, le_rfl⟩

theorem InOrder.alike (h : InOrder l) (halike : Alike cfg r l l') (hseen : l.seen ≤ r) :
    InOrder l' :=
  h.later halike.waiters halike.nextTicket.ge halike.enqueued halike.grants halike.cancelled
    (halike.seen_le hseen).1.1

section Sorting

/-- Of two waiters of which the first came first if their priorities are equal. -/
theorem not_before_iff {a b : Waiter}
    (h : a.priority = b.priority → a.ticket < b.ticket ∧ a.enqueuedAt ≤ b.enqueuedAt) :
    ¬ b.Before a ↔ a.rank ≤ b.rank := by
  unfold Waiter.Before Waiter.rank serviceRank
  rw [Prod.Lex.toLex_le_toLex]
  by_cases heq : a.priority = b.priority
  · obtain ⟨hticket, henqueued⟩ := h heq
    simp [heq, hticket.le, henqueued]
  · have hvalue : a.priority.value ≠ b.priority.value := mt Priority.value_inj.mp heq
    simp only [ne_eq, Ne.symm heq, not_false_eq_true, if_true, not_lt, hvalue, false_and, or_false]
    exact ⟨fun hle => lt_of_le_of_ne hle hvalue, le_of_lt⟩

theorem InOrder.agree (h : InOrder l) :
    l.waiters.Pairwise fun a b => ¬ b.Before a ↔ a.rank ≤ b.rank := by
  refine h.sorted.imp_of_mem fun {a b} ha hb hab => not_before_iff fun heq => ?_
  have hticket : a.ticket < b.ticket := by
    obtain hlt | ⟨_, hlt⟩ := serviceRank_lt.mp hab
    · exact absurd (Priority.value_inj.mpr heq) hlt.ne
    · exact hlt
  exact ⟨hticket, h.arrival a ha b hb hticket⟩

/-- The list is kept sorted. -/
theorem InOrder.sortWaiters_eq (h : InOrder l) : sortWaiters l.waiters = l.waiters := by
  rw [sortWaiters, StableSort.insertionSort_congr h.agree]
  exact List.Pairwise.insertionSort_eq (h.sorted.imp le_of_lt)

end Sorting

theorem InOrder.ticket_ne (h : InOrder l) {front back : List Waiter} {w : Waiter}
    (hw : l.waiters = front ++ w :: back) : ∀ v ∈ front ++ back, v.ticket ≠ w.ticket := by
  have hnodup := h.nodup
  rw [hw, List.map_append, List.map_cons, List.nodup_middle, ← List.map_append] at hnodup
  intro v hv heq
  exact (List.nodup_cons.mp hnodup).1 (heq ▸ List.mem_map_of_mem hv)

/-- A waiter that is done leaves the queue. -/
theorem InOrder.purge (h : InOrder l) {front back : List Waiter} {w : Waiter}
    (hw : l.waiters = front ++ w :: back) (hdone : w.done = true) :
    InOrder { l with waiters := front ++ back } := by
  have hsub : (front ++ back).Sublist l.waiters := by
    rw [hw]
    exact (List.sublist_cons_self w back).append_left front
  have hmem : w ∈ l.waiters := by simp [hw]
  refine ⟨h.sorted.sublist hsub, h.nodup.sublist (hsub.map _),
    fun v hv => h.unit v (hsub.subset hv),
    fun a ha b hb => h.arrival a (hsub.subset ha) b (hsub.subset hb),
    fun v hv => h.past v (hsub.subset hv), h.inTurn, h.once, h.issued,
    fun v hv => h.waiting v (hsub.subset hv), fun t ht => ?_, h.apart⟩
  obtain ⟨v, hv, rfl⟩ | hgone := h.kept t ht
  · rw [hw] at hv
    obtain hv | hv := List.mem_append.mp hv
    · exact Or.inl ⟨v, List.mem_append_left _ hv, rfl⟩
    · obtain rfl | hv := List.mem_cons.mp hv
      · exact Or.inr (Or.inr ((h.waiting v hmem).2.2.mp hdone))
      · exact Or.inl ⟨v, List.mem_append_right _ hv, rfl⟩
  · exact Or.inr hgone

/-- A grant, with those who go on waiting. -/
theorem InOrder.grant (h : InOrder l) {g : Grant} (hsub : l'.waiters.Sublist l.waiters)
    (hleft : ∀ w ∈ l.waiters, w ∈ l'.waiters ∨ w.ticket = g.ticket)
    (hothers : ∀ w ∈ l'.waiters, w.ticket ≠ g.ticket) (hnew : g.ticket ∉ l.granted)
    (hlive : g.ticket ∉ l.cancelled) (hturn : g.InTurn) (hissued : g.ticket < l'.nextTicket)
    (hnext : l.nextTicket ≤ l'.nextTicket) (henqueued : l'.enqueued = l.enqueued)
    (hgrants : l'.grants = g :: l.grants) (hcancelled : l'.cancelled = l.cancelled)
    (hseen : l.seen.now ≤ l'.seen.now) : InOrder l' := by
  have hgranted : l'.granted = g.ticket :: l.granted := by
    rw [granted, hgrants, List.map_cons, granted]
  refine ⟨h.sorted.sublist hsub, h.nodup.sublist (hsub.map _),
    fun w hw => h.unit w (hsub.subset hw),
    fun a ha b hb => h.arrival a (hsub.subset ha) b (hsub.subset hb),
    fun w hw => (h.past w (hsub.subset hw)).trans hseen, ?_, ?_, ?_, ?_, ?_, ?_⟩
  · rw [hgrants]
    exact List.forall_mem_cons.mpr ⟨hturn, h.inTurn⟩
  · rw [hgranted]
    exact List.nodup_cons.mpr ⟨hnew, h.once⟩
  · rw [henqueued, hgranted, hcancelled]
    rintro t (ht | ht | ht)
    · exact (h.issued t (Or.inl ht)).trans_le hnext
    · obtain rfl | ht := List.mem_cons.mp ht
      · exact hissued
      · exact (h.issued t (Or.inr (Or.inl ht))).trans_le hnext
    · exact (h.issued t (Or.inr (Or.inr ht))).trans_le hnext
  · rw [henqueued, hgranted, hcancelled]
    intro w hw
    obtain ⟨hin, hnot, hdone⟩ := h.waiting w (hsub.subset hw)
    exact ⟨hin, mt List.mem_cons.mp (not_or.mpr ⟨hothers w hw, hnot⟩), hdone⟩
  · rw [henqueued, hgranted, hcancelled]
    intro t ht
    obtain ⟨w, hw, rfl⟩ | hin | hin := h.kept t ht
    · obtain hw | heq := hleft w hw
      · exact Or.inl ⟨w, hw, rfl⟩
      · exact Or.inr (Or.inl (heq ▸ List.mem_cons_self))
    · exact Or.inr (Or.inl (List.mem_cons_of_mem _ hin))
    · exact Or.inr (Or.inr hin)
  · rw [hgranted, hcancelled]
    intro t ht
    refine mt List.mem_cons.mp (not_or.mpr ⟨?_, h.apart t ht⟩)
    rintro rfl
    exact hlive ht

/-- The first waiter that can be served is served in its turn. -/
theorem InOrder.serve (h : InOrder l) (hseen : l.seen ≤ r) {front back : List Waiter} {w : Waiter}
    (hw : l.waiters = front ++ w :: back) (hdone : w.done = false)
    (hfront : ∀ v ∈ front, ¬ Servable cfg r l v.toRequest) (hserve : Servable cfg r l w.toRequest) :
    InOrder (consume (fun _ => r) { l with waiters := front ++ back } w.toRequest w.ticket) := by
  have hmem : w ∈ l.waiters := by simp [hw]
  obtain ⟨hin, hnot, hcancelled⟩ := h.waiting w hmem
  have hsorted := h.sorted
  rw [hw] at hsorted
  obtain ⟨_, hback, hacross⟩ := List.pairwise_append.mp hsorted
  obtain ⟨g, hgrants, hrequest, hticket, _, hwaiting⟩ :=
    consume_grants (fun _ => r) { l with waiters := front ++ back } w.toRequest w.ticket
  have hturn : g.InTurn := by
    intro v hv hlive he
    rw [hwaiting] at hv
    have hrank : serviceRank g.priority g.ticket = w.rank := by rw [hrequest, hticket]; rfl
    rw [hrank]
    obtain hv | hv := List.mem_append.mp hv
    -- a live one in front would have been served first
    · refine absurd (hserve.mono ?_ ?_ ?_) (hfront v hv)
      · rw [he, hrequest]
      · rw [h.unit v (by simp [hw, hv]), h.unit w hmem]
      · obtain hlt | ⟨heq, _⟩ := serviceRank_lt.mp (hacross v hv w List.mem_cons_self)
        · exact hlt.le
        · exact heq.le
    · exact (List.pairwise_cons.mp hback).1 v hv
  refine h.grant (g := g) ?_ ?_ ?_ ?_ ?_ hturn ?_ ?_ ?_ hgrants ?_ ?_
  · rw [consume_waiters, hw]
    exact (List.sublist_cons_self w back).append_left front
  · rw [consume_waiters, hw, hticket]
    intro v hv
    obtain hv | hv := List.mem_append.mp hv
    · exact Or.inl (List.mem_append_left _ hv)
    · obtain rfl | hv := List.mem_cons.mp hv
      · exact Or.inr rfl
      · exact Or.inl (List.mem_append_right _ hv)
  · rw [consume_waiters, hticket]
    exact h.ticket_ne hw
  · rwa [hticket]
  · rw [hticket]
    exact fun hc => by cases hdone.symm.trans (hcancelled.mpr hc)
  · rw [hticket, consume_nextTicket]
    exact h.issued _ (Or.inl hin)
  · rw [consume_nextTicket]
  · rw [consume_enqueued]
  · rw [consume_cancelled]
  · exact (seen_le_consume (fun _ => r) (l := { l with waiters := front ++ back }) hseen
      w.toRequest w.ticket).1

theorem consume_seen_le (hseen : l.seen ≤ r) (q : Request) (ticket : ℕ) :
    (l.consume (fun _ => r) q ticket).seen ≤ r := by
  unfold consume
  dsimp only
  split
  · exact le_rfl
  · exact hseen

theorem InOrder.round_eq (h : InOrder l) (clock : ℕ → Reading) : l.round cfg clock =
    match l.scan cfg clock l.waiters with
    | (none, l') => (false, l')
    | (some w, l') =>
      (true, if w.done then { l' with waiters := l'.waiters.erase w }
        else consume clock { l' with waiters := l'.waiters.erase w } w.toRequest w.ticket) := by
  have hsorted := h.sortWaiters_eq
  unfold Limiter.round
  generalize sortWaiters l.waiters = ws at hsorted ⊢
  subst hsorted
  rfl

variable (cfg) in
/-- A round ends the loop with nobody left to serve, or takes one waiter off the list. -/
theorem InOrder.round (h : InOrder l) (hseen : l.seen ≤ r) :
    let result := l.round cfg fun _ => r
    (result.1 = false ∧ Alike cfg r l result.2 ∧
      ∀ v ∈ l.waiters, v.done = false ∧ ¬ Servable cfg r l v.toRequest) ∨
    (result.1 = true ∧ InOrder result.2 ∧ result.2.seen ≤ r ∧
      result.2.waiters.length + 1 = l.waiters.length) := by
  dsimp only
  rw [h.round_eq]
  obtain ⟨halike, hfound⟩ := scan_still cfg r l.waiters l
  obtain ⟨found, l', hscan⟩ : ∃ found l', l.scan cfg (fun _ => r) l.waiters = (found, l') :=
    ⟨_, _, rfl⟩
  rw [hscan] at halike hfound ⊢
  cases found with
  | none => exact Or.inl ⟨rfl, halike, hfound⟩
  | some w =>
    obtain ⟨front, back, hw, hfront, hserve⟩ := hfound
    have hl' : InOrder l' := h.alike halike hseen
    have hseen' : l'.seen ≤ r := (halike.seen_le hseen).2
    have hw' : l'.waiters = front ++ w :: back := halike.waiters.trans hw
    have hnot : w ∉ front := fun hmem => hl'.ticket_ne hw' w (List.mem_append_left _ hmem) rfl
    have herase : l'.waiters.erase w = front ++ back := by
      rw [hw', List.erase_append_right _ hnot, List.erase_cons_head]
    have hlength : (front ++ back).length + 1 = l.waiters.length := by
      rw [hw]
      simp only [List.length_append, List.length_cons]
      omega
    refine Or.inr ⟨rfl, ?_⟩
    dsimp only
    rw [herase]
    split
    · next hdone => exact ⟨hl'.purge hw' hdone, hseen', hlength⟩
    · next hdone =>
      have hlive := eq_false_of_ne_true hdone
      have hfront' : ∀ v ∈ front, ¬ Servable cfg r l' v.toRequest := by
        intro v hv
        rw [halike.servable]
        exact (hfront v hv).2
      refine ⟨hl'.serve hseen' hw' hlive hfront' ?_, ?_, ?_⟩
      · rw [halike.servable]
        exact hserve hlive
      · exact consume_seen_le (l := { l' with waiters := front ++ back }) hseen' _ _
      · rwa [consume_waiters]

/-- Nobody in the queue is done or can be served. -/
def Settled (cfg : LimiterConfig) (r : Reading) (l : Limiter) : Prop :=
  ∀ v ∈ l.waiters, v.done = false ∧ ¬ Servable cfg r l v.toRequest

theorem Settled.alike (h : Settled cfg r l) (halike : Alike cfg r l l') : Settled cfg r l' := by
  intro v hv
  rw [halike.servable]
  exact h v (halike.waiters ▸ hv)

/-- Once the queue is settled, a round makes no progress. -/
theorem Settled.round (h : Settled cfg r l) (hl : InOrder l) :
    (l.round cfg fun _ => r).1 = false := by
  rw [hl.round_eq]
  obtain ⟨_, hfound⟩ := scan_still cfg r l.waiters l
  split
  · rfl
  · next w l' hscan =>
    rw [hscan] at hfound
    obtain ⟨front, back, hw, _, hserve⟩ := hfound
    obtain ⟨hlive, hnot⟩ := h w (by simp [hw])
    exact absurd (hserve hlive) hnot

theorem InOrder.rounds (h : InOrder l) (hseen : l.seen ≤ r) {n : ℕ} (hn : l.waiters.length < n) :
    let l' := l.rounds cfg (fun _ => r) n
    InOrder l' ∧ l'.seen ≤ r ∧ Settled cfg r l' := by
  induction n generalizing l with
  | zero => exact absurd hn (Nat.not_lt_zero _)
  | succ n ih =>
    have hround := h.round cfg hseen
    rw [Limiter.rounds]
    split
    · next l' hl' =>
      rw [hl'] at hround
      obtain ⟨hfalse, _⟩ | ⟨_, hin, hseen', hlength⟩ := hround
      · cases hfalse
      · exact ih hin hseen' (by dsimp only at hlength; omega)
    · next l' hl' =>
      rw [hl'] at hround
      obtain ⟨_, halike, hsettled⟩ | ⟨htrue, _⟩ := hround
      · exact ⟨h.alike halike hseen, (halike.seen_le hseen).2, Settled.alike hsettled halike⟩
      · cases htrue

variable (cfg) in
theorem InOrder.refill (h : InOrder l) (hseen : l.seen ≤ r) :
    let l' := l.refill cfg fun _ => r
    InOrder l' ∧ l'.seen ≤ r ∧ Settled cfg r l' := by
  have hbegin : InOrder ((l.refillBuckets fun _ => r).pruneOrderWindows fun _ => r) :=
    h.later rfl le_rfl rfl rfl rfl hseen.1
  exact hbegin.rounds le_rfl (Nat.lt_succ_self _)

section Tickets
variable (cfg) (clock : ℕ → Reading)

theorem scan_nextTicket (ws : List Waiter) (l : Limiter) :
    (l.scan cfg clock ws).2.nextTicket = l.nextTicket := by
  induction ws generalizing l with
  | nil => rfl
  | cons w ws ih =>
    have hcan : (l.canAcquire cfg clock w.toRequest).2.nextTicket = l.nextTicket := by
      unfold canAcquire
      split
      · rfl
      · split <;> rfl
    rw [scan]
    split
    · rfl
    · split
      · next l' heq => exact (congrArg (·.2.nextTicket) heq).symm.trans hcan
      · next l' heq => exact (ih l').trans ((congrArg (·.2.nextTicket) heq).symm.trans hcan)

theorem round_nextTicket (l : Limiter) : (l.round cfg clock).2.nextTicket = l.nextTicket := by
  have hscan := scan_nextTicket cfg clock (sortWaiters l.waiters)
    { l with waiters := sortWaiters l.waiters }
  unfold Limiter.round
  dsimp only
  split
  · next l' heq => exact (congrArg (·.2.nextTicket) heq).symm.trans hscan
  · next w l' heq =>
    have hl' : l'.nextTicket = l.nextTicket := (congrArg (·.2.nextTicket) heq).symm.trans hscan
    split
    · exact hl'
    · rw [consume_nextTicket]
      exact hl'

theorem rounds_nextTicket (n : ℕ) (l : Limiter) :
    (l.rounds cfg clock n).nextTicket = l.nextTicket := by
  induction n generalizing l with
  | zero => rfl
  | succ n ih =>
    have hround := round_nextTicket cfg clock l
    rw [Limiter.rounds]
    split
    · next l' heq => exact (ih l').trans ((congrArg (·.2.nextTicket) heq).symm.trans hround)
    · next l' heq => exact (congrArg (·.2.nextTicket) heq).symm.trans hround

theorem refill_nextTicket (l : Limiter) : (l.refill cfg clock).nextTicket = l.nextTicket :=
  rounds_nextTicket cfg clock _ _

end Tickets

/-- The fast path, with a settled queue. -/
theorem InOrder.fast (h : InOrder l) (hsettled : Settled cfg r l) (hseen : l.seen ≤ r) {q : Request}
    (hunit : q.units = 1) {ticket : ℕ} (hissued : ticket < l.nextTicket)
    (hfresh : ∀ t, t ∈ l.enqueued ∨ t ∈ l.granted ∨ t ∈ l.cancelled → t < ticket)
    (hserve : Servable cfg r l q) : InOrder (l.consume (fun _ => r) q ticket) := by
  obtain ⟨g, hgrants, hrequest, hticket, _, hwaiting⟩ :=
    consume_grants (fun _ => r) l q ticket
  refine h.grant (g := g) ?_ ?_ ?_ ?_ ?_ ?_ ?_ ?_ ?_ hgrants ?_ ?_
  · rw [consume_waiters]
  · rw [consume_waiters]
    exact fun w hw => Or.inl hw
  · rw [consume_waiters, hticket]
    exact fun w hw => (hfresh _ (Or.inl (h.waiting w hw).1)).ne
  · rw [hticket]
    exact fun ht => (hfresh _ (Or.inr (Or.inl ht))).ne rfl
  · rw [hticket]
    exact fun ht => (hfresh _ (Or.inr (Or.inr ht))).ne rfl
  · intro w hw _ he
    rw [hwaiting] at hw
    obtain ⟨_, hnot⟩ := hsettled w hw
    refine serviceRank_lt.mpr (Or.inl (lt_of_not_ge fun hle => hnot (hserve.mono ?_ ?_ ?_)))
    · rw [he, hrequest]
    · rw [h.unit w hw, hunit]
    · rwa [hrequest] at hle
  · rw [hticket, consume_nextTicket]
    exact hissued
  · rw [consume_nextTicket]
  · rw [consume_enqueued]
  · rw [consume_cancelled]
  · exact (seen_le_consume (fun _ => r) hseen q ticket).1

theorem mem_sortWaiters_concat {ws : List Waiter} {w w₀ : Waiter} :
    w ∈ sortWaiters (ws ++ [w₀]) ↔ w ∈ ws ∨ w = w₀ := by
  rw [mem_sortWaiters, List.mem_append, List.mem_singleton]

theorem InOrder.nodup_concat (h : InOrder l) {w₀ : Waiter}
    (hnew : ∀ w ∈ l.waiters, w.ticket < w₀.ticket) :
    ((sortWaiters (l.waiters ++ [w₀])).map (·.ticket)).Nodup := by
  have hperm := (List.perm_insertionSort (fun a b : Waiter => ¬ b.Before a)
    (l.waiters ++ [w₀])).map (·.ticket)
  rw [sortWaiters, hperm.nodup_iff, List.map_append]
  refine List.nodup_append.mpr ⟨h.nodup, List.nodup_singleton _, fun t ht u hu => ?_⟩
  obtain ⟨w, hw, rfl⟩ := List.mem_map.mp ht
  rw [List.mem_singleton.mp hu]
  exact (hnew w hw).ne

/-- The sort puts a newcomer behind those that are as urgent. -/
theorem InOrder.sorted_concat (h : InOrder l) {w₀ : Waiter}
    (hnew : ∀ w ∈ l.waiters, w.ticket < w₀.ticket)
    (hpast : ∀ w ∈ l.waiters, w.enqueuedAt ≤ w₀.enqueuedAt) :
    (sortWaiters (l.waiters ++ [w₀])).Pairwise fun a b => a.rank < b.rank := by
  have hle : (sortWaiters (l.waiters ++ [w₀])).Pairwise fun a b => a.rank ≤ b.rank := by
    refine StableSort.pairwise_insertionSort (List.pairwise_append.mpr
      ⟨h.agree, List.pairwise_singleton _ _, fun a ha b hb => ?_⟩)
    rw [List.mem_singleton.mp hb]
    exact not_before_iff fun _ => ⟨hnew a ha, hpast a ha⟩
  refine (hle.and (List.pairwise_map.mp (h.nodup_concat hnew))).imp fun {a b} hab => ?_
  refine lt_of_le_of_ne hab.1 fun heq => hab.2 ?_
  exact congrArg (fun x : ℕ ×ₗ ℕ => (ofLex x).2) heq

/-- The slow path. -/
theorem InOrder.enqueue (h : InOrder l) (hseen : l.seen ≤ r) {q : Request} (hunit : q.units = 1)
    {ticket : ℕ} (hissued : ticket < l.nextTicket)
    (hfresh : ∀ t, t ∈ l.enqueued ∨ t ∈ l.granted ∨ t ∈ l.cancelled → t < ticket) :
    InOrder (l.enqueue (fun _ => r) q ticket) := by
  let w₀ : Waiter := { q with ticket, enqueuedAt := r.now }
  have hnew : ∀ w ∈ l.waiters, w.ticket < ticket := fun w hw => hfresh _ (Or.inl (h.waiting w hw).1)
  have hpast : ∀ w ∈ l.waiters, w.enqueuedAt ≤ r.now := fun w hw => (h.past w hw).trans hseen.1
  refine ⟨h.sorted_concat hnew hpast, h.nodup_concat hnew, fun w hw => ?_,
    fun a ha b hb hab => ?_, fun w hw => ?_, h.inTurn, h.once, fun t ht => ?_, fun w hw => ?_,
    fun t ht => ?_, h.apart⟩
  · obtain hw | rfl := mem_sortWaiters_concat.mp hw
    · exact h.unit w hw
    · exact hunit
  · obtain ha | rfl := mem_sortWaiters_concat.mp ha
    · obtain hb | rfl := mem_sortWaiters_concat.mp hb
      · exact h.arrival a ha b hb hab
      · exact hpast a ha
    · obtain hb | rfl := mem_sortWaiters_concat.mp hb
      · exact absurd (hnew b hb) hab.not_gt
      · exact le_rfl
  · obtain hw | rfl := mem_sortWaiters_concat.mp hw
    · exact hpast w hw
    · exact le_rfl
  · obtain ht | ht := ht
    · obtain rfl | ht := List.mem_cons.mp ht
      · exact hissued
      · exact h.issued t (Or.inl ht)
    · exact h.issued t (Or.inr ht)
  · obtain hw | rfl := mem_sortWaiters_concat.mp hw
    · obtain ⟨hin, hrest⟩ := h.waiting w hw
      exact ⟨List.mem_cons_of_mem _ hin, hrest⟩
    · refine ⟨List.mem_cons_self, fun ht => (hfresh _ (Or.inr (Or.inl ht))).ne rfl, ?_⟩
      exact iff_of_false nofun fun ht => (hfresh _ (Or.inr (Or.inr ht))).ne rfl
  · obtain rfl | ht := List.mem_cons.mp ht
    · exact Or.inl ⟨w₀, mem_sortWaiters_concat.mpr (Or.inr rfl), rfl⟩
    · obtain ⟨w, hw, rfl⟩ | hgone := h.kept t ht
      · exact Or.inl ⟨w, mem_sortWaiters_concat.mpr (Or.inl hw), rfl⟩
      · exact Or.inr hgone

theorem InOrder.acquire (h : InOrder l) (hseen : l.seen ≤ r) {q : Request}
    (hunit : 0 < q.units → q.units = 1) : InOrder (l.acquire cfg (fun _ => r) q) := by
  unfold Limiter.acquire
  split
  · exact h
  · next hunits =>
    have hunit := hunit (lt_of_not_ge hunits)
    obtain ⟨hin, hseen', hsettled⟩ := h.refill cfg hseen
    have hticket := refill_nextTicket cfg (fun _ => r) l
    let l₀ : Limiter := { l.refill cfg (fun _ => r) with nextTicket := l.nextTicket + 1 }
    have hl₀ : InOrder l₀ :=
      hin.later rfl (hticket.le.trans (Nat.le_succ _)) rfl rfl rfl le_rfl
    have hfresh : ∀ t, t ∈ l₀.enqueued ∨ t ∈ l₀.granted ∨ t ∈ l₀.cancelled → t < l.nextTicket :=
      fun t ht => hticket ▸ hin.issued t ht
    have hsettled₀ : Settled cfg r l₀ := by
      intro v hv
      rw [show Servable cfg r l₀ v.toRequest ↔ Servable cfg r (l.refill cfg fun _ => r) v.toRequest
        by rw [servable_iff, servable_iff]; rfl]
      exact hsettled v hv
    dsimp only
    -- the prune before the daily cap, for an order
    have halike : Alike cfg r l₀ (if q.endpoint = .orderPlace
        then l₀.pruneOrderWindows fun _ => r else l₀) := by
      split
      · exact pruneOrderWindows_alike
      · exact .refl l₀
    generalize (if q.endpoint = .orderPlace
      then l₀.pruneOrderWindows fun _ => r else l₀) = l₁ at halike ⊢
    split
    · exact hl₀.alike halike hseen'
    · have hcan := halike.trans (canAcquire_alike cfg r l₁ q)
      have hserve : (l₁.canAcquire cfg (fun _ => r) q).1 = true → Servable cfg r l₀ q :=
        fun hq => halike.servable.mp hq
      have hfresh' {l' : Limiter} (ha : Alike cfg r l₀ l') :
          ∀ t, t ∈ l'.enqueued ∨ t ∈ l'.granted ∨ t ∈ l'.cancelled → t < l.nextTicket := by
        rw [granted, ha.enqueued, ha.grants, ha.cancelled]
        exact hfresh
      split
      · next l' heq =>
        rw [heq] at hcan hserve
        exact (hl₀.alike hcan hseen').fast (hsettled₀.alike hcan) (hcan.seen_le hseen').2 hunit
          (hcan.nextTicket ▸ Nat.lt_succ_self _) (hfresh' hcan) (hcan.servable.mpr (hserve rfl))
      · next l' heq =>
        rw [heq] at hcan
        exact (hl₀.alike hcan hseen').enqueue (hcan.seen_le hseen').2 hunit
          (hcan.nextTicket ▸ Nat.lt_succ_self _) (hfresh' hcan)

theorem InOrder.cancel (h : InOrder l) (ticket : ℕ) : InOrder (l.cancel ticket) := by
  unfold Limiter.cancel
  split
  · next hex =>
    obtain ⟨w₀, hw₀, rfl, _⟩ := hex
    obtain ⟨hin₀, hnot₀, _⟩ := h.waiting w₀ hw₀
    let mark (w : Waiter) : Waiter := if w.ticket = w₀.ticket then { w with done := true } else w
    -- a mark changes nothing but `done`
    have hmark (w : Waiter) : (mark w).rank = w.rank ∧ (mark w).ticket = w.ticket ∧
        (mark w).units = w.units ∧ (mark w).enqueuedAt = w.enqueuedAt ∧
        ((mark w).done = true ↔ w.ticket = w₀.ticket ∨ w.done = true) := by
      unfold mark
      split
      · next heq => exact ⟨rfl, rfl, rfl, rfl, iff_of_true rfl (Or.inl heq)⟩
      · next hne => exact ⟨rfl, rfl, rfl, rfl, by simp [hne]⟩
    have htickets : (l.waiters.map mark).map (·.ticket) = l.waiters.map (·.ticket) := by
      rw [List.map_map]
      exact List.map_congr_left fun w _ => (hmark w).2.1
    have hmem {w : Waiter} (hw : w ∈ l.waiters.map mark) : ∃ v ∈ l.waiters, mark v = w :=
      List.mem_map.mp hw
    refine ⟨?_, ?_, fun w hw => ?_, fun a ha b hb hab => ?_, fun w hw => ?_, h.inTurn, h.once,
      fun t ht => ?_, fun w hw => ?_, fun t ht => ?_, fun t ht => ?_⟩
    · refine List.pairwise_map.mpr (h.sorted.imp fun {a b} hab => ?_)
      rwa [(hmark a).1, (hmark b).1]
    · exact htickets ▸ h.nodup
    · obtain ⟨v, hv, rfl⟩ := hmem hw
      exact (hmark v).2.2.1.trans (h.unit v hv)
    · obtain ⟨a', ha', rfl⟩ := hmem ha
      obtain ⟨b', hb', rfl⟩ := hmem hb
      rw [(hmark a').2.1, (hmark b').2.1] at hab
      rw [(hmark a').2.2.2.1, (hmark b').2.2.2.1]
      exact h.arrival a' ha' b' hb' hab
    · obtain ⟨v, hv, rfl⟩ := hmem hw
      exact (hmark v).2.2.2.1.le.trans (h.past v hv)
    · obtain ht | ht | ht := ht
      · exact h.issued t (Or.inl ht)
      · exact h.issued t (Or.inr (Or.inl ht))
      · obtain rfl | ht := List.mem_cons.mp ht
        · exact h.issued _ (Or.inl hin₀)
        · exact h.issued t (Or.inr (Or.inr ht))
    · obtain ⟨v, hv, rfl⟩ := hmem hw
      obtain ⟨hin, hnot, hdone⟩ := h.waiting v hv
      rw [(hmark v).2.1]
      refine ⟨hin, hnot, (hmark v).2.2.2.2.trans ?_⟩
      rw [hdone, List.mem_cons]
    · obtain ⟨v, hv, rfl⟩ | hg | hc := h.kept t ht
      · exact Or.inl ⟨mark v, List.mem_map_of_mem hv, (hmark v).2.1⟩
      · exact Or.inr (Or.inl hg)
      · exact Or.inr (Or.inr (List.mem_cons_of_mem _ hc))
    · obtain rfl | ht := List.mem_cons.mp ht
      · exact hnot₀
      · exact h.apart t ht
  · exact h

theorem InOrder.next (h : InOrder l) (e : LimiterEvent) (hok : l.Still (fun q => q.units = 1) e) :
    InOrder (l.next cfg e) := by
  obtain ⟨⟨⟨_, hseen⟩, hunit⟩, r, hclock⟩ := hok
  rw [hclock] at hseen
  have hreset : InOrder { l with reads := 0 } := h.later rfl le_rfl rfl rfl rfl le_rfl
  unfold Limiter.next
  rw [hclock]
  cases haction : e.action with
  | acquire q => exact hreset.acquire hseen (hunit q haction)
  | drain => exact (hreset.refill cfg hseen).1
  | cancel ticket => exact hreset.cancel ticket

/-- In every state reached: each grant came before all that were waiting for its endpoint; no
ticket is granted twice; a ticket that was enqueued goes on waiting exactly as long as it is
neither granted nor cancelled; and a refill leaves nobody who is done or can be served. -/
theorem served_in_order (cfg : LimiterConfig) (r₀ : Reading) (es : List LimiterEvent)
    (h : StepsMeet (next cfg) (Still fun q => q.units = 1) (start cfg r₀) es) :
    let l := es.foldl (next cfg) (start cfg r₀)
    (∀ g ∈ l.grants, g.InTurn) ∧ l.granted.Nodup ∧
      (∀ t ∈ l.enqueued, (∃ w ∈ l.waiters, w.ticket = t ∧ w.done = false) ↔
        t ∉ l.granted ∧ t ∉ l.cancelled) ∧
      ∀ r, l.seen ≤ r → let l' := l.refill cfg fun _ => r
        Settled cfg r l' ∧ (l'.round cfg fun _ => r).1 = false := by
  intro l
  have hin : InOrder l := (h.invariant (fun _ e hl hok => hl.next e hok) start_inOrder).last
  refine ⟨hin.inTurn, hin.once, fun t ht => ⟨?_, fun ⟨hgranted, hcancelled⟩ => ?_⟩,
    fun r hseen => ?_⟩
  · rintro ⟨w, hw, rfl, hlive⟩
    obtain ⟨_, hnot, hdone⟩ := hin.waiting w hw
    exact ⟨hnot, fun hc => by cases hlive.symm.trans (hdone.mpr hc)⟩
  · obtain ⟨w, hw, rfl⟩ | hg | hc := hin.kept t ht
    · refine ⟨w, hw, rfl, eq_false_of_ne_true fun hdone => ?_⟩
      exact hcancelled ((hin.waiting w hw).2.2.mp hdone)
    · exact absurd hg hgranted
    · exact absurd hc hcancelled
  · obtain ⟨hl', _, hsettled⟩ := hin.refill cfg hseen
    exact ⟨hsettled, hsettled.round hl'⟩

/-- Of three that wait for a quote, one is cancelled, and the most urgent is served first. -/
def fourQuotes : List (LimiterAction × Reading) :=
  [(.acquire ⟨.low, .quote, 1⟩, ⟨0, 0⟩), (.acquire ⟨.low, .quote, 1⟩, ⟨0, 0⟩),
    (.acquire ⟨.high, .quote, 1⟩, ⟨0, 0⟩), (.acquire ⟨.critical, .quote, 1⟩, ⟨1 / 2, 0⟩),
    (.cancel 3, ⟨1 / 2, 0⟩), (.drain, ⟨1, 0⟩)]

theorem served_in_order_four_quotes :
    let l := (fourQuotes.map fun e => LimiterEvent.still e.1 e.2).foldl (next {}) (start {} ⟨0, 0⟩)
    l.granted = [2, 0] ∧ (∀ g ∈ l.grants, g.InTurn) ∧
      (∀ t ∈ l.enqueued, (∃ w ∈ l.waiters, w.ticket = t ∧ w.done = false) ↔
        t ∉ l.granted ∧ t ∉ l.cancelled) := by
  intro l
  have hmeets : StepsMeet (next {}) (Still fun q => q.units = 1) (start {} ⟨0, 0⟩)
      (fourQuotes.map fun e => .still e.1 e.2) := by
    refine stepsMeet_still _ _ (by decide +kernel) (by decide +kernel) fun e he q hq _ => ?_
    simp only [fourQuotes, List.mem_cons, List.not_mem_nil, or_false] at he
    obtain rfl | rfl | rfl | rfl | rfl | rfl := he <;> cases hq <;> rfl
  have h := served_in_order {} ⟨0, 0⟩ _ hmeets
  exact ⟨by decide +kernel, h.1, h.2.2.1⟩

end Limiter
end QuantEmbrace
