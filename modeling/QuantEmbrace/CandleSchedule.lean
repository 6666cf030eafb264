import QuantEmbrace.Lib.GuardedRun
import QuantEmbrace.Lib.PythonInt
import QuantEmbrace.Lib.RoundRobin
import Mathlib.Data.List.Dedup

/-! Which candles are fetched next. The standard queue rotates over all instruments and intervals;
the priority queue goes first, and is refilled the moment it runs out. -/
namespace QuantEmbrace.Candles
open GuardedRun RoundRobin

def intervalAliases : List (String × String) :=
  [("1m", "minute"), ("1min", "minute"), ("5m", "5minute"), ("5min", "5minute"),
    ("15m", "15minute"), ("15min", "15minute")]

/-- The aliases are ASCII, and no other character lowers to one of theirs. -/
def canonicalInterval (raw : String) : String :=
  let name := String.ofList (PythonInt.strip raw.toList)
  (intervalAliases.lookup name.toLower).getD name

/-- `_normalise_intervals` -/
def normaliseIntervals (intervals : List String) : List String :=
  match ((intervals.map canonicalInterval).filter (· ≠ "")).eraseDups with
  | [] => ["minute"]
  | result => result

theorem normaliseIntervals_ne_nil (intervals : List String) :
    normaliseIntervals intervals ≠ [] := by
  rw [normaliseIntervals]
  split
  · exact List.cons_ne_nil _ _
  · assumption

/-- What the scheduling of a stream is built from. -/
structure ScheduleConfig where
  instrumentTokens : List String
  interval : String := "minute"
  intervals : List String := []
  nodup : instrumentTokens.Nodup

def ScheduleConfig.allIntervals (cfg : ScheduleConfig) : List String :=
  normaliseIntervals (if cfg.intervals = [] then [cfg.interval] else cfg.intervals)

abbrev FetchPair : Type := String × String

def ScheduleConfig.pairs (cfg : ScheduleConfig) (instruments : List String) : List FetchPair :=
  instruments.flatMap fun instrument => cfg.allIntervals.map fun interval => (instrument, interval)

/-- The set of priority instruments stands in the order in which it iterates. -/
structure FetchQueues where
  standardQueue : List FetchPair
  priorityInstruments : List String := []
  priorityQueue : List FetchPair := []
  deriving DecidableEq, Repr

inductive ScheduleEvent where
  | setPriorityInstruments (instruments : List String)
  | nextInstrumentInterval
  deriving DecidableEq, Repr

namespace ScheduleConfig
variable (cfg : ScheduleConfig)

def init : FetchQueues where
  standardQueue := cfg.pairs cfg.instrumentTokens

/-- The instruments of a set that have a token. -/
def known (instruments : List String) : List String :=
  (instruments.filter (· ∈ cfg.instrumentTokens)).dedup

def setPriorityInstruments (q : FetchQueues) (instruments : List String) : FetchQueues :=
  { q with
    priorityInstruments := cfg.known instruments
    priorityQueue := cfg.pairs (cfg.known instruments) }

def nextInstrumentInterval (q : FetchQueues) : Option FetchPair × FetchQueues :=
  match q.priorityQueue with
  | item :: rest =>
    if rest = [] ∧ q.priorityInstruments ≠ [] then
      (some item, { q with priorityQueue := cfg.pairs q.priorityInstruments })
    else (some item, { q with priorityQueue := rest })
  | [] =>
    match q.standardQueue with
    | item :: rest => (some item, { q with standardQueue := rest ++ [item] })
    | [] => (none, q)

def step (q : FetchQueues) : ScheduleEvent → FetchQueues
  | .setPriorityInstruments instruments => cfg.setPriorityInstruments q instruments
  | .nextInstrumentInterval => (cfg.nextInstrumentInterval q).2

/-- A number of calls that depends on how many instruments, intervals and priority instruments
there are. -/
abbrev Bound : Type := ℕ → ℕ → ℕ → ℕ

/-- The next so many calls, if no set is assigned meanwhile. -/
def served (bound : Bound) (q : FetchQueues) : List FetchPair :=
  turns cfg.nextInstrumentInterval
    (bound cfg.instrumentTokens.length cfg.allIntervals.length q.priorityInstruments.length) q

/-- They return every pair, and the pairs of a priority instrument no less often than others. -/
structure ServedWithin (bound : Bound) (q : FetchQueues) : Prop where
  all : cfg.pairs cfg.instrumentTokens ⊆ cfg.served bound q
  priority : ∀ p ∈ cfg.pairs cfg.instrumentTokens, p.1 ∈ q.priorityInstruments →
    ∀ p' ∈ cfg.pairs cfg.instrumentTokens, p'.1 ∉ q.priorityInstruments →
      (cfg.served bound q).count p' ≤ (cfg.served bound q).count p

/-- An assignment gives priority to no instrument of the stream, or to all of them. -/
def Fair : ScheduleEvent → Prop
  | .setPriorityInstruments instruments =>
    cfg.known instruments = [] ∨ ∀ i ∈ cfg.instrumentTokens, i ∈ instruments
  | .nextInstrumentInterval => True

instance : DecidablePred cfg.Fair
  | .setPriorityInstruments _ => inferInstanceAs (Decidable (_ ∨ _))
  | .nextInstrumentInterval => instDecidableTrue

/-- A round of the queue in use. -/
def oneRound : Bound := fun instruments intervals priority =>
  if priority = 0 then instruments * intervals else priority * intervals

variable {cfg} {q : FetchQueues} {instruments : List String}

theorem mem_pairs {pair : FetchPair} :
    pair ∈ cfg.pairs instruments ↔ pair.1 ∈ instruments ∧ pair.2 ∈ cfg.allIntervals := by
  obtain ⟨instrument, interval⟩ := pair
  simp [pairs]

theorem length_pairs :
    (cfg.pairs instruments).length = instruments.length * cfg.allIntervals.length := by
  simp [pairs, List.length_flatMap]

theorem allIntervals_ne_nil : cfg.allIntervals ≠ [] := normaliseIntervals_ne_nil _

theorem pairs_ne_nil (h : instruments ≠ []) : cfg.pairs instruments ≠ [] := by
  obtain ⟨i, hi⟩ := List.exists_mem_of_ne_nil _ h
  have hintervals : cfg.allIntervals ≠ [] := allIntervals_ne_nil
  obtain ⟨t, ht⟩ := List.exists_mem_of_ne_nil _ hintervals
  exact List.ne_nil_of_mem (mem_pairs.mpr ⟨hi, ht⟩ : (i, t) ∈ cfg.pairs instruments)

theorem mem_known {i : String} :
    i ∈ cfg.known instruments ↔ i ∈ instruments ∧ i ∈ cfg.instrumentTokens := by
  simp [known]

section Next
variable {standard rest : List FetchPair} {item : FetchPair}

theorem next_last (h : instruments ≠ []) :
    cfg.nextInstrumentInterval ⟨standard, instruments, [item]⟩ =
      (some item, ⟨standard, instruments, cfg.pairs instruments⟩) :=
  if_pos ⟨rfl, h⟩

theorem next_priority (h : rest ≠ []) :
    cfg.nextInstrumentInterval ⟨standard, instruments, item :: rest⟩ =
      (some item, ⟨standard, instruments, rest⟩) :=
  if_neg fun hlast => h hlast.1

@[simp] theorem next_priorityInstruments :
    (cfg.nextInstrumentInterval q).2.priorityInstruments = q.priorityInstruments := by
  rw [nextInstrumentInterval]
  split
  · split <;> rfl
  · split <;> rfl

theorem next_standardQueue :
    (cfg.nextInstrumentInterval q).2.standardQueue.Perm q.standardQueue := by
  rw [nextInstrumentInterval]
  split
  · split <;> exact List.Perm.refl _
  · split
    · next item rest hqueue => exact hqueue ▸ List.perm_append_singleton item rest
    · exact List.Perm.refl _

end Next

variable (cfg)

/-- What comes next, in a circle: a part of the priority pairs may have been taken already. -/
inductive Ahead : FetchQueues → List FetchPair → Prop where
  | standard (queue : List FetchPair) : Ahead ⟨queue, [], []⟩ queue
  | priority (standard : List FetchPair) {instruments : List String}
      (hinstruments : instruments ≠ []) {taken queue : List FetchPair} (hqueue : queue ≠ [])
      (hpairs : cfg.pairs instruments = taken ++ queue) :
      Ahead ⟨standard, instruments, queue⟩ (queue ++ taken)

theorem Ahead.refilled (standard : List FetchPair) {instruments : List String}
    (h : instruments ≠ []) :
    cfg.Ahead ⟨standard, instruments, cfg.pairs instruments⟩ (cfg.pairs instruments) := by
  have hpairs : cfg.pairs instruments = [] ++ cfg.pairs instruments := rfl
  have hahead := Ahead.priority standard h (pairs_ne_nil h) hpairs
  rwa [List.append_nil] at hahead

theorem goesThrough : GoesThrough cfg.nextInstrumentInterval cfg.Ahead := by
  intro q a c h
  generalize hcircle : a :: c = circle at h
  cases h with
  | standard queue =>
    obtain rfl := hcircle
    exact ⟨rfl, .standard _⟩
  | @priority standard instruments hinstruments taken queue hqueue hpairs =>
    cases queue with
    | nil => exact absurd rfl hqueue
    | cons item rest =>
      obtain ⟨rfl, rfl⟩ : a = item ∧ c = rest ++ taken := List.cons.inj hcircle
      by_cases hrest : rest = []
      · -- the last one: the queue is refilled
        subst hrest
        rw [next_last hinstruments]
        refine ⟨rfl, ?_⟩
        rw [List.nil_append, ← hpairs]
        exact Ahead.refilled cfg standard hinstruments
      · rw [next_priority hrest]
        refine ⟨rfl, ?_⟩
        rw [List.append_assoc]
        exact .priority standard hinstruments hrest (by rw [hpairs, List.append_cons])

/-- The instruments that are fetched as long as no other set is assigned. -/
def inUse (q : FetchQueues) : List String :=
  if q.priorityInstruments = [] then cfg.instrumentTokens else q.priorityInstruments

/-- A state that calls and assignments lead to. -/
structure Standing (q : FetchQueues) : Prop where
  standard : q.standardQueue.Perm (cfg.pairs cfg.instrumentTokens)
  known : q.priorityInstruments ⊆ cfg.instrumentTokens
  ahead : ∃ c, cfg.Ahead q c ∧ c.Perm (cfg.pairs (cfg.inUse q))

theorem standing_init : cfg.Standing cfg.init where
  standard := List.Perm.refl _
  known := List.nil_subset _
  ahead := ⟨_, .standard _, List.Perm.refl _⟩

variable {cfg}

/-- No circle is empty but that of a stream without instruments, which hands out nothing. -/
theorem next_of_ahead_nil (h : cfg.Ahead q []) : cfg.nextInstrumentInterval q = (none, q) := by
  generalize hcircle : [] = circle at h
  cases h with
  | standard queue =>
    obtain rfl := hcircle
    rfl
  | priority standard hinstruments hqueue hpairs =>
    exact absurd (List.append_eq_nil_iff.mp hcircle.symm).1 hqueue

theorem Standing.next (h : cfg.Standing q) : cfg.Standing (cfg.nextInstrumentInterval q).2 where
  standard := next_standardQueue.trans h.standard
  known := by
    rw [next_priorityInstruments]
    exact h.known
  ahead := by
    obtain ⟨c, hahead, hperm⟩ := h.ahead
    rw [inUse, next_priorityInstruments]
    cases c with
    | nil =>
      rw [next_of_ahead_nil hahead]
      exact ⟨[], hahead, hperm⟩
    | cons a c =>
      have hnext := (cfg.goesThrough q a c hahead).2
      exact ⟨c ++ [a], hnext, (List.perm_append_singleton a c).trans hperm⟩

theorem Standing.assign (h : cfg.Standing q) (instruments : List String) :
    cfg.Standing (cfg.setPriorityInstruments q instruments) where
  standard := h.standard
  known := fun _ hi => (mem_known.mp hi).2
  ahead := by
    by_cases hknown : cfg.known instruments = []
    · have huse : cfg.inUse (cfg.setPriorityInstruments q instruments) = cfg.instrumentTokens :=
        if_pos hknown
      rw [huse, setPriorityInstruments, hknown]
      exact ⟨q.standardQueue, .standard _, h.standard⟩
    · have huse : cfg.inUse (cfg.setPriorityInstruments q instruments) = cfg.known instruments :=
        if_neg hknown
      rw [huse]
      exact ⟨_, Ahead.refilled cfg q.standardQueue hknown, List.Perm.refl _⟩

theorem Standing.step (h : cfg.Standing q) (e : ScheduleEvent) : cfg.Standing (cfg.step q e) := by
  cases e with
  | setPriorityInstruments instruments => exact h.assign instruments
  | nextInstrumentInterval => exact h.next

variable (cfg) in
/-- No instrument has priority, or all have. -/
def FairState (q : FetchQueues) : Prop :=
  q.priorityInstruments = [] ∨ cfg.instrumentTokens ⊆ q.priorityInstruments

/-- In a round of a fair state every pair has its turn. -/
theorem Standing.served (h : cfg.Standing q) (hfair : cfg.FairState q) :
    cfg.ServedWithin oneRound q := by
  obtain ⟨c, hahead, hperm⟩ := h.ahead
  have hround : cfg.served oneRound q = c := by
    have hlength : oneRound cfg.instrumentTokens.length cfg.allIntervals.length
        q.priorityInstruments.length = c.length := by
      rw [hperm.length_eq, length_pairs, inUse, oneRound]
      simp only [List.length_eq_zero_iff]
      split <;> rfl
    rw [ScheduleConfig.served, hlength]
    exact turns_cycle cfg.goesThrough hahead
  have huse : cfg.instrumentTokens ⊆ cfg.inUse q := by
    rw [inUse]
    split
    · exact List.Subset.refl _
    · next hsome => exact hfair.resolve_left hsome
  refine ⟨fun pair hpair => ?_, fun p _ hp p' hp' hother => ?_⟩
  · obtain ⟨hinstrument, hinterval⟩ := mem_pairs.mp hpair
    rw [hround]
    exact hperm.symm.subset (mem_pairs.mpr ⟨huse hinstrument, hinterval⟩)
  · obtain hnone | hall := hfair
    · rw [hnone] at hp
      exact absurd hp List.not_mem_nil
    · exact absurd (hall (mem_pairs.mp hp').1) hother

/-- As long as some instruments have priority and others have not, the others wait. -/
theorem Standing.fair (h : cfg.Standing q) {bound : Bound} (hserved : cfg.ServedWithin bound q) :
    cfg.FairState q := by
  by_contra hunfair
  obtain ⟨hsome, hmissing⟩ := not_or.mp hunfair
  obtain ⟨i, hi, hother⟩ : ∃ i ∈ cfg.instrumentTokens, i ∉ q.priorityInstruments := by
    simpa [List.subset_def] using hmissing
  have hintervals : cfg.allIntervals ≠ [] := allIntervals_ne_nil
  obtain ⟨t, ht⟩ := List.exists_mem_of_ne_nil _ hintervals
  obtain ⟨c, hahead, hperm⟩ := h.ahead
  rw [inUse, if_neg hsome] at hperm
  have hc : c ≠ [] := fun hnil => pairs_ne_nil hsome (hnil ▸ hperm).nil_eq.symm
  have hmem : (i, t) ∈ cfg.served bound q := hserved.all (mem_pairs.mpr ⟨hi, ht⟩)
  have hpair := hperm.subset (turns_subset cfg.goesThrough _ hc hahead hmem)
  exact hother (mem_pairs.mp hpair).1

theorem fairState_step (hq : cfg.FairState q) (e : ScheduleEvent) :
    cfg.FairState (cfg.step q e) ↔ cfg.Fair e := by
  cases e with
  | nextInstrumentInterval =>
    rw [FairState, ScheduleConfig.step, next_priorityInstruments]
    exact iff_of_true hq trivial
  | setPriorityInstruments instruments =>
    refine or_congr Iff.rfl ?_
    exact ⟨fun h i hi => (mem_known.mp (h hi)).1, fun h i hi => mem_known.mpr ⟨h i hi, hi⟩⟩

/-- In every state of a run a round serves every pair, exactly if every assignment gives priority to
none or all of the instruments. With any other assignment no number of calls does. -/
theorem served_within_iff (cfg : ScheduleConfig) (es : List ScheduleEvent) :
    (AlongRun cfg.step (cfg.ServedWithin oneRound) cfg.init es ↔ ∀ e ∈ es, cfg.Fair e) ∧
      ∀ bound, AlongRun cfg.step (cfg.ServedWithin bound) cfg.init es → ∀ e ∈ es, cfg.Fair e := by
  have hstanding : AlongRun cfg.step cfg.Standing cfg.init es :=
    AlongRun.of_keep (fun q e h => h.step e) cfg.standing_init es
  have hfair : AlongRun cfg.step cfg.FairState cfg.init es ↔ ∀ e ∈ es, cfg.Fair e := by
    have hadmitted : StepsMeet cfg.step (fun _ e => cfg.Fair e) cfg.init es ↔
        ∀ e ∈ es, cfg.Fair e := stepsMeet_iff_forall
    rw [← hadmitted]
    exact alongRun_iff (I := fun _ => True) (D := fun _ => True) (fun _ _ _ _ => trivial)
      (fun q e _ _ hq => fairState_step hq e) es (fun _ _ => trivial) _ trivial (.inl rfl)
  have hneeded : ∀ bound, AlongRun cfg.step (cfg.ServedWithin bound) cfg.init es →
      ∀ e ∈ es, cfg.Fair e :=
    fun bound h => hfair.mp fun pre hpre => (hstanding pre hpre).fair (h pre hpre)
  refine ⟨⟨hneeded oneRound, fun h pre hpre => ?_⟩, hneeded⟩
  exact (hstanding pre hpre).served (hfair.mpr h pre hpre)

/-- Of two instruments one gets priority. -/
def twoInstruments : ScheduleConfig where
  instrumentTokens := ["NSE:INFY", "NSE:TCS"]
  nodup := by decide

/-- The other is never fetched again. -/
theorem standard_queue_starves :
    ¬ ∃ bound : Bound, ∀ (cfg : ScheduleConfig) (es : List ScheduleEvent),
      AlongRun cfg.step (cfg.ServedWithin bound) cfg.init es := by
  intro ⟨bound, h⟩
  have hfair := ((twoInstruments.standing_init.step
    (.setPriorityInstruments ["NSE:INFY"])).fair
      (h twoInstruments [.setPriorityInstruments ["NSE:INFY"]]).last)
  revert hfair
  rw [fairState_step (.inl rfl)]
  decide +kernel

end ScheduleConfig

end QuantEmbrace.Candles
