import QuantEmbrace.SignalDelivery
import QuantEmbrace.Lib.PythonInt

/-! The expiry of an approved signal: where it is compared with the clock, where it is stored and
read back, and the time that may pass before `broker.place_order` begins. -/
namespace QuantEmbrace.Expiry
open GuardedRun World
variable {ι P S : Type*}

/-- `datetime` with a zone, in microseconds, and its text. -/
structure Datetime where
  isoformat : ℤ → String
  fromisoformat : String → Option ℤ
  fromisoformat_isoformat : ∀ t, fromisoformat (isoformat t) = some t

/-- How far a task is with the comparisons before it enters `execute_approved_signal`: the one of
the loop, the one of the handler, and the one of that function with the expiry it was given. -/
inductive Gate where
  | loop | handler | execute
  | passed (expiresAt : Option ℤ)
  deriving DecidableEq, Repr

def Gate.next (expiresAt : Option ℤ) : Gate → Gate
  | loop => .handler
  | handler => .execute
  | execute | passed _ => .passed expiresAt

def Gate.expiresAt : Gate → Option ℤ
  | passed expiresAt => expiresAt
  | _ => none

/-- `expires_at is not None and now > expires_at` -/
def Late (expiresAt : Option ℤ) (now : ℤ) : Prop := ∃ t, expiresAt = some t ∧ t < now

instance (expiresAt : Option ℤ) (now : ℤ) : Decidable (Late expiresAt now) :=
  match expiresAt with
  | none => .isFalse nofun
  | some t => decidable_of_iff (t < now) ⟨fun h => ⟨t, rfl, h⟩, fun ⟨_, h, hlt⟩ => by
      cases h
      exact hlt⟩

/-- The deliveries with a clock, the `expires_at` in the metadata of each order row, and the
`place_order` calls with the time at which each began. -/
structure Timed (ι P S : Type*) where
  world : World ι P S
  now : ℤ
  gate : ι → Gate
  stored : S → Option String
  placed : List (S × ℤ)

inductive TimedEvent (ι P S : Type*) where
  | tick (d : ℕ)
  | compare (i : ι)
  | world (ev : Event ι P S)

section Definitions
variable (A : Assignment ι P S) (dt : Datetime) (expiry : S → ℤ)

/-- The reconciliation calls `execute_approved_signal` itself. -/
def firstGate (i : ι) : Gate := if A.reconciles i then .execute else .loop

/-- `expires_at` of a delivery is that of the event; the reconciliation reads it in the row, and has
none where there is none or it cannot be read. -/
def expiresAt (s : Timed ι P S) (i : ι) : Option ℤ :=
  if A.reconciles i then (s.stored (A.signal i)).bind dt.fromisoformat
  else some (expiry (A.signal i))

def start (now : ℤ) : Timed ι P S := ⟨.start, now, firstGate A, fun _ => none, []⟩

variable [DecidableEq ι] [DecidableEq P] [DecidableEq S]

/-- The row of a signal is put with the expiry of the task that reserves it. -/
def storedAfter (s : Timed ι P S) (i : ι) (w : World ι P S) : S → Option String :=
  if (s.world.signals (A.signal i)).row.isNone ∧ (w.signals (A.signal i)).row.isSome then
    Function.update s.stored (A.signal i) ((s.gate i).expiresAt.map dt.isoformat)
  else s.stored

def placedAfter (s : Timed ι P S) (i : ι) (e : TaskEvent) : List (S × ℤ) :=
  if e = .placement .place then (A.signal i, s.now) :: s.placed else s.placed

/- Time passes at any point; between two suspensions it may be none. -/
inductive Step : Timed ι P S → TimedEvent ι P S → Timed ι P S → Prop
  | tick {s : Timed ι P S} {d : ℕ} : Step s (.tick d) { s with now := s.now + d }
  | pass {s : Timed ι P S} {i : ι} : s.world.phase i = .idle →
      (∀ x, s.gate i ≠ .passed x) → ¬ Late (expiresAt A dt expiry s i) s.now →
      (A.reconciles i = true → (s.world.signals (A.signal i)).row ≠ none) →
      Step s (.compare i)
        { s with
          gate := Function.update s.gate i ((s.gate i).next (expiresAt A dt expiry s i)) }
  -- an approval that has expired is dropped, by an exception or to the dead letters
  | late {s : Timed ι P S} {i : ι} : s.world.phase i = .idle →
      (∀ x, s.gate i ≠ .passed x) → Late (expiresAt A dt expiry s i) s.now →
      Step s (.compare i) { s with world := s.world.setPhase i .finished }
  -- a task begins past its comparisons, or on an ACK_UNKNOWN order that is only looked for
  | task {s : Timed ι P S} {i : ι} {e : TaskEvent} {w : World ι P S} :
      (e = .begin → (∃ x, s.gate i = .passed x) ∨ w.phase i = .placement none .scanning) →
      World.Step A s.world (.task i e) w →
      Step s (.world (.task i e))
        { s with
          world := w
          stored := storedAfter A dt s i w
          placed := placedAfter A s i e }
  | crash {s : Timed ι P S} {pr : P} {w : World ι P S} :
      World.Step A s.world (.crash pr) w →
      Step s (.world (.crash pr))
        { s with
          world := w
          gate := fun i => if A.process i = pr then firstGate A i else s.gate i }
  | around {s : Timed ι P S} {ev : Event ι P S} {w : World ι P S} :
      (∀ i e, ev ≠ .task i e) → (∀ pr, ev ≠ .crash pr) → World.Step A s.world ev w →
      Step s (.world ev) { s with world := w }

/-- The task may still call `place_order`. -/
def Underway : Phase → Prop
  | .waiting _ | .looking _ | .looked _ _ | .submitting _ | .submitted _ _ => True
  | .placement _ p => p.BeforeCall
  | _ => False

/-- The task has passed its last comparison and has not called `place_order` yet. -/
def Waits (s : Timed ι P S) (i : ι) : Prop :=
  Underway (s.world.phase i) ∨ (s.world.phase i = .idle ∧ ∃ x, s.gate i = .passed x)

/-- Time does not pass the expiry of a signal while one of its tasks waits. -/
def Timely (s : Timed ι P S) : TimedEvent ι P S → Prop
  | .tick d => ∀ i, Waits s i → s.now + d ≤ expiry (A.signal i)
  | _ => True

/-- No entry order is placed later than its approval allows. -/
def InTime (s : Timed ι P S) : Prop := ∀ c ∈ s.placed, c.2 ≤ expiry c.1

end Definitions

section Tasks
variable [DecidableEq P] {i : ι} {pr : P} {reconciles kill : Bool} {s s' : SignalState ι P}
  {p p' : Phase} {e : TaskEvent}

/-- A task gets underway at its begin only. -/
theorem underway_of_step (h : TaskStep i pr reconciles kill s p e s' p') (hp' : Underway p') :
    Underway p ∨ (p = .idle ∧ e = .begin) := by
  cases h with
  | begin => exact Or.inr ⟨rfl, rfl⟩
  | beginRecovery => cases hp'
  | placement _ hstep => exact Or.inl (hstep.beforeCall hp').1
  | protect | protectFails | raised => cases hp'
  | _ => first | exact Or.inl trivial | cases hp'

theorem underway_of_place (h : TaskStep i pr reconciles kill s p (.placement .place) s' p') :
    Underway p := by
  cases h with
  | placement _ hstep =>
    obtain ⟨rfl, -, -⟩ := hstep.place_of
    trivial

/-- A row is put by a task that is underway. -/
theorem underway_of_reserve (h : TaskStep i pr reconciles kill s p e s' p') (hs : s.row = none)
    (hs' : s'.row ≠ none) : Underway p := by
  cases h with
  | submit | submitUnanswered => trivial
  | placement hr =>
    rw [hs] at hr
    cases hr
  | raised | protectFails =>
    rw [(s.release_sameRecords _).row] at hs'
    exact absurd hs hs'
  | protect =>
    rw [(s.pop_release_sameRecords _ _).row] at hs'
    exact absurd hs hs'
  | _ => exact absurd hs hs'

theorem phase_ne_idle (h : TaskStep i pr reconciles kill s p e s' p') : p' ≠ .idle := by
  cases h <;> exact nofun

end Tasks

section World
variable [DecidableEq ι] [DecidableEq P] [DecidableEq S] {A : Assignment ι P S}
  {u w : World ι P S}

/-- A step of one task moves that task and its signal. -/
structure Moves (A : Assignment ι P S) (i : ι) (e : TaskEvent) (u w : World ι P S) : Prop where
  task : TaskStep i (A.process i) (A.reconciles i) (u.killSwitch (A.process i))
    (u.signals (A.signal i)) (u.phase i) e (w.signals (A.signal i)) (w.phase i)
  phase : ∀ j, j ≠ i → w.phase j = u.phase j
  signals : ∀ σ, σ ≠ A.signal i → w.signals σ = u.signals σ

theorem moves_of_step {i : ι} {e : TaskEvent} (h : World.Step A u (.task i e) w) :
    Moves A i e u w := by
  cases h with
  | task ht =>
    exact ⟨by simpa using ht, fun j hj => setPhase_of_ne hj, fun σ hσ => setSignal_of_ne hσ⟩

/-- Around the tasks, rows are not put and none of the tasks gets on. -/
theorem around_of_step {ev : Event ι P S} (h : World.Step A u ev w) (hev : ∀ i e, ev ≠ .task i e) :
    (∀ i, w.phase i = u.phase i ∨ w.phase i = .finished) ∧
      ∀ σ, (w.signals σ).row ≠ none → (u.signals σ).row ≠ none := by
  have hview (σ : S) : Background (u.signals σ) (w.signals σ) ∧
      ∀ i, A.signal i = σ → w.phase i = u.phase i ∨ w.phase i = .finished := by
    obtain ⟨i, e, _, _, rfl, _⟩ | hb := h.view σ
    · exact absurd rfl (hev i e)
    · exact hb
  refine ⟨fun i => (hview (A.signal i)).2 i rfl, fun σ hrow => ?_⟩
  obtain ⟨hnone, -⟩ | ⟨r, _, hr, -⟩ := (hview σ).1.row
  · exact absurd hnone hrow
  · rw [hr]
    exact Option.some_ne_none r

end World

section Invariant
variable (A : Assignment ι P S) (dt : Datetime) (expiry : S → ℤ)

/-- Every task that waits carries the expiry of its signal, which has not passed, and every row has
that expiry in its metadata. -/
structure Sound (s : Timed ι P S) : Prop where
  passed : ∀ i x, s.gate i = .passed x → x = some (expiry (A.signal i))
  underway : ∀ i, Underway (s.world.phase i) → ∃ x, s.gate i = .passed x
  waits : ∀ i, Waits s i → s.now ≤ expiry (A.signal i)
  stored : ∀ σ, (s.world.signals σ).row ≠ none → s.stored σ = some (dt.isoformat (expiry σ))
  inTime : InTime expiry s

variable {A dt expiry} {s t : Timed ι P S} {ev : TimedEvent ι P S}

theorem start_sound (now : ℤ) : Sound A dt expiry (start A now) where
  passed i x h := by
    change firstGate A i = _ at h
    rw [firstGate] at h
    split at h <;> cases h
  underway _ h := h.elim
  waits i h := by
    obtain h | ⟨-, x, h⟩ := h
    · exact h.elim
    · change firstGate A i = _ at h
      rw [firstGate] at h
      split at h <;> cases h
  stored _ h := absurd rfl h
  inTime := nofun

/-- The expiry that a task compares with is that of its signal, also when it is read back. -/
theorem Sound.expiresAt_eq (h : Sound A dt expiry s) {i : ι}
    (hrow : A.reconciles i = true → (s.world.signals (A.signal i)).row ≠ none) :
    expiresAt A dt expiry s i = some (expiry (A.signal i)) := by
  rw [expiresAt]
  split
  · next hr => rw [h.stored _ (hrow hr), Option.bind_some, dt.fromisoformat_isoformat]
  · rfl

/-- Nothing is placed or reserved, and no task gets on. -/
theorem Sound.quiet (h : Sound A dt expiry s) {t : Timed ι P S} (hnow : t.now = s.now)
    (hplaced : t.placed = s.placed) (hstored : t.stored = s.stored)
    (hphase : ∀ i, t.world.phase i = s.world.phase i ∨ t.world.phase i = .finished)
    (hgate : ∀ i, t.gate i = s.gate i ∨ (t.gate i = firstGate A i ∧ ¬ Underway (t.world.phase i)))
    (hrow : ∀ σ, (t.world.signals σ).row ≠ none → (s.world.signals σ).row ≠ none) :
    Sound A dt expiry t := by
  have hpassed (i : ι) (x : Option ℤ) (hx : t.gate i = .passed x) : s.gate i = .passed x := by
    obtain hg | ⟨hg, -⟩ := hgate i
    · rwa [hg] at hx
    · rw [hg, firstGate] at hx
      split at hx <;> cases hx
  have hwas (i : ι) (hi : Underway (t.world.phase i)) : Underway (s.world.phase i) := by
    obtain hp | hp := hphase i <;> rw [hp] at hi
    · exact hi
    · exact hi.elim
  refine ⟨fun i x hx => h.passed i x (hpassed i x hx), fun i hi => ?_, fun i hi => ?_,
    fun σ hσ => ?_, ?_⟩
  · obtain hg | ⟨-, hn⟩ := hgate i
    · rw [hg]
      exact h.underway i (hwas i hi)
    · exact absurd hi hn
  · rw [hnow]
    apply h.waits i
    obtain hi | ⟨hidle, x, hx⟩ := hi
    · exact Or.inl (hwas i hi)
    · refine Or.inr ⟨?_, x, hpassed i x hx⟩
      obtain hp | hp := hphase i <;> rw [hp] at hidle
      · exact hidle
      · cases hidle
  · rw [hstored]
    exact h.stored σ (hrow σ hσ)
  · rw [InTime, hplaced]
    exact h.inTime

section Steps
variable [DecidableEq P]

/-- The phases after a step of task `i`, at the same time and with the same gates. -/
theorem Sound.moved [DecidableEq ι] (h : Sound A dt expiry s) {i : ι} {e : TaskEvent}
    {w : World ι P S} (hm : Moves A i e s.world w)
    (hbegin : e = .begin → (∃ x, s.gate i = .passed x) ∨ w.phase i = .placement none .scanning) :
    (∀ j, Underway (w.phase j) → ∃ x, s.gate j = .passed x) ∧
      ∀ j, Waits { s with world := w } j → s.now ≤ expiry (A.signal j) := by
  have hwas (j : ι) (hj : Underway (w.phase j)) : Waits s j ∧ ∃ x, s.gate j = .passed x := by
    by_cases hji : j = i
    · subst hji
      obtain hu | ⟨hidle, he⟩ := underway_of_step hm.task hj
      · exact ⟨Or.inl hu, h.underway j hu⟩
      · obtain hpassed | hscan := hbegin he
        · exact ⟨Or.inr ⟨hidle, hpassed⟩, hpassed⟩
        · rw [hscan] at hj
          exact hj.elim
    · rw [hm.phase j hji] at hj
      exact ⟨Or.inl hj, h.underway j hj⟩
  refine ⟨fun j hj => (hwas j hj).2, fun j hj => ?_⟩
  obtain hj | ⟨hidle, hpassed⟩ := hj
  · exact h.waits j (hwas j hj).1
  · by_cases hji : j = i
    · subst hji
      exact absurd hidle (phase_ne_idle hm.task)
    · refine h.waits j (Or.inr ⟨?_, hpassed⟩)
      rw [← hm.phase j hji]
      exact hidle

/-- A row that the step puts has the expiry of its signal. -/
theorem Sound.storedAfter_eq [DecidableEq S] (h : Sound A dt expiry s) {i : ι} {e : TaskEvent}
    {w : World ι P S} (hm : Moves A i e s.world w) (σ : S) (hrow : (w.signals σ).row ≠ none) :
    storedAfter A dt s i w σ = some (dt.isoformat (expiry σ)) := by
  rw [storedAfter]
  by_cases hput : (s.world.signals (A.signal i)).row.isNone ∧ (w.signals (A.signal i)).row.isSome
  · rw [if_pos hput]
    by_cases hσ : σ = A.signal i
    · subst hσ
      have hu := underway_of_reserve hm.task (Option.isNone_iff_eq_none.mp hput.1) hrow
      obtain ⟨x, hx⟩ := h.underway i hu
      rw [Function.update_self, hx, Gate.expiresAt, h.passed i x hx, Option.map_some]
    · rw [Function.update_of_ne hσ]
      rw [hm.signals σ hσ] at hrow
      exact h.stored σ hrow
  · rw [if_neg hput]
    refine h.stored σ fun hnone => hput ?_
    by_cases hσ : σ = A.signal i
    · subst hσ
      exact ⟨Option.isNone_iff_eq_none.mpr hnone, Option.isSome_iff_ne_none.mpr hrow⟩
    · rw [hm.signals σ hσ] at hrow
      exact absurd hnone hrow

theorem Sound.placedAfter_inTime (h : Sound A dt expiry s) {i : ι} {e : TaskEvent}
    {w : World ι P S} (hm : Moves A i e s.world w) :
    ∀ c ∈ placedAfter A s i e, c.2 ≤ expiry c.1 := by
  rw [placedAfter]
  split
  · next he =>
    subst he
    rw [List.forall_mem_cons]
    exact ⟨h.waits i (Or.inl (underway_of_place hm.task)), h.inTime⟩
  · exact h.inTime

end Steps

variable [DecidableEq ι]

theorem Sound.pass (h : Sound A dt expiry s) {i : ι} (hidle : s.world.phase i = .idle)
    (hgate : ∀ x, s.gate i ≠ .passed x) (hlate : ¬ Late (some (expiry (A.signal i))) s.now) :
    Sound A dt expiry { s with
      gate := Function.update s.gate i ((s.gate i).next (some (expiry (A.signal i)))) } := by
  have hother (j : ι) (hji : j ≠ i) : Function.update s.gate i
      ((s.gate i).next (some (expiry (A.signal i)))) j = s.gate j := Function.update_of_ne hji _ _
  constructor
  · intro j x hx
    by_cases hji : j = i
    · subst hji
      change Function.update s.gate j _ j = .passed x at hx
      rw [Function.update_self] at hx
      cases hg : s.gate j with
      | passed x => exact absurd hg (hgate x)
      | execute =>
        rw [hg] at hx
        cases hx
        rfl
      | loop | handler =>
        rw [hg] at hx
        cases hx
    · exact h.passed j x ((hother j hji).symm.trans hx)
  · intro j hj
    have hji : j ≠ i := by
      rintro rfl
      change Underway (s.world.phase j) at hj
      rw [hidle] at hj
      exact hj.elim
    obtain ⟨x, hx⟩ := h.underway j hj
    exact ⟨x, (hother j hji).trans hx⟩
  · intro j hj
    by_cases hji : j = i
    · subst hji
      exact not_lt.mp fun hlt => hlate ⟨_, rfl, hlt⟩
    · refine h.waits j (hj.imp_right fun hj => ⟨hj.1, ?_⟩)
      obtain ⟨x, hx⟩ := hj.2
      exact ⟨x, (hother j hji).symm.trans hx⟩
  · exact h.stored
  · exact h.inTime

variable [DecidableEq P] [DecidableEq S]

theorem step_sound (h : Sound A dt expiry s) (hok : Timely A expiry s ev)
    (hs : Step A dt expiry s ev t) : Sound A dt expiry t := by
  cases hs with
  | tick => exact ⟨h.passed, h.underway, hok, h.stored, h.inTime⟩
  | pass hidle hgate hlate hrow =>
    rw [h.expiresAt_eq hrow] at hlate ⊢
    exact h.pass hidle hgate hlate
  | @late i =>
    refine h.quiet rfl rfl rfl (fun j => ?_) (fun _ => Or.inl rfl) fun _ => id
    by_cases hji : j = i
    · rw [hji]
      exact Or.inr (setPhase_self _ _ _)
    · exact Or.inl (setPhase_of_ne hji)
  | task hbegin hstep =>
    have hm := moves_of_step hstep
    obtain ⟨hunderway, hwaits⟩ := h.moved hm hbegin
    exact ⟨h.passed, hunderway, hwaits, h.storedAfter_eq hm, h.placedAfter_inTime hm⟩
  | @crash pr w hstep =>
    obtain ⟨hphase, hrow⟩ := around_of_step hstep nofun
    refine h.quiet rfl rfl rfl hphase (fun i => ?_) hrow
    by_cases hi : A.process i = pr
    · refine Or.inr ⟨if_pos hi, ?_⟩
      cases hstep
      simp only [if_pos hi]
      cases s.world.phase i <;> exact id
    · exact Or.inl (if_neg hi)
  | around htask _ hstep =>
    obtain ⟨hphase, hrow⟩ := around_of_step hstep htask
    exact h.quiet rfl rfl rfl hphase (fun _ => Or.inl rfl) hrow

/-- When no wait of a task outlasts the approval, no entry order begins after its expiry: over
every run of deliveries, redeliveries, crashes and reconciliations. -/
theorem placed_in_time {now : ℤ}
    (hr : Reaches (Step A dt expiry) (Timely A expiry) (start A now) s) :
    InTime expiry s :=
  (hr.invariant (fun _ _ _ hs hok hstep => step_sound hs hok hstep) (start_sound now)).inTime

end Invariant

section Runs
variable [DecidableEq ι] [DecidableEq P] [DecidableEq S] {A : Assignment ι P S} {dt : Datetime}
  {expiry : S → ℤ} {ok : Timed ι P S → TimedEvent ι P S → Prop} {s₀ s : Timed ι P S} {i : ι}
  {kill : Bool}

/-- Steps of one task past its comparisons, while no time passes. -/
theorem reaches_of_solo {allowed : SignalState ι P → TaskEvent → Prop} {x : Option ℤ}
    {a b : SignalState ι P × Phase} (h : Solo A i kill allowed a b)
    (hok : ∀ s ev, ok s (.world ev)) (hr : Reaches (Step A dt expiry) ok s₀ s)
    (hs : s.world.signals (A.signal i) = a.1) (hp : s.world.phase i = a.2)
    (hk : s.world.killSwitch (A.process i) = kill) (hgate : s.gate i = .passed x) :
    ∃ t, Reaches (Step A dt expiry) ok s₀ t ∧ t.world.signals (A.signal i) = b.1 ∧
      t.world.phase i = b.2 ∧ t.world.killSwitch (A.process i) = kill ∧ t.gate i = .passed x ∧
      t.now = s.now := by
  induction h with
  | refl => exact ⟨s, hr, hs, hp, hk, hgate, rfl⟩
  | tail _ hstep ih =>
    obtain ⟨t, ht, hts, htp, htk, htg, hnow⟩ := ih
    obtain ⟨e, -, htask⟩ := hstep
    obtain ⟨w, hw, hws, hwp, -, hwk⟩ := task_step htask hts htp htk
    exact ⟨_, ht.next (hok t _) (.task (fun _ => Or.inl ⟨x, htg⟩) hw), hws, hwp,
      (congrFun hwk _).trans htk, htg, hnow⟩

/-- The three comparisons of a delivery, all at one time. -/
theorem passed_reaches (hi : A.reconciles i = false) (hcompare : ∀ s, ok s (.compare i)) {now : ℤ}
    (hnow : now ≤ expiry (A.signal i)) :
    ∃ t, Reaches (Step A dt expiry) ok (start A now) t ∧ t.world = .start ∧ t.now = now ∧
      t.gate i = .passed (some (expiry (A.signal i))) := by
  have hstep (s : Timed ι P S) (hs : s.world = .start) (hsnow : s.now = now)
      (hgate : ∀ x, s.gate i ≠ .passed x) : Step A dt expiry s (.compare i)
        { s with
          gate := Function.update s.gate i ((s.gate i).next (some (expiry (A.signal i)))) } := by
    have harg : expiresAt A dt expiry s i = some (expiry (A.signal i)) := by
      rw [expiresAt, hi]
      rfl
    rw [← harg]
    refine .pass (by rw [hs]; rfl) hgate ?_ fun hr => absurd hr (by rw [hi]; exact nofun)
    rw [harg, hsnow]
    rintro ⟨t, ht, hlt⟩
    cases ht
    exact absurd hlt (not_lt.mpr hnow)
  have hloop : (start A now : Timed ι P S).gate i = .loop := by
    change firstGate A i = .loop
    rw [firstGate, hi]
    rfl
  have h1 : Reaches (Step A dt expiry) ok (start A now) _ :=
    Reaches.next .refl (hcompare _) (hstep (start A now) rfl rfl (by simp [hloop]))
  have h2 := h1.next (hcompare _) (hstep _ rfl rfl (by simp [hloop, Gate.next]))
  have h3 := h2.next (hcompare _) (hstep _ rfl rfl (by simp [hloop, Gate.next]))
  exact ⟨_, h3, rfl, rfl, by simp [hloop, Gate.next]⟩

/-- A first delivery, up to its turn at the rate limiter. -/
theorem limiting_reaches (hi : A.reconciles i = false) (hok : ∀ s ev, ok s (.world ev))
    (hcompare : ∀ s, ok s (.compare i)) {now : ℤ} (hnow : now ≤ expiry (A.signal i)) :
    ∃ t, Reaches (Step A dt expiry) ok (start A now) t ∧
      t.world.signals (A.signal i) = reservedBy (A.process i) i ∧
      t.world.phase i = .placement (some 0) .limiting ∧
      t.world.killSwitch (A.process i) = false ∧ t.now = now := by
  obtain ⟨s, hs, hworld, hsnow, hgate⟩ := passed_reaches hi hcompare hnow
  have hsolo : Solo A i false (fun _ _ => True) _ _ := Solo.first_placement fun _ _ _ _ => trivial
  obtain ⟨t, ht, hts, htp, htk, -, htnow⟩ := reaches_of_solo hsolo hok hs
    (by rw [hworld]; rfl) (by rw [hworld]; rfl) (by rw [hworld]; rfl) hgate
  exact ⟨t, ht, hts, htp, htk, htnow.trans hsnow⟩

/-- `place_order` begins at the time at which the task gets its turn. -/
theorem place_reaches (hok : ∀ s ev, ok s (.world ev)) (hr : Reaches (Step A dt expiry) ok s₀ s)
    (hs : s.world.signals (A.signal i) = reservedBy (A.process i) i)
    (hp : s.world.phase i = .placement (some 0) .limiting)
    (hk : s.world.killSwitch (A.process i) = false) :
    ∃ t, Reaches (Step A dt expiry) ok s₀ t ∧ (A.signal i, s.now) ∈ t.placed := by
  obtain ⟨w, hw, -⟩ := task_step (.placement rfl .place) hs hp hk
  refine ⟨_, hr.next (hok s _) (.task (e := .placement .place) nofun hw), ?_⟩
  change _ ∈ placedAfter A s i (.placement .place)
  rw [placedAfter, if_pos rfl]
  exact List.mem_cons_self

end Runs

section OneDelivery

/-- A time as its number of microseconds, in digits -/
def digits : Datetime where
  isoformat t := String.ofList (PythonInt.str t)
  fromisoformat text := PythonInt.parse text.toList
  fromisoformat_isoformat t := by rw [String.toList_ofList, PythonInt.parse_str]

def oneDelivery : Assignment Unit Unit Unit := ⟨id, id, fun _ => false⟩

theorem placed_in_time_at_expiry : ∃ s : Timed Unit Unit Unit, ((), 10) ∈ s.placed ∧
    InTime (fun _ => 10) s := by
  have hok (s : Timed Unit Unit Unit) (ev : Event Unit Unit Unit) :
      Timely oneDelivery (fun _ => 10) s (.world ev) := trivial
  obtain ⟨s, hs, hsig, hphase, hkill, hnow⟩ := @limiting_reaches _ _ _ _ _ _ oneDelivery digits
    (fun _ => 10) _ () rfl hok (fun _ => trivial) 10 (le_refl 10)
  obtain ⟨t, ht, hplaced⟩ := place_reaches hok hs hsig hphase hkill
  rw [hnow] at hplaced
  exact ⟨t, hplaced, placed_in_time ht⟩

/-- The approval is good for ten microseconds when it is compared, and the turn at the rate limiter
comes after eleven. -/
theorem expired_while_waiting : ¬ ∀ s : Timed Unit Unit Unit,
    Reaches (Step oneDelivery digits fun _ => 10) (fun _ _ => True) (start oneDelivery 0) s →
      InTime (fun _ => 10) s := by
  intro h
  obtain ⟨s, hs, hsig, hphase, hkill, hnow⟩ := @limiting_reaches _ _ _ _ _ _ oneDelivery digits
    (fun _ => 10) (fun _ _ => True) () rfl (fun _ _ => trivial) (fun _ => trivial) 0 (by decide)
  obtain ⟨t, ht, hplaced⟩ := place_reaches (fun _ _ => trivial)
    (hs.next trivial (.tick (d := 11))) hsig hphase hkill
  have hlate := h t ht _ hplaced
  rw [hnow] at hlate
  exact absurd hlate (show ¬ (0 : ℤ) + (11 : ℕ) ≤ 10 by decide)

end OneDelivery

end QuantEmbrace.Expiry
