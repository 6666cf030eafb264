import QuantEmbrace.Lib.GuardedRun
import Mathlib.Logic.Function.Basic

/-! The kill switch of one risk engine: activations and deactivations under the lock, and
`load_state`, which takes none. A step runs to the next suspension. -/
namespace QuantEmbrace
open GuardedRun
variable {κ : Type*}

inductive SwitchCall where
  | activate
  | deactivate
  deriving DecidableEq, Repr

/-- The response of `get_item`: the request failed, or the `active` of the item, if any. -/
inductive LoadResponse where
  | failed
  | answered (item : Option Bool)
  deriving DecidableEq, Repr

/-- Where one call stands. `entered` holds the lock and is about to persist. -/
inductive SwitchPhase where
  | idle
  | entered (c : SwitchCall)
  | persisting (c : SwitchCall) (active : Bool)
  | persisted (c : SwitchCall)
  | loading
  | loaded (response : LoadResponse)
  | returned
  deriving DecidableEq, Repr

/-- `versions` are the contents the stored row has had. `latched` is history: an activation has
returned, and no deactivation has begun its work since. -/
structure SwitchWorld (κ : Type*) where
  active : Bool := false
  row : Option Bool
  versions : List (Option Bool)
  lock : Option κ := none
  phase : κ → SwitchPhase := fun _ => .idle
  latched : Bool := false

inductive SwitchEvent (κ : Type*) where
  | enter (i : κ) (c : SwitchCall)
  | beginPersist (i : κ)
  | put (i : κ) (applied : Bool)
  | finish (i : κ)
  | loadState (i : κ)
  | answer (i : κ) (response : LoadResponse)
  | resume (i : κ)
  deriving DecidableEq, Repr

namespace SwitchWorld

/-- The switch as constructed, over a row left by earlier processes. -/
def start (row : Option Bool) : SwitchWorld κ where
  row := row
  versions := [row]

variable [DecidableEq κ] (w : SwitchWorld κ) (i : κ)

def setPhase (p : SwitchPhase) : SwitchWorld κ :=
  { w with phase := Function.update w.phase i p }

/-- The body of `activate` and `deactivate` up to the gather, once the lock is held. A call that
has nothing to change returns. -/
def enter : SwitchCall → SwitchWorld κ
  | .activate =>
    if w.active then { w with latched := true }.setPhase i .returned
    else { w with active := true, lock := some i }.setPhase i (.entered .activate)
  | .deactivate =>
    if w.active then
      { w with active := false, lock := some i, latched := false }.setPhase i (.entered .deactivate)
    else { w with latched := false }.setPhase i .returned

/-- The rest of `load_state`, with the response at hand. -/
def applyLoad : LoadResponse → SwitchWorld κ
  | .failed => w
  | .answered none => w
  | .answered (some active) => { w with active := active }

/-- A read may return any version the row has had. -/
def MayAnswer (w : SwitchWorld κ) : LoadResponse → Prop
  | .failed => True
  | .answered item => item ∈ w.versions

instance (w : SwitchWorld κ) : DecidablePred w.MayAnswer
  | .failed => .isTrue trivial
  | .answered item => inferInstanceAs (Decidable (item ∈ w.versions))

def next (w : SwitchWorld κ) : SwitchEvent κ → SwitchWorld κ
  | .enter i c => if w.phase i = .idle ∧ w.lock = none then w.enter i c else w
  | .beginPersist i =>
    match w.phase i with
    -- the item is built when the task starts, from the flag as it is then
    | .entered c => w.setPhase i (.persisting c w.active)
    | _ => w
  | .put i applied =>
    match w.phase i with
    | .persisting c active =>
      if applied then
        { w with row := some active, versions := some active :: w.versions }.setPhase i
          (.persisted c)
      else w.setPhase i (.persisted c)
    | _ => w
  | .finish i =>
    match w.phase i with
    | .persisted .activate => { w with lock := none, latched := true }.setPhase i .returned
    | .persisted .deactivate => { w with lock := none }.setPhase i .returned
    | _ => w
  | .loadState i => if w.phase i = .idle then w.setPhase i .loading else w
  | .answer i response =>
    if w.phase i = .loading ∧ w.MayAnswer response then w.setPhase i (.loaded response) else w
  | .resume i =>
    match w.phase i with
    | .loaded response => (w.applyLoad response).setPhase i .returned
    | _ => w

/-- After an activation has returned and until a deactivation, the switch is active. -/
def Holds (w : SwitchWorld κ) : Prop := w.latched = true → w.active = true

instance : Decidable w.Holds := inferInstanceAs (Decidable (_ → _))

/-- No load that completes brings an inactive item while the latch is in force; and no load has
cleared the flag that a returning activation has set. -/
def KeepsHalt (w : SwitchWorld κ) : SwitchEvent κ → Prop
  | .resume i => w.phase i = .loaded (.answered (some false)) → w.latched = false
  | .finish i => w.phase i = .persisted .activate → w.active = true
  | _ => True

instance (w : SwitchWorld κ) : DecidablePred w.KeepsHalt
  | .resume _ | .finish _ => inferInstanceAs (Decidable (_ → _))
  | .enter _ _ | .beginPersist _ | .put _ _ | .loadState _ | .answer _ _ => .isTrue trivial

variable {w}

theorem enter_holds (c : SwitchCall) : (w.enter i c).Holds := by
  unfold SwitchWorld.enter
  cases c with
  | activate =>
    dsimp only
    split
    · next ha => exact fun _ => ha
    · exact fun _ => rfl
  | deactivate =>
    dsimp only
    split
    · nofun
    · nofun

omit [DecidableEq κ] in
theorem applyLoad_holds_iff (h : w.Holds) (response : LoadResponse) :
    (w.applyLoad response).Holds ↔ (response = .answered (some false) → w.latched = false) := by
  cases response with
  | failed => simp [applyLoad, h]
  | answered item =>
    cases item with
    | none => simp [applyLoad, h]
    | some active => cases active <;> simp [applyLoad, Holds]

theorem next_holds_iff (h : w.Holds) (e : SwitchEvent κ) : (w.next e).Holds ↔ w.KeepsHalt e := by
  cases e with
  | enter i c =>
    refine iff_of_true ?_ trivial
    simp only [next]
    split
    · exact enter_holds i c
    · exact h
  | beginPersist i =>
    refine iff_of_true ?_ trivial
    simp only [next]
    split <;> exact h
  | put i applied =>
    refine iff_of_true ?_ trivial
    simp only [next]
    split
    · split <;> exact h
    · exact h
  | finish i =>
    simp only [next, KeepsHalt]
    split
    · next hp => simp [hp, Holds, setPhase]
    · next hp => exact iff_of_true h (by simp [hp])
    · next hp _ => exact iff_of_true h fun hp' => absurd hp' hp
  | loadState i =>
    refine iff_of_true ?_ trivial
    simp only [next]
    split <;> exact h
  | answer i response =>
    refine iff_of_true ?_ trivial
    simp only [next]
    split <;> exact h
  | resume i =>
    simp only [next, KeepsHalt]
    split
    · next response hp =>
      rw [hp, SwitchPhase.loaded.injEq]
      exact applyLoad_holds_iff h response
    · next hp => exact iff_of_true h fun hp' => absurd hp' (hp _)

omit [DecidableEq κ] in
theorem start_holds (row : Option Bool) : (start row : SwitchWorld κ).Holds := nofun

/-- The latch holds in every state of a run exactly when no load of the run defeats it. -/
theorem latch_holds_iff (row : Option Bool) (es : List (SwitchEvent κ)) :
    AlongRun next Holds (start row) es ↔ StepsMeet next KeepsHalt (start row) es :=
  alongRun_iff (I := fun _ => True) (D := fun _ => True) (fun _ _ _ h => h)
    (fun _ e _ _ h => next_holds_iff h e) es (fun _ _ => trivial) _ trivial (start_holds row)

/-- The write of an activation fails and the next poll reads the old row; and the write goes
through, but a read issued before it completes after. -/
theorem latch_lost :
    (¬ ∀ es : List (SwitchEvent (Fin 2)), AlongRun next Holds (start (some false)) es) ∧
    ¬ AlongRun next Holds (start (some false) : SwitchWorld (Fin 2))
      [.enter 0 .activate, .beginPersist 0, .put 0 false, .finish 0, .loadState 1,
        .answer 1 (.answered (some false)), .resume 1] ∧
    ¬ AlongRun next Holds (start (some false) : SwitchWorld (Fin 2))
      [.loadState 1, .answer 1 (.answered (some false)), .enter 0 .activate, .beginPersist 0,
        .put 0 true, .finish 0, .resume 1] := by
  have hfails : ¬ AlongRun next Holds (start (some false) : SwitchWorld (Fin 2))
      [.enter 0 .activate, .beginPersist 0, .put 0 false, .finish 0, .loadState 1,
        .answer 1 (.answered (some false)), .resume 1] :=
    fun h => absurd h.last (by decide)
  exact ⟨fun h => hfails (h _), hfails, fun h => absurd h.last (by decide)⟩

end SwitchWorld
end QuantEmbrace
