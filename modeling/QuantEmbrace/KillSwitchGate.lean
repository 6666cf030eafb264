import QuantEmbrace.SignalDelivery

/-! Entry orders and the execution kill switch: the flag is tested before the broker
lookup and the rate limiter, and not again before `place_order`. -/
namespace QuantEmbrace
open GuardedRun
variable {ι P S : Type*}

/-- The task has tested the flag for the last time and may still call the broker. -/
def Phase.PastTest : Phase → Prop
  | .placement _ p => p.BeforeCall
  | _ => False

section TaskStep
variable [DecidableEq P] {i : ι} {pr : P} {reconciles kill : Bool} {s s' : SignalState ι P}
  {p p' : Phase} {e : TaskEvent}

theorem TaskStep.pastTest (h : TaskStep i pr reconciles kill s p e s' p') (hp' : p'.PastTest) :
    p.PastTest ∨ kill = false := by
  cases h with
  | pending _ hk | reserved hk => exact Or.inr hk
  | placement _ hstep => exact Or.inl (hstep.beforeCall hp').1
  | _ => cases hp'

theorem TaskStep.place_pastTest
    (h : TaskStep i pr reconciles kill s p (.placement .place) s' p') : p.PastTest := by
  cases h with
  | placement _ hstep =>
    obtain ⟨rfl, _, _⟩ := hstep.place_of
    trivial

end TaskStep

namespace World
variable [DecidableEq ι] [DecidableEq P] [DecidableEq S] {A : Assignment ι P S}
  {w w' : World ι P S} {ev : Event ι P S}

/-- The switch goes on only while no entry task of the process is between its last
test of the flag and its `place_order` call. -/
def QuietActivation (A : Assignment ι P S) (w : World ι P S) (ev : Event ι P S) : Prop :=
  ∀ pr, ev = .activate pr → ∀ i, A.process i = pr → ¬ (w.phase i).PastTest

/-- Where the switch is on, no task can reach the call. -/
def Halted (A : Assignment ι P S) (w : World ι P S) : Prop :=
  ∀ i, w.killSwitch (A.process i) = true → ¬ (w.phase i).PastTest

theorem step_halted (hw : Halted A w) (hok : QuietActivation A w ev) (h : Step A w ev w') :
    Halted A w' := by
  intro j hkill hpast
  cases h with
  | @task i e s p ht =>
    have hk : w.killSwitch (A.process j) = true := hkill
    by_cases hji : j = i
    · subst hji
      have hp : p.PastTest := by simpa using hpast
      obtain hold | hoff := ht.pastTest hp
      · exact hw j hk hold
      · rw [hk] at hoff
        cases hoff
    · rw [setPhase_of_ne hji] at hpast
      exact hw j hk hpast
  | accept | otherWriter => exact hw j hkill hpast
  | @activate pr =>
    by_cases hpr : A.process j = pr
    · exact hok pr rfl j hpr hpast
    · have hk : w.killSwitch (A.process j) = true := by
        simpa [setKillSwitch, Function.update_of_ne hpr] using hkill
      exact hw j hk hpast
  | @clear pr =>
    by_cases hpr : A.process j = pr
    · simp [setKillSwitch, hpr] at hkill
    · have hk : w.killSwitch (A.process j) = true := by
        simpa [setKillSwitch, Function.update_of_ne hpr] using hkill
      exact hw j hk hpast
  | @crash pr =>
    by_cases hpr : A.process j = pr
    · simp [hpr] at hkill
    · have hk : w.killSwitch (A.process j) = true := by
        simpa [Function.update_of_ne hpr] using hkill
      simp only [if_neg hpr] at hpast
      exact hw j hk hpast

/-- When the switch is only turned on in quiet moments, no entry `place_order` call
begins while it is on. -/
theorem no_entry_after_activation
    (hr : Reaches (Step A) (QuietActivation A) (start : World ι P S) w) {i : ι}
    (h : Step A w (.task i (.placement .place)) w') : w.killSwitch (A.process i) = false := by
  have hw : Halted A w := Reaches.invariant (I := Halted A)
    (fun _ _ _ hs ho hst => step_halted hs ho hst) hr (fun _ hk => nomatch hk)
  cases h with
  | task ht =>
    have hpast := ht.place_pastTest
    by_contra hk
    exact hw i (by simpa using hk) hpast

/-- One delivery in one process. -/
def oneDelivery : Assignment Unit Unit Unit := ⟨fun _ => (), fun _ => (), fun _ => false⟩

theorem no_entry_after_activation_first :
    ∃ w w' : World Unit Unit Unit, Step oneDelivery w (.task () (.placement .place)) w' ∧
      (w'.signals ()).calls = [()] ∧ w.killSwitch () = false := by
  obtain ⟨w, hw, hs, hp, _, hk⟩ := first_placement_reaches oneDelivery ()
    (QuietActivation oneDelivery) (fun _ _ _ _ _ h => nomatch h)
  obtain ⟨w', hplace, hs', _⟩ := task_step (.placement rfl .place) hs hp (hk ())
  exact ⟨w, w', hplace, congrArg SignalState.calls hs', no_entry_after_activation hw hplace⟩

/-- The switch goes on while the delivery waits for the rate limiter; the order is
placed all the same. -/
theorem entry_placed_after_activation :
    ¬ ∀ (w w' : World Unit Unit Unit) (i : Unit),
      Reaches (Step oneDelivery) (fun _ _ => True) start w →
      Step oneDelivery w (.task i (.placement .place)) w' →
      w.killSwitch (oneDelivery.process i) = false := by
  intro hall
  obtain ⟨w, hw, hs, hp, _, _⟩ := first_placement_reaches oneDelivery ()
    (fun _ _ => True) (fun _ _ _ _ => trivial)
  have hon : Reaches (Step oneDelivery) (fun _ _ => True) start (w.setKillSwitch () true) :=
    hw.next trivial .activate
  have htrue : (w.setKillSwitch () true).killSwitch () = true := by simp [setKillSwitch]
  obtain ⟨w', hplace, _⟩ := task_step (w := w.setKillSwitch () true) (.placement rfl .place)
    hs hp htrue
  have hoff := hall _ w' () hon hplace
  rw [show oneDelivery.process () = () from rfl, htrue] at hoff
  cases hoff

end World
end QuantEmbrace
