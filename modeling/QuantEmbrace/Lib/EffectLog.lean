import Mathlib.Tactic.TypeStar

/-! Programs that may raise and leave a log of what they have done, newest first, whether they
raise or not; with the rules of their weakest preconditions. -/
namespace EffectLog
variable {ε α β : Type}

abbrev Logged (ε α : Type) : Type := ExceptT Unit (StateM (List ε)) α

def emit (e : ε) : Logged ε Unit := modify (e :: ·)

/-- The log left by a program that starts with an empty one. -/
def log (m : Logged ε α) : List ε := (m.run.run []).2

/-- Started with the log, the program ends in a result and a log with `Q`. -/
def wp (m : Logged ε α) (Q : Except Unit α → List ε → Prop) (l : List ε) : Prop :=
  Q (m.run.run l).1 (m.run.run l).2

variable {m : Logged ε α} {l : List ε}

theorem wp_log (Q : List ε → Prop) : wp m (fun _ => Q) [] ↔ Q (log m) := Iff.rfl

@[simp] theorem wp_pure (a : α) (Q : Except Unit α → List ε → Prop) :
    wp (pure a) Q l ↔ Q (.ok a) l := Iff.rfl

@[simp] theorem wp_throw (Q : Except Unit α → List ε → Prop) :
    wp (throw ()) Q l ↔ Q (.error ()) l := Iff.rfl

@[simp] theorem wp_emit (e : ε) (Q : Except Unit Unit → List ε → Prop) :
    wp (emit e) Q l ↔ Q (.ok ()) (e :: l) := Iff.rfl

/-- What a program owes to the one that follows it. -/
def Then (f : α → Logged ε β) (Q : Except Unit β → List ε → Prop) :
    Except Unit α → List ε → Prop
  | .ok a, l => wp (f a) Q l
  | .error e, l => Q (.error e) l

/-- What a program owes to its handler. -/
def Caught (f : Unit → Logged ε α) (Q : Except Unit α → List ε → Prop) :
    Except Unit α → List ε → Prop
  | .ok a, l => Q (.ok a) l
  | .error e, l => wp (f e) Q l

@[simp] theorem wp_bind (f : α → Logged ε β) (Q : Except Unit β → List ε → Prop) :
    wp (m >>= f) Q l ↔ wp m (Then f Q) l := by
  simp only [wp, ExceptT.run_bind, StateT.run_bind]
  generalize (m.run.run l : Id _) = p
  obtain ⟨r, l'⟩ := p
  cases r <;> rfl

@[simp] theorem wp_tryCatch (f : Unit → Logged ε α) (Q : Except Unit α → List ε → Prop) :
    wp (tryCatch m f) Q l ↔ wp m (Caught f Q) l := by
  simp only [wp, ExceptT.run_tryCatch, StateT.run_bind]
  generalize (m.run.run l : Id _) = p
  obtain ⟨r, l'⟩ := p
  cases r <;> rfl

@[simp] theorem then_ok (f : α → Logged ε β) (Q : Except Unit β → List ε → Prop) (a : α) :
    Then f Q (.ok a) l ↔ wp (f a) Q l := Iff.rfl

@[simp] theorem then_error (f : α → Logged ε β) (Q : Except Unit β → List ε → Prop) :
    Then f Q (.error ()) l ↔ Q (.error ()) l := Iff.rfl

@[simp] theorem caught_ok (f : Unit → Logged ε α) (Q : Except Unit α → List ε → Prop) (a : α) :
    Caught f Q (.ok a) l ↔ Q (.ok a) l := Iff.rfl

@[simp] theorem caught_error (f : Unit → Logged ε α) (Q : Except Unit α → List ε → Prop) :
    Caught f Q (.error ()) l ↔ wp (f ()) Q l := Iff.rfl

end EffectLog
