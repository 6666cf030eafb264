import QuantEmbrace.Lib.GuardedRun
import QuantEmbrace.Lib.OffsetLog

/-! A process that takes the messages of a log one at a time. The message acts on the state when
it is taken; its offset is committed when the rest of the handling is done, unless that fails.
Messages that cannot be taken are routed elsewhere. A restart loses the state and what was not
committed. -/
namespace TopicListener
open GuardedRun OffsetLog
variable {μ σ ε : Type*}

/-- What the listener is about: the log, the messages it takes and what they do, what else
changes the state, and the state of a new process. -/
structure Listening (μ σ ε : Type*) where
  log : ℕ → μ
  takes : μ → Bool
  act : μ → σ → σ
  other : ε → σ → σ
  boot : σ

/-- `applied` and `routed` are history: the offsets taken, and those routed elsewhere. -/
structure World (base : ℕ) (σ : Type*) where
  offsets : Offsets base
  handling : Bool
  state : σ
  applied : List ℕ
  routed : List ℕ

inductive Event (ε : Type*) where
  | receive (routed committed : Bool)
  | done (committed : Bool)
  | other (e : ε)
  | restart
  deriving DecidableEq, Repr

variable {base : ℕ} (l : Listening μ σ ε) (w : World base σ)

def start (base : ℕ) (l : Listening μ σ ε) : World base σ where
  offsets := .init base
  handling := false
  state := l.boot
  applied := []
  routed := []

namespace World

/-- The message at the position is left behind, or committed. -/
def pass (committed : Bool) : World base σ :=
  { w with
    offsets := if committed then w.offsets.commit else w.offsets.skip
    handling := false }

def next (w : World base σ) : Event ε → World base σ
  | .receive routed committed =>
    if w.handling then w
    else if l.takes (l.log w.offsets.position) then
      { w with
        handling := true
        state := l.act (l.log w.offsets.position) w.state
        applied := w.applied ++ [w.offsets.position] }
    else
      { w.pass (routed && committed) with
        routed := if routed then w.routed ++ [w.offsets.position] else w.routed }
  | .done committed => if w.handling then w.pass committed else w
  | .other e => { w with state := l.other e w.state }
  | .restart => { w with offsets := w.offsets.reset, handling := false, state := l.boot }

/-- Every message before the position that can be taken has acted, and so has the one that is
being handled. -/
structure Acted (l : Listening μ σ ε) (w : World base σ) : Prop where
  passed : ∀ m, base ≤ m → m < w.offsets.position → l.takes (l.log m) → m ∈ w.applied
  current : w.handling = true → w.offsets.position ∈ w.applied

variable {l w}

theorem position_pass (committed : Bool) :
    (w.pass committed).offsets.position = w.offsets.position + 1 := by
  rw [pass]
  cases committed <;> rfl

/-- Passing over a message that acted, or that cannot be taken. -/
theorem Acted.pass (h : Acted l w) (committed : Bool)
    (hself : l.takes (l.log w.offsets.position) → w.offsets.position ∈ w.applied) :
    Acted l (w.pass committed) := by
  constructor
  · intro m hbase hm htakes
    rw [position_pass] at hm
    obtain hlt | rfl := Nat.lt_succ_iff_lt_or_eq.mp hm
    · exact h.passed m hbase hlt htakes
    · exact hself htakes
  · nofun

theorem next_acted (h : Acted l w) (e : Event ε) : Acted l (w.next l e) := by
  cases e with
  | receive routed committed =>
    rw [next]
    split
    · exact h
    · split
      · constructor
        · intro m hbase hm htakes
          exact List.mem_append_left _ (h.passed m hbase hm htakes)
        · intro _
          exact List.mem_append_right _ (List.mem_singleton_self _)
      · next hrefused =>
        have hpass := h.pass (routed && committed) fun htakes => absurd htakes hrefused
        exact ⟨hpass.passed, hpass.current⟩
  | done committed =>
    rw [next]
    split
    · next hhandling => exact h.pass committed fun _ => h.current hhandling
    · exact h
  | other e => exact ⟨h.passed, h.current⟩
  | restart =>
    constructor
    · intro m hbase hm htakes
      exact h.passed m hbase (Nat.lt_of_lt_of_le hm w.offsets.committed_le) htakes
    · nofun

theorem start_acted (base : ℕ) (l : Listening μ σ ε) : Acted l (start base l) := by
  constructor
  · intro m hbase hm
    exact absurd hm (Nat.not_lt.mpr hbase)
  · nofun

/-- No message that can be taken is committed before it has acted, over any run. -/
theorem applied_before_committed (base : ℕ) (l : Listening μ σ ε) (es : List (Event ε)) {m : ℕ}
    (hbase : base ≤ m) (htakes : l.takes (l.log m))
    (hm : m < (es.foldl (next l) (start base l)).offsets.committed) :
    m ∈ (es.foldl (next l) (start base l)).applied := by
  have hacted : Acted l (es.foldl (next l) (start base l)) :=
    (AlongRun.of_keep (I := Acted l) (fun _ e h => next_acted h e) (start_acted base l) es).last
  exact hacted.passed m hbase (Nat.lt_of_lt_of_le hm (Offsets.committed_le _)) htakes

end World
end TopicListener
