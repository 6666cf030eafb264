import Mathlib.Data.Nat.Notation

/-! A reader of a log that commits cumulatively: the committed offset stands for all the
messages below it, and reading starts from it again after a reset. -/
namespace OffsetLog

/-- The offsets of one reader; its history begins at `base`. -/
structure Offsets (base : ℕ) where
  committed : ℕ
  position : ℕ
  base_le : base ≤ committed
  committed_le : committed ≤ position
  deriving DecidableEq

variable {base : ℕ} {S T : ℕ → Prop}

/-- Nothing read yet. -/
def Offsets.init (base : ℕ) : Offsets base := ⟨base, base, Nat.le_refl _, Nat.le_refl _⟩

namespace Offsets
variable (c : Offsets base)

/-- The message at the position is left uncommitted. -/
def skip : Offsets base :=
  ⟨c.committed, c.position + 1, c.base_le, Nat.le_succ_of_le c.committed_le⟩

/-- It is committed, with everything below it. -/
def commit : Offsets base :=
  ⟨c.position + 1, c.position + 1,
    Nat.le_succ_of_le (Nat.le_trans c.base_le c.committed_le), Nat.le_refl _⟩

def reset : Offsets base := ⟨c.committed, c.committed, c.base_le, Nat.le_refl _⟩

/-- Every message passed by the committed offset is in `S`. -/
def Covered (S : ℕ → Prop) : Prop := ∀ m, base ≤ m → m < c.committed → S m

/-- Every message read since the committed offset is in `S`. -/
def NoneLeft (S : ℕ → Prop) : Prop := ∀ m < c.position, c.committed ≤ m → S m

instance [DecidablePred S] : Decidable (c.NoneLeft S) :=
  inferInstanceAs (Decidable (∀ m < _, _))

variable {c}

theorem init_covered (S : ℕ → Prop) : (init base).Covered S := by
  intro m hb hm
  simp only [init] at hm
  omega

theorem Covered.mono (h : c.Covered S) (hST : ∀ m, S m → T m) : c.Covered T :=
  fun m hb hm => hST m (h m hb hm)

theorem Covered.skip (h : c.Covered S) : c.skip.Covered S := h

theorem Covered.reset (h : c.Covered S) : c.reset.Covered S := h

/-- A commit is covered exactly when nothing was left behind and the message itself is not
lost. -/
theorem Covered.commit_iff (h : c.Covered S) :
    c.commit.Covered S ↔ c.NoneLeft S ∧ S c.position := by
  have hbase := c.base_le
  have hpos := c.committed_le
  constructor
  · intro hall
    refine ⟨fun m hm hc => hall m (by omega) ?_, hall c.position (by omega) ?_⟩
    · simp only [commit]
      omega
    · simp only [commit]
      omega
  · intro ⟨hleft, hself⟩ m hb hm
    simp only [commit] at hm
    obtain hlt | hge := Nat.lt_or_ge m c.committed
    · exact h m hb hlt
    obtain hlt | hge' := Nat.lt_or_ge m c.position
    · exact hleft m hlt hge
    · obtain rfl : m = c.position := by omega
      exact hself

end Offsets
end OffsetLog
