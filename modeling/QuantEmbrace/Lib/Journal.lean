import Mathlib.Data.List.Infix

/-! Journals: lists of what has happened, newest entry first. What holds of an entry is read
against the entries older than it. -/
namespace Journal
variable {α : Type*} {l : List α} {a b c : α}

/-- `a` was recorded at a time when `b` had been. -/
def After (a b : α) (l : List α) : Prop := [a, b].Sublist l

instance [DecidableEq α] : Decidable (After a b l) := inferInstanceAs (Decidable (List.Sublist _ _))

theorem after_cons : After a b (c :: l) ↔ After a b l ∨ (a = c ∧ b ∈ l) := by
  unfold After
  rw [List.sublist_cons_iff]
  simp only [List.cons.injEq]
  constructor
  · rintro (h | ⟨r, ⟨rfl, rfl⟩, hr⟩)
    · exact .inl h
    · exact .inr ⟨rfl, List.singleton_sublist.mp hr⟩
  · rintro (h | ⟨rfl, hb⟩)
    · exact .inl h
    · exact .inr ⟨[b], ⟨rfl, rfl⟩, List.singleton_sublist.mpr hb⟩

theorem After.mem_right (h : After a b l) : b ∈ l :=
  h.subset (by simp)

theorem After.cons (h : After a b l) (c : α) : After a b (c :: l) :=
  after_cons.mpr (.inl h)

/-- Every entry is justified by the older ones. -/
def Justified (J : List α → α → Prop) (l : List α) : Prop :=
  ∀ e older, e :: older <:+ l → J older e

variable {J : List α → α → Prop}

theorem justified_nil : Justified J [] := by
  intro e older h
  simp at h

theorem justified_cons : Justified J (c :: l) ↔ J l c ∧ Justified J l := by
  constructor
  · intro h
    refine ⟨h c l (List.suffix_refl _), fun e older hs => ?_⟩
    exact h e older (hs.trans (List.suffix_cons c l))
  · intro ⟨hc, h⟩ e older hs
    obtain heq | hs := List.suffix_cons_iff.mp hs
    · obtain ⟨rfl, rfl⟩ := List.cons.inj heq
      exact hc
    · exact h e older hs

theorem Justified.of_mem (h : Justified J l) (hc : c ∈ l) : ∃ older, older <:+ l ∧ J older c := by
  obtain ⟨newer, older, rfl⟩ := List.append_of_mem hc
  exact ⟨older, (List.suffix_cons c older).trans (List.suffix_append newer (c :: older)),
    h c older (List.suffix_append newer (c :: older))⟩

end Journal
