import Mathlib.Data.List.Induction
import Mathlib.Data.List.Pairwise
import Mathlib.Order.Lattice

/-! A field that some steps set to their time, in runs of timed events: it holds the time of the
last such step. -/
namespace Stamped
variable {σ ε K : Type*}

/-- What the steps do to the field. -/
structure Field (step : σ → ε × K → σ) (field : σ → Option K) (Touches : σ → ε → Prop) : Prop where
  touch : ∀ s e t, Touches s e → field (step s (e, t)) = some t
  keep : ∀ s e t, ¬ Touches s e → field (step s (e, t)) = field s

/-- Some step of the run touches the field at the time. -/
def TouchedAt (step : σ → ε × K → σ) (Touches : σ → ε → Prop) (s : σ) (es : List (ε × K))
    (t : K) : Prop :=
  ∃ pre e post, es = pre ++ (e, t) :: post ∧ Touches (pre.foldl step s) e

def Ascending [LE K] (es : List (ε × K)) : Prop := es.Pairwise fun a b => a.2 ≤ b.2

theorem Ascending.exists_le [Preorder K] [Nonempty K] {es : List (ε × K)} (h : Ascending es) :
    ∃ t, ∀ e ∈ es, e.2 ≤ t := by
  obtain rfl | ⟨pre, last, rfl⟩ := List.eq_nil_or_concat es
  · obtain ⟨t⟩ := ‹Nonempty K›
    exact ⟨t, by simp⟩
  · rw [List.concat_eq_append] at h ⊢
    obtain ⟨-, -, hpast⟩ := List.pairwise_append.mp h
    refine ⟨last.2, List.forall_mem_append.mpr ⟨fun e he => ?_, by simp⟩⟩
    exact hpast e he last (List.mem_singleton_self last)

variable {step : σ → ε × K → σ} {field : σ → Option K} {Touches : σ → ε → Prop} {s : σ}
  {es : List (ε × K)} {t u : K}

/-- A split of a longer list falls on its last element or before it. -/
theorem split_snoc {α : Type*} {xs : List α} {x y : α} {pre post : List α} :
    xs ++ [x] = pre ++ y :: post ↔
      (post = [] ∧ pre = xs ∧ y = x) ∨ ∃ post', post = post' ++ [x] ∧ xs = pre ++ y :: post' := by
  constructor
  · intro h
    obtain rfl | ⟨post', last, rfl⟩ := List.eq_nil_or_concat post
    · obtain ⟨hpre, hx⟩ := List.append_inj' h rfl
      cases hx
      exact .inl ⟨rfl, hpre.symm, rfl⟩
    · rw [List.concat_eq_append, ← List.cons_append, ← List.append_assoc] at h
      obtain ⟨hpre, hx⟩ := List.append_inj' h rfl
      cases hx
      exact .inr ⟨post', List.concat_eq_append, hpre⟩
  · intro h
    obtain ⟨rfl, rfl, rfl⟩ | ⟨post', rfl, rfl⟩ := h
    · rfl
    · simp

theorem touchedAt_snoc (e : ε) (u : K) :
    TouchedAt step Touches s (es ++ [(e, u)]) t ↔
      TouchedAt step Touches s es t ∨ (t = u ∧ Touches (es.foldl step s) e) := by
  constructor
  · intro ⟨pre, a, post, heq, htouch⟩
    obtain ⟨-, rfl, hlast⟩ | ⟨post', -, hpre⟩ := split_snoc.mp heq
    · cases hlast
      exact .inr ⟨rfl, htouch⟩
    · exact .inl ⟨pre, a, post', hpre, htouch⟩
  · intro h
    obtain ⟨pre, a, post, rfl, htouch⟩ | ⟨rfl, htouch⟩ := h
    · exact ⟨pre, a, post ++ [(e, u)], by simp, htouch⟩
    · exact ⟨es, e, [], rfl, htouch⟩

theorem TouchedAt.mem (h : TouchedAt step Touches s es t) : ∃ e, (e, t) ∈ es := by
  obtain ⟨pre, e, post, rfl, -⟩ := h
  exact ⟨e, by simp⟩

variable [LinearOrder K]

/-- The field tells the last time at which it was touched, and none if it never was. -/
theorem Field.last (h : Field step field Touches) (hs : field s = none) (hasc : Ascending es) :
    (field (es.foldl step s) = none → ∀ t, ¬ TouchedAt step Touches s es t) ∧
    ∀ u, field (es.foldl step s) = some u →
      TouchedAt step Touches s es u ∧ ∀ t, TouchedAt step Touches s es t → t ≤ u := by
  induction es using List.reverseRecOn with
  | nil =>
    refine ⟨fun _ t ht => ?_, fun u hu => ?_⟩
    · obtain ⟨e, he⟩ := ht.mem
      cases he
    · rw [List.foldl_nil, hs] at hu
      cases hu
  | append_singleton es last ih =>
    obtain ⟨e, now⟩ := last
    obtain ⟨hes, -, hpast⟩ := List.pairwise_append.mp hasc
    have hle : ∀ t, TouchedAt step Touches s es t → t ≤ now := by
      intro t ht
      obtain ⟨a, ha⟩ := ht.mem
      exact hpast (a, t) ha (e, now) (List.mem_singleton_self _)
    rw [List.foldl_append, List.foldl_cons, List.foldl_nil]
    by_cases htouch : Touches (es.foldl step s) e
    · rw [h.touch _ e now htouch]
      refine ⟨nofun, fun u hu => ?_⟩
      cases hu
      refine ⟨(touchedAt_snoc e now).mpr (.inr ⟨rfl, htouch⟩), fun t ht => ?_⟩
      obtain ht | ⟨rfl, -⟩ := (touchedAt_snoc e now).mp ht
      · exact hle t ht
      · exact le_refl t
    · have hsame : ∀ t, TouchedAt step Touches s (es ++ [(e, now)]) t ↔
          TouchedAt step Touches s es t := by
        intro t
        rw [touchedAt_snoc]
        exact or_iff_left fun hlast => htouch hlast.2
      rw [h.keep _ e now htouch]
      simp only [hsame]
      exact ih hes

/-- The field is old, in a sense in which earlier times are older, exactly if it was touched and
every touch is old. -/
theorem Field.old_iff (h : Field step field Touches) (Old : K → Prop) (hs : field s = none)
    (hasc : Ascending es) (hold : ∀ u v, v ≤ u → Old u → Old v) :
    (∃ u, field (es.foldl step s) = some u ∧ Old u) ↔
      (∃ u, TouchedAt step Touches s es u) ∧ ∀ u, TouchedAt step Touches s es u → Old u := by
  obtain ⟨hnone, hsome⟩ := h.last hs hasc
  constructor
  · intro ⟨u, hu, holdu⟩
    obtain ⟨htouched, hmax⟩ := hsome u hu
    exact ⟨⟨u, htouched⟩, fun v hv => hold u v (hmax v hv) holdu⟩
  · intro ⟨⟨v, hv⟩, hall⟩
    cases hfield : field (es.foldl step s) with
    | none => exact absurd hv (hnone hfield v)
    | some u => exact ⟨u, rfl, hall u (hsome u hfield).1⟩

end Stamped
