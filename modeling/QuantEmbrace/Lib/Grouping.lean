import Mathlib.Data.List.Induction

/-! Values collected under their keys, each group where its first value came in. -/
namespace Grouping
variable {K A : Type*} [DecidableEq K]

/-- Append to the group of a key, which is opened at the end if it is not there. -/
def add (k : K) (a : A) : List (K × List A) → List (K × List A)
  | [] => [(k, [a])]
  | g :: rest => if g.1 = k then (g.1, g.2 ++ [a]) :: rest else g :: add k a rest

def group (pairs : List (K × A)) : List (K × List A) :=
  pairs.foldl (fun groups p => add p.1 p.2 groups) []

theorem group_append_singleton (pairs : List (K × A)) (p : K × A) :
    group (pairs ++ [p]) = add p.1 p.2 (group pairs) := List.foldl_append

theorem add_perm (k : K) (a : A) (groups : List (K × List A)) :
    ((add k a groups).flatMap Prod.snd).Perm (groups.flatMap Prod.snd ++ [a]) := by
  induction groups with
  | nil => exact .refl _
  | cons g rest ih =>
    rw [add, List.flatMap_cons]
    split
    · rw [List.flatMap_cons, List.append_assoc, List.append_assoc]
      exact List.perm_append_comm.append_left g.2
    · rw [List.flatMap_cons, List.append_assoc]
      exact ih.append_left g.2

/-- No value is lost or doubled. -/
theorem group_perm (pairs : List (K × A)) :
    ((group pairs).flatMap Prod.snd).Perm (pairs.map Prod.snd) := by
  induction pairs using List.reverseRecOn with
  | nil => exact .refl _
  | append_singleton pairs p ih =>
    rw [group_append_singleton, List.map_append]
    exact (add_perm p.1 p.2 _).trans (ih.append_right _)

theorem mem_of_add {k : K} {a x : A} {groups : List (K × List A)} {g : K × List A}
    (hg : g ∈ add k a groups) (hx : x ∈ g.2) :
    (g.1 = k ∧ x = a) ∨ ∃ g' ∈ groups, g'.1 = g.1 ∧ x ∈ g'.2 := by
  induction groups with
  | nil =>
    cases List.mem_singleton.mp hg
    exact .inl ⟨rfl, List.mem_singleton.mp hx⟩
  | cons first rest ih =>
    rw [add] at hg
    split at hg
    next hk =>
      obtain rfl | hg := List.mem_cons.mp hg
      · obtain hx | hx := List.mem_append.mp hx
        · exact .inr ⟨first, List.mem_cons_self, rfl, hx⟩
        · exact .inl ⟨hk, List.mem_singleton.mp hx⟩
      · exact .inr ⟨g, List.mem_cons_of_mem _ hg, rfl, hx⟩
    next =>
      obtain rfl | hg := List.mem_cons.mp hg
      · exact .inr ⟨g, List.mem_cons_self, rfl, hx⟩
      · obtain h | ⟨g', hg', h⟩ := ih hg
        · exact .inl h
        · exact .inr ⟨g', List.mem_cons_of_mem _ hg', h⟩

/-- A value stands under its own key. -/
theorem mem_of_group {pairs : List (K × A)} {g : K × List A} {x : A} (hg : g ∈ group pairs)
    (hx : x ∈ g.2) : (g.1, x) ∈ pairs := by
  induction pairs using List.reverseRecOn generalizing g with
  | nil => cases hg
  | append_singleton pairs p ih =>
    rw [group_append_singleton] at hg
    obtain ⟨hk, rfl⟩ | ⟨g', hg', hk, hx'⟩ := mem_of_add hg hx
    · rw [hk]
      exact List.mem_append_right _ List.mem_cons_self
    · rw [← hk]
      exact List.mem_append_left _ (ih hg' hx')

end Grouping
