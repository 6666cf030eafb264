import QuantEmbrace.Lib.KeyedTable
import Mathlib.Data.List.Induction

/-! A table that rows are put into and removed from. Under each key stands what the last change of
that key has left. -/
namespace KeyedTable
variable {ρ κ : Type*}

inductive Change (ρ κ : Type*) where
  | put (r : ρ)
  | remove (k : κ)

namespace Change

def key (key : ρ → κ) : Change ρ κ → κ
  | .put r => key r
  | .remove k => k

def row : Change ρ κ → Option ρ
  | .put r => some r
  | .remove _ => none

end Change

section Puts
variable {ν : Type*} [DecidableEq ν] {name : ρ → ν} {n : ν} {r : ρ} {cs : List (Change ρ κ)}

/-- The last row put under a name of the rows, whether or not it has been removed since. -/
def lastPut (name : ρ → ν) (n : ν) (cs : List (Change ρ κ)) : Option ρ :=
  (cs.reverse.filterMap Change.row).find? fun r => decide (name r = n)

theorem lastPut_put : lastPut name n (cs ++ [.put r]) =
    if name r = n then some r else lastPut name n cs := by
  rw [lastPut, List.reverse_concat, List.filterMap_cons, Change.row]
  dsimp only
  rw [List.find?_cons]
  by_cases h : name r = n <;> simp [h, lastPut]

theorem lastPut_remove (j : κ) : lastPut name n (cs ++ [.remove j]) = lastPut name n cs := by
  rw [lastPut, List.reverse_concat, List.filterMap_cons, Change.row]
  rfl

theorem name_lastPut (h : lastPut name n cs = some r) : name r = n := by
  simpa using List.find?_some h

theorem put_mem_of_lastPut (h : lastPut name n cs = some r) : .put r ∈ cs := by
  obtain ⟨c, hc, hrow⟩ := List.mem_filterMap.mp (List.mem_of_find?_eq_some h)
  cases c with
  | put r' =>
    cases hrow
    exact List.mem_reverse.mp hc
  | remove j => cases hrow

/-- Names that agree on the rows that were put have the same last row. -/
theorem lastPut_congr {κ' : Type*} [DecidableEq κ'] {key' : ρ → κ'} {k' : κ'}
    (h : ∀ r, .put r ∈ cs → (name r = n ↔ key' r = k')) :
    lastPut name n cs = lastPut key' k' cs := by
  induction cs using List.reverseRecOn with
  | nil => rfl
  | append_singleton cs c ih =>
    have hbefore := ih fun r hr => h r (List.mem_append_left _ hr)
    cases c with
    | put r =>
      have hlast := h r (List.mem_append_right _ (List.mem_singleton_self _))
      rw [lastPut_put, lastPut_put, hbefore]
      simp only [hlast]
    | remove j => rw [lastPut_remove, lastPut_remove, hbefore]

end Puts

variable [DecidableEq κ] {key : ρ → κ} {k : κ} {r : ρ} {c : Change ρ κ} {cs : List (Change ρ κ)}

def change (t : KeyedTable key) : Change ρ κ → KeyedTable key
  | .put r => t.put r
  | .remove k => t.erase k

def changed (key : ρ → κ) (cs : List (Change ρ κ)) : KeyedTable key := cs.foldl change empty

def lastChange (key : ρ → κ) (k : κ) (cs : List (Change ρ κ)) : Option (Change ρ κ) :=
  cs.reverse.find? fun c => decide (c.key key = k)

theorem lastChange_snoc : lastChange key k (cs ++ [c]) =
    if c.key key = k then some c else lastChange key k cs := by
  rw [lastChange, List.reverse_concat, List.find?_cons]
  by_cases h : c.key key = k <;> simp [h, lastChange]

theorem changed_snoc : changed key (cs ++ [c]) = (changed key cs).change c := by
  rw [changed, List.foldl_append]
  rfl

theorem get_changed (key : ρ → κ) (k : κ) (cs : List (Change ρ κ)) :
    (changed key cs).get k = (lastChange key k cs).bind Change.row := by
  induction cs using List.reverseRecOn with
  | nil => rfl
  | append_singleton cs c ih =>
    rw [changed_snoc, lastChange_snoc]
    cases c with
    | put r =>
      by_cases h : key r = k
      · subst h
        rw [Change.key, if_pos rfl]
        exact get_put_self _ r
      · rw [Change.key, if_neg h, ← ih]
        exact get_put_of_ne (Ne.symm h) _
    | remove j =>
      by_cases h : j = k
      · subst h
        rw [Change.key, if_pos rfl]
        exact get_erase_self _ j
      · rw [Change.key, if_neg h, ← ih]
        exact get_erase_of_ne (Ne.symm h) _

theorem get_changed_eq_some :
    (changed key cs).get k = some r ↔ lastChange key k cs = some (.put r) := by
  rw [get_changed]
  cases lastChange key k cs with
  | none => simp
  | some c => cases c <;> simp [Change.row]

theorem mem_changed_iff :
    r ∈ (changed key cs).rows ↔ lastChange key (key r) cs = some (.put r) := by
  rw [← get_changed_eq_some, get_eq_some_iff]
  exact (and_iff_left rfl).symm

theorem put_mem_of_lastChange (h : lastChange key k cs = some c) : c ∈ cs :=
  List.mem_reverse.mp (List.mem_of_find?_eq_some h)

/-- A row that stands is the last one put. -/
theorem lastPut_of_lastChange (h : lastChange key k cs = some (.put r)) :
    lastPut key k cs = some r := by
  induction cs using List.reverseRecOn with
  | nil => cases h
  | append_singleton cs c ih =>
    rw [lastChange_snoc] at h
    cases c with
    | put r' =>
      rw [lastPut_put]
      by_cases hk : key r' = k
      · rw [Change.key, if_pos hk] at h
        cases h
        exact if_pos hk
      · rw [Change.key, if_neg hk] at h
        rw [if_neg hk, ih h]
    | remove j =>
      rw [lastPut_remove]
      by_cases hk : j = k
      · rw [Change.key, if_pos hk] at h
        cases h
      · rw [Change.key, if_neg hk] at h
        exact ih h

/-- The last row put under a key stands there, or was standing there when it was removed. -/
theorem lastChange_of_lastPut (h : lastPut key k cs = some r) :
    lastChange key k cs = some (.put r) ∨
      ∃ pre post, cs = pre ++ .remove k :: post ∧ lastChange key k pre = some (.put r) := by
  induction cs using List.reverseRecOn with
  | nil => cases h
  | append_singleton cs c ih =>
    have hlater : (∃ pre post, cs = pre ++ .remove k :: post ∧
        lastChange key k pre = some (.put r)) →
        ∃ pre post, cs ++ [c] = pre ++ .remove k :: post ∧
          lastChange key k pre = some (.put r) := by
      rintro ⟨pre, post, rfl, hpre⟩
      exact ⟨pre, post ++ [c], by simp, hpre⟩
    rw [lastChange_snoc]
    cases c with
    | put r' =>
      rw [lastPut_put] at h
      by_cases hk : key r' = k
      · rw [if_pos hk, Option.some.injEq] at h
        rw [Change.key, if_pos hk, h]
        exact .inl rfl
      · rw [if_neg hk] at h
        rw [Change.key, if_neg hk]
        exact (ih h).imp_right hlater
    | remove j =>
      rw [lastPut_remove] at h
      by_cases hk : j = k
      · subst hk
        obtain hstands | hremoved := ih h
        · exact .inr ⟨cs, [], rfl, hstands⟩
        · exact .inr (hlater hremoved)
      · rw [Change.key, if_neg hk]
        exact (ih h).imp_right hlater

end KeyedTable
