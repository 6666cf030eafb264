import Mathlib.Algebra.BigOperators.Group.List.Basic
import Mathlib.Data.Finset.Dedup
import Mathlib.Data.Finset.Insert
import Mathlib.Data.List.Nodup

/-! A table whose rows have distinct keys. Rows come in by puts that are refused when the
key is there, and change by updates that leave the key alone. -/
structure KeyedTable {ρ κ : Type*} (key : ρ → κ) where
  rows : List ρ
  nodup : (rows.map key).Nodup

namespace KeyedTable
variable {ρ κ α : Type*} {key : ρ → κ}

def empty : KeyedTable key := ⟨[], List.nodup_nil⟩

theorem eq_of_key_eq {t : KeyedTable key} {r r' : ρ} (h : r ∈ t.rows) (h' : r' ∈ t.rows)
    (hk : key r = key r') : r = r' :=
  List.inj_on_of_nodup_map t.nodup h h' hk

variable [DecidableEq κ]

def get (t : KeyedTable key) (k : κ) : Option ρ := t.rows.find? fun r => decide (key r = k)

def putNew (t : KeyedTable key) (r : ρ) : KeyedTable key :=
  if h : key r ∈ t.rows.map key then t
  else
    { rows := t.rows ++ [r]
      nodup := by
        rw [List.map_append, List.map_singleton]
        exact t.nodup.append (List.nodup_singleton _) (by simpa using h) }

def updateRows (key : ρ → κ) (k : κ) (f : ρ → ρ) (rows : List ρ) : List ρ :=
  rows.map fun r => if key r = k then f r else r

/-- What the update of one row keeps of every row. -/
theorem map_updateRows {f : ρ → ρ} {g : ρ → α} (hg : ∀ r, g (f r) = g r) (k : κ) (rows : List ρ) :
    (updateRows key k f rows).map g = rows.map g := by
  rw [updateRows, List.map_map]
  refine List.map_congr_left fun r _ => ?_
  rw [Function.comp_apply]
  split
  · exact hg r
  · rfl

def update (t : KeyedTable key) (k : κ) (f : ρ → ρ) (hf : ∀ r, key (f r) = key r) :
    KeyedTable key :=
  ⟨updateRows key k f t.rows, by rw [map_updateRows hf]; exact t.nodup⟩

def erase (t : KeyedTable key) (k : κ) : KeyedTable key where
  rows := t.rows.filter fun r => key r ≠ k
  nodup := (List.filter_sublist.map key).nodup t.nodup

/-- The row takes the place of the one with its key, if there is one. -/
def put (t : KeyedTable key) (r : ρ) : KeyedTable key := (t.erase (key r)).putNew r

variable {t : KeyedTable key} {k : κ} {r r' : ρ} {f : ρ → ρ} {hf : ∀ r, key (f r) = key r}

theorem get_eq_none_iff : t.get k = none ↔ k ∉ t.rows.map key := by
  simp [get, List.find?_eq_none]

theorem key_of_get (h : t.get k = some r) : key r = k := by
  simpa using List.find?_some (show t.rows.find? _ = some r from h)

theorem rows_putNew (h : t.get (key r) = none) : (t.putNew r).rows = t.rows ++ [r] := by
  rw [putNew, dif_neg (get_eq_none_iff.mp h)]

theorem keys_putNew (t : KeyedTable key) (r : ρ) :
    ((t.putNew r).rows.map key).toFinset = insert (key r) (t.rows.map key).toFinset := by
  rw [putNew]
  split
  · next h => rw [Finset.insert_eq_self.mpr (List.mem_toFinset.mpr h)]
  · ext k
    simp only [List.map_append, List.map_singleton, List.mem_toFinset, List.mem_append,
      List.mem_singleton, Finset.mem_insert]
    exact or_comm

theorem length_putNew (t : KeyedTable key) (r : ρ) :
    (t.putNew r).rows.length ≤ t.rows.length + 1 := by
  rw [putNew]
  split
  · exact Nat.le_succ _
  · simp

@[simp] theorem rows_erase (t : KeyedTable key) (k : κ) :
    (t.erase k).rows = t.rows.filter fun r => key r ≠ k := rfl

theorem mem_erase : r ∈ (t.erase k).rows ↔ r ∈ t.rows ∧ key r ≠ k := by
  simp [erase]

theorem get_erase_self (t : KeyedTable key) (k : κ) : (t.erase k).get k = none := by
  rw [get_eq_none_iff, List.mem_map]
  rintro ⟨r, hr, hk⟩
  exact (mem_erase.mp hr).2 hk

/-- One row comes out of the table, the others stay. -/
theorem rows_perm_erase (h : t.get k = some r) : t.rows.Perm (r :: (t.erase k).rows) := by
  have hkey := key_of_get h
  obtain ⟨before, after, hrows⟩ := List.append_of_mem
    (show r ∈ t.rows from List.mem_of_find?_eq_some h)
  have hnodup := t.nodup
  rw [hrows, List.map_append, List.map_cons, List.nodup_append, List.nodup_cons] at hnodup
  obtain ⟨-, ⟨hafter, -⟩, hbefore⟩ := hnodup
  have hkept : (t.erase k).rows = before ++ after := by
    have hkeep : ∀ x ∈ before ++ after, decide (key x ≠ k) = true := by
      intro x hx
      rw [decide_eq_true_eq, ← hkey]
      obtain hx | hx := List.mem_append.mp hx
      · exact hbefore _ (List.mem_map_of_mem hx) _ (List.mem_cons_self)
      · exact fun he => hafter (he ▸ List.mem_map_of_mem hx)
    rw [List.forall_mem_append] at hkeep
    rw [rows_erase, hrows, List.filter_append, List.filter_cons_of_neg (by simp [hkey]),
      List.filter_eq_self.mpr hkeep.1, List.filter_eq_self.mpr hkeep.2]
  rw [hkept, hrows]
  exact List.perm_middle

theorem sum_erase {M : Type*} [AddCommMonoid M] (g : ρ → M) (h : t.get k = some r) :
    (t.rows.map g).sum = g r + ((t.erase k).rows.map g).sum := by
  rw [((rows_perm_erase h).map g).sum_eq, List.map_cons, List.sum_cons]

theorem get_eq_some_iff : t.get k = some r ↔ r ∈ t.rows ∧ key r = k := by
  have found {x : ρ} (h : t.get k = some x) : x ∈ t.rows ∧ key x = k := by
    rw [get] at h
    exact ⟨List.mem_of_find?_eq_some h, by simpa using List.find?_some h⟩
  refine ⟨found, fun ⟨hr, hk⟩ => ?_⟩
  cases hget : t.get k with
  | none => exact absurd (decide_eq_true hk) (List.find?_eq_none.mp hget r hr)
  | some x =>
    obtain ⟨hx, hxk⟩ := found hget
    rw [eq_of_key_eq hx hr (hxk.trans hk.symm)]

theorem get_erase_of_ne {j : κ} (h : j ≠ k) (t : KeyedTable key) : (t.erase k).get j = t.get j := by
  refine Option.ext fun r => ?_
  rw [get_eq_some_iff, get_eq_some_iff, mem_erase]
  constructor
  · rintro ⟨⟨hr, -⟩, hj⟩
    exact ⟨hr, hj⟩
  · rintro ⟨hr, hj⟩
    exact ⟨⟨hr, hj ▸ h⟩, hj⟩

theorem get_putNew_of_ne (h : k ≠ key r) (t : KeyedTable key) : (t.putNew r).get k = t.get k := by
  rw [putNew]
  split
  · rfl
  · simp [get, h.symm]

theorem get_put_of_ne (h : k ≠ key r) (t : KeyedTable key) : (t.put r).get k = t.get k := by
  rw [put, get_putNew_of_ne h, get_erase_of_ne h]

theorem mem_putNew_of_mem (h : r ∈ t.rows) (r' : ρ) : r ∈ (t.putNew r').rows := by
  unfold putNew
  split
  · exact h
  · exact List.mem_append_left _ h

theorem mem_putNew (h : r ∈ (t.putNew r').rows) : r ∈ t.rows ∨ r = r' := by
  unfold putNew at h
  split at h
  · exact Or.inl h
  · simpa using h

/-- A put that is not refused leaves its row. -/
theorem mem_putNew_self (h : t.get (key r) = none) : r ∈ (t.putNew r).rows := by
  have hnew : key r ∉ t.rows.map key := by
    intro hmem
    obtain ⟨r', hr', hk⟩ := List.mem_map.mp hmem
    rw [get_eq_some_iff.mpr ⟨hr', hk⟩] at h
    cases h
  rw [putNew, dif_neg hnew]
  exact List.mem_append_right _ (List.mem_singleton_self r)

theorem get_putNew_self (t : KeyedTable key) (r : ρ) :
    (t.putNew r).get (key r) = (t.get (key r)).or (some r) := by
  cases h : t.get (key r) with
  | none => exact get_eq_some_iff.mpr ⟨mem_putNew_self h, rfl⟩
  | some x =>
    obtain ⟨hx, hkey⟩ := get_eq_some_iff.mp h
    exact get_eq_some_iff.mpr ⟨mem_putNew_of_mem hx r, hkey⟩

theorem get_put_self (t : KeyedTable key) (r : ρ) : (t.put r).get (key r) = some r := by
  rw [put, get_putNew_self, get_erase_self, Option.none_or]

theorem mem_update (h : r ∈ (t.update k f hf).rows) :
    ∃ r' ∈ t.rows, r = if key r' = k then f r' else r' := by
  obtain ⟨r', hr', heq⟩ := List.mem_map.mp h
  exact ⟨r', hr', heq.symm⟩

end KeyedTable
