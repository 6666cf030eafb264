import QuantEmbrace.Lib.KeyedTable

/-! A `dict`: a table of keys with their values, in order of insertion. -/

/-- An update finds the rows that were there, the one of its key changed. -/
theorem KeyedTable.get_update {ρ κ : Type*} {key : ρ → κ} [DecidableEq κ] (t : KeyedTable key)
    (k : κ) (f : ρ → ρ) (hf : ∀ r, key (f r) = key r) (j : κ) :
    (t.update k f hf).get j = (t.get j).map fun r => if key r = k then f r else r := by
  have hkey : (fun r => decide (key r = j)) ∘ (fun r => if key r = k then f r else r) =
      fun r => decide (key r = j) := by
    funext r
    rw [Function.comp_apply]
    split
    · rw [hf]
    · rfl
  change (t.rows.map fun r => if key r = k then f r else r).find? _ = _
  rw [List.find?_map, hkey]
  rfl

abbrev Dict (κ ν : Type*) : Type _ := KeyedTable (Prod.fst : κ × ν → κ)

namespace Dict
variable {κ ν : Type*} [DecidableEq κ] (d : Dict κ ν) (k : κ) (v : ν)

/-- `d.get(k)` -/
def value : Option ν := (KeyedTable.get d k).map Prod.snd

/-- `d[k] = v` -/
def assign : Dict κ ν :=
  (KeyedTable.update d k (fun row => (row.1, v)) fun _ => rfl).putNew (k, v)

omit [DecidableEq κ] in
theorem keys_map (rows : List (κ × ν)) (f : κ × ν → ν) :
    (rows.map fun row => (row.1, f row)).map Prod.fst = rows.map Prod.fst := by
  rw [List.map_map]
  rfl

/-- Every key gets a new value. -/
def mapValues (f : κ × ν → ν) : Dict κ ν where
  rows := d.rows.map fun row => (row.1, f row)
  nodup := by
    rw [keys_map]
    exact d.nodup

variable {d k v}

theorem value_eq_some_iff : d.value k = some v ↔ (k, v) ∈ d.rows := by
  rw [value, Option.map_eq_some_iff]
  constructor
  · intro ⟨row, hrow, hv⟩
    obtain ⟨hmem, hkey⟩ := KeyedTable.get_eq_some_iff.mp hrow
    rwa [← hkey, ← hv]
  · intro h
    exact ⟨(k, v), KeyedTable.get_eq_some_iff.mpr ⟨h, rfl⟩, rfl⟩

theorem value_assign_self (d : Dict κ ν) (k : κ) (v : ν) : (d.assign k v).value k = some v := by
  have hget := KeyedTable.get_putNew_self
    (KeyedTable.update d k (fun row => (row.1, v)) fun _ => rfl) (k, v)
  rw [value, assign, hget, KeyedTable.get_update]
  cases hrow : KeyedTable.get d k with
  | none => rfl
  | some row =>
    have hkey : row.1 = k := KeyedTable.key_of_get hrow
    simp [hkey]

theorem value_assign_of_ne {j : κ} (h : j ≠ k) : (d.assign k v).value j = d.value j := by
  rw [value, assign, KeyedTable.get_putNew_of_ne h, KeyedTable.get_update, value, Option.map_map]
  refine Option.map_congr fun row hrow => ?_
  have hkey : row.1 ≠ k := (KeyedTable.key_of_get hrow).trans_ne h
  rw [Function.comp_apply, if_neg hkey]

theorem value_mapValues (f : κ × ν → ν) :
    (d.mapValues f).value k = (d.value k).map fun v => f (k, v) := by
  refine Option.ext fun v => ?_
  rw [value_eq_some_iff, mapValues, List.mem_map, Option.map_eq_some_iff]
  constructor
  · intro ⟨row, hrow, heq⟩
    obtain ⟨rfl, rfl⟩ := Prod.mk.inj heq
    exact ⟨row.2, value_eq_some_iff.mpr hrow, rfl⟩
  · intro ⟨x, hx, hv⟩
    exact ⟨(k, x), value_eq_some_iff.mp hx, by rw [hv]⟩

end Dict
