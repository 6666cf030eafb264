import QuantEmbrace.Lib.PythonValue
import Mathlib.Data.List.Nodup

/-! Configuration files read as nested dictionaries: a lookup gives a default where the key is
missing, and a threshold found by one is compared with a measured number. -/
namespace PythonValue

namespace JsonFloat

/-- `x < bound` -/
def lt : JsonFloat → ℚ → Bool
  | .finite q, bound => q < bound
  | .infinity negative, _ => negative
  | .nan, _ => false

/-- `x >= bound` -/
def ge : JsonFloat → ℚ → Bool
  | .finite q, bound => bound ≤ q
  | .infinity negative, _ => !negative
  | .nan, _ => false

theorem ge_iff {x : JsonFloat} {bound : ℚ} : x.ge bound = true ↔ x.lt bound = false ∧ x ≠ .nan := by
  cases x <;> simp [lt, ge]

theorem finite_ne_nan (q : ℚ) : finite q ≠ nan := nofun

/-- `x < y` -/
def less : JsonFloat → JsonFloat → Bool
  | .finite p, .finite q => p < q
  | .finite _, .infinity negative => !negative
  | .infinity negative, .finite _ => negative
  | .infinity x, .infinity y => x && !y
  | _, _ => false

/-- `x >= y`; NaN is on neither side of anything. -/
def notLess (x y : JsonFloat) : Bool := x ≠ .nan && y ≠ .nan && !less x y

theorem less_finite (x : JsonFloat) (q : ℚ) : less x (.finite q) = x.lt q := by
  cases x <;> rfl

theorem finite_less (x : JsonFloat) (q : ℚ) : less (.finite q) x = x.gt q := by
  cases x <;> rfl

end JsonFloat

namespace Text

/-- `text.upper()`, of the letters of ASCII. -/
def upper (t : Text) : Text :=
  t.map fun
    | .scalar c => .scalar c.toUpper
    | p => p

end Text

namespace Json

/-- `entries.get(name, default)` -/
def get (name : String) (default : Json) (entries : List (Text × Json)) : Json :=
  (entries.lookup (Text.of name)).getD default

/-- A dictionary written out. -/
def ofPairs (pairs : List (String × Json)) : List (Text × Json) :=
  pairs.map fun p => (Text.of p.1, p.2)

theorem lookup_ofPairs (name : String) (pairs : List (String × Json)) :
    (ofPairs pairs).lookup (Text.of name) = pairs.lookup name := by
  induction pairs with
  | nil => rfl
  | cons p pairs ih =>
    rw [ofPairs, List.map_cons, List.lookup_cons, List.lookup_cons, ← ih]
    by_cases h : name = p.1
    · rw [h, beq_self_eq_true, beq_self_eq_true]
    · rw [beq_false_of_ne h, beq_false_of_ne fun he => h (Text.of_injective he)]
      rfl

@[simp] theorem get_ofPairs (name : String) (default : Json) (pairs : List (String × Json)) :
    get name default (ofPairs pairs) = (pairs.lookup name).getD default := by
  rw [get, lookup_ofPairs]

/-- `entries[key] = value` -/
def put (key : Text) (value : Json) : List (Text × Json) → List (Text × Json)
  | [] => [(key, value)]
  | (k, v) :: rest => if k = key then (k, value) :: rest else (k, v) :: put key value rest

theorem lookup_put (key other : Text) (value : Json) (entries : List (Text × Json)) :
    (put key value entries).lookup other =
      if other = key then some value else entries.lookup other := by
  induction entries with
  | nil =>
    rw [put, List.lookup_cons, List.lookup_nil]
    by_cases h : other = key
    · rw [h, beq_self_eq_true, if_pos rfl]
    · rw [beq_false_of_ne h, if_neg h]
  | cons entry entries ih =>
    rw [put]
    split
    · next heq =>
      rw [List.lookup_cons, List.lookup_cons, heq]
      by_cases h : other = key
      · rw [h, beq_self_eq_true, if_pos rfl]
      · rw [beq_false_of_ne h, if_neg h]
    · next hne =>
      rw [List.lookup_cons, List.lookup_cons, ih]
      by_cases h : other = key
      · rw [if_pos h, if_pos h, h, beq_false_of_ne fun he => hne he.symm]
      · rw [if_neg h, if_neg h]

/-- `entries.update(others)` -/
def update (entries others : List (Text × Json)) : List (Text × Json) :=
  others.foldl (fun entries e => put e.1 e.2 entries) entries

/-- The keys of a dictionary are distinct, and the new values hide the old ones. -/
theorem lookup_update {others : List (Text × Json)} (hnodup : (others.map Prod.fst).Nodup)
    (key : Text) (entries : List (Text × Json)) :
    (update entries others).lookup key = (others.lookup key).or (entries.lookup key) := by
  induction others generalizing entries with
  | nil => rfl
  | cons e others ih =>
    rw [List.map_cons, List.nodup_cons] at hnodup
    have hrest := ih hnodup.2 (put e.1 e.2 entries)
    rw [update, List.foldl_cons, ← update, hrest, List.lookup_cons, lookup_put]
    by_cases h : key = e.1
    · have hnone : others.lookup key = none := by
        rw [List.lookup_eq_none_iff]
        intro p hp
        have hmem : p.1 ∈ others.map Prod.fst := List.mem_map_of_mem hp
        have hne : key ≠ p.1 := fun he => hnodup.1 (by rwa [← h, he])
        exact bne_iff_ne.mpr hne
      rw [hnone, if_pos h, h, beq_self_eq_true]
      rfl
    · rw [if_neg h, beq_false_of_ne h]

/-- Defaults with the overrides of a mode put over them. -/
theorem get_update_ofPairs {overrides : List (String × Json)}
    (hnodup : (overrides.map Prod.fst).Nodup) (name : String) (default : Json)
    (defaults : List (String × Json)) :
    get name default (update (ofPairs defaults) (ofPairs overrides)) =
      ((overrides.lookup name).or (defaults.lookup name)).getD default := by
  have hkeys : ((ofPairs overrides).map Prod.fst).Nodup := by
    rw [ofPairs, List.map_map]
    have hmap : ((overrides.map Prod.fst).map Text.of).Nodup :=
      List.Nodup.map (fun _ _ h => Text.of_injective h) hnodup
    rwa [List.map_map] at hmap
  rw [get, lookup_update hkeys, lookup_ofPairs, lookup_ofPairs]

/-- The number a value stands for in arithmetic. -/
def number : Json → Option JsonFloat
  | .bool b => some (.finite (if b then 1 else 0))
  | .int n => some (.finite n)
  | .float x => some x
  | _ => none

/-- `left op right`, where `left` is a number. -/
def compare (op : String) (holds : JsonFloat → JsonFloat → Bool) (left right : Json) : Py Bool :=
  match left.number, right.number with
  | some x, some y => .ok (holds x y)
  | _, _ => .error (.typeError (Text.of ("'" ++ op ++ "' not supported between instances of '" ++
      left.typeName ++ "' and '" ++ right.typeName ++ "'")))

theorem compare_eq {op : String} {holds : JsonFloat → JsonFloat → Bool} {left right : Json}
    {x y : JsonFloat} (hleft : left.number = some x) (hright : right.number = some y) :
    compare op holds left right = .ok (holds x y) := by
  rw [compare, hleft, hright]

/-- `for item in value` -/
def iterate : Json → Py (List Json)
  | .list items => .ok items
  | .text t => .ok (t.map fun p => .text [p])
  | .dict entries => .ok (entries.map fun e => .text e.1)
  | value => .error (.typeError (Text.of ("'" ++ value.typeName ++ "' object is not iterable")))

/-- `value.upper()` -/
def upper : Json → Py Text
  | .text t => .ok t.upper
  | value => .error (.attributeError value.typeName "upper")

end Json
end PythonValue
