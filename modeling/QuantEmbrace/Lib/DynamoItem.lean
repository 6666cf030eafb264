import Mathlib.Data.List.Basic

/-! Items of a table as the client of low level gives them: attributes by name, each under its
type, a number as its text. -/
namespace DynamoItem

inductive AttributeValue where
  | s (text : String)
  | n (text : String)
  | bool (b : Bool)
  | other
  deriving DecidableEq, Repr

/-- The first attribute of a name counts; a record that is not there is an empty one. -/
abbrev Item : Type := List (String × AttributeValue)

namespace Item
variable (item : Item) (name : String)

/-- `item.get(name, {}).get("S", default)` -/
def textD (default : String) : String :=
  match item.lookup name with
  | some (.s t) => t
  | _ => default

/-- `item.get(name, {}).get("S", "")` -/
def text : String := item.textD name ""

/-- `item.get(name, {}).get("N")` -/
def number : Option String :=
  match item.lookup name with
  | some (.n t) => some t
  | _ => none

/-- `item.get(name, {}).get("BOOL", False)` -/
def flag : Bool := item.lookup name = some (.bool true)

/-- The assignments of one `SET` -/
def set (assignments : Item) : Item := assignments ++ item

variable {item name}

theorem lookup_set (assignments : Item) :
    (item.set assignments).lookup name = (assignments.lookup name).or (item.lookup name) :=
  List.lookup_append

theorem lookup_eq_none_of_not_mem {assignments : Item} (h : name ∉ assignments.map Prod.fst) :
    assignments.lookup name = none := by
  rw [List.lookup_eq_none_iff]
  intro a ha
  rw [bne_iff_ne]
  exact fun he => h (he ▸ List.mem_map_of_mem ha)

end Item
end DynamoItem
