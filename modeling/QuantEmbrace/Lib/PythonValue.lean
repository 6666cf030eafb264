import QuantEmbrace.Lib.LossyUtf8
import Mathlib.Algebra.Order.Floor.Ring
import Mathlib.Data.Rat.Floor

/-! Values as `json.loads` builds them, and the operations on a value of unknown type, each with
the exception it raises. An `except` clause is a set of exceptions; what it misses escapes. -/
namespace PythonValue
open LossyUtf8

/-- A character of a `str`. An escape of a JSON text can name half a surrogate pair. -/
inductive CodePoint where
  | scalar (c : Char)
  | surrogate (n : Fin 0x800)
  deriving DecidableEq, Repr

abbrev Text : Type := List CodePoint

namespace Text

def of (s : String) : Text := s.toList.map .scalar

/-- `text.replace(c, by)` for a single character. -/
def replaceChar (c : Char) (by_ : String) (t : Text) : Text :=
  t.flatMap fun p => if p = .scalar c then of by_ else [p]

def chars : Text → Option (List Char)
  | [] => some []
  | .scalar c :: t => (chars t).map (c :: ·)
  | .surrogate _ :: _ => none

@[simp] theorem chars_map_scalar (cs : List Char) : chars (cs.map .scalar) = some cs := by
  induction cs with
  | nil => rfl
  | cons c cs ih => simp [chars, ih]

theorem of_injective {s t : String} (h : of s = of t) : s = t := by
  have hchars := congrArg chars h
  rw [of, of, chars_map_scalar, chars_map_scalar, Option.some.injEq] at hchars
  exact String.ext hchars

end Text

/-- An exception with what it says. -/
inductive Exc where
  | valueError (message : Text)
  | jsonDecodeError (input : Text)
  | unicodeDecodeError (input : Bytes)
  | unicodeEncodeError (input : Text)
  | typeError (message : Text)
  | attributeError (typeName name : String)
  | overflowError (message : String)
  | recursionError
  | runtimeError (message : Text)
  deriving DecidableEq, Repr

/-- `except ValueError`: the errors of JSON and of the codecs are subclasses. -/
def Exc.isValueError : Exc → Bool
  | .valueError _ | .jsonDecodeError _ | .unicodeDecodeError _ | .unicodeEncodeError _ => true
  | _ => false

def Exc.isTypeError : Exc → Bool
  | .typeError _ => true
  | _ => false

abbrev Py : Type → Type := Except Exc

/-- `bytes.decode("utf-8")` -/
def decodeStrict (b : Bytes) : Py Text :=
  match decode b with
  | some cs => .ok (cs.map .scalar)
  | none => .error (.unicodeDecodeError b)

/-- `text.encode("utf-8")` -/
def Text.encodeStrict (t : Text) : Py Bytes :=
  match t.chars with
  | some cs => .ok (encode cs)
  | none => .error (.unicodeEncodeError t)

inductive JsonFloat where
  | finite (q : ℚ)
  | infinity (negative : Bool)
  | nan
  deriving DecidableEq, Repr

namespace JsonFloat

/-- `x > bound` -/
def gt : JsonFloat → ℚ → Bool
  | .finite q, bound => bound < q
  | .infinity negative, _ => !negative
  | .nan, _ => false

/-- `x <= bound` -/
def le : JsonFloat → ℚ → Bool
  | .finite q, bound => q ≤ bound
  | .infinity negative, _ => negative
  | .nan, _ => false

/-- The two comparisons exclude each other, and only NaN escapes both. -/
theorem le_iff {x : JsonFloat} {bound : ℚ} : x.le bound = true ↔ x.gt bound = false ∧ x ≠ .nan := by
  cases x <;> simp [le, gt]

theorem gt_iff {x : JsonFloat} {bound : ℚ} : x.gt bound = true ↔ x.le bound = false ∧ x ≠ .nan := by
  cases x <;> simp [le, gt]

end JsonFloat

/-- A `dict` has its entries in order of insertion. -/
inductive Json where
  | null
  | bool (b : Bool)
  | int (n : ℤ)
  | float (x : JsonFloat)
  | text (t : Text)
  | list (items : List Json)
  | dict (entries : List (Text × Json))

namespace Json

def typeName : Json → String
  | .null => "NoneType"
  | .bool _ => "bool"
  | .int _ => "int"
  | .float _ => "float"
  | .text _ => "str"
  | .list _ => "list"
  | .dict _ => "dict"

/-- `bool(value)` -/
def truthy : Json → Bool
  | .null => false
  | .bool b => b
  | .int n => n ≠ 0
  | .float x => x ≠ .finite 0
  | .text t => t ≠ []
  | .list items => !items.isEmpty
  | .dict entries => !entries.isEmpty

def string (s : String) : Json := .text (Text.of s)

/-- The text of a `str` that has no half of a surrogate pair. -/
def asString : Json → Option String
  | .text t => t.chars.map String.ofList
  | _ => none

@[simp] theorem asString_string (s : String) : (string s).asString = some s := by
  simp [asString, string, Text.of]

theorem truthy_string (s : String) : (string s).truthy = true ↔ s ≠ "" := by
  simp [truthy, string, Text.of]

/-- `value or default` -/
def orElse (value default : Json) : Json := if value.truthy then value else default

/-- `entries.get(name)` -/
def field (entries : List (Text × Json)) (name : String) : Json :=
  (entries.lookup (Text.of name)).getD .null

theorem field_cons_self (name : String) (value : Json) (entries : List (Text × Json)) :
    field ((Text.of name, value) :: entries) name = value := by
  rw [field, List.lookup_cons_self]
  rfl

theorem field_cons_ne {name other : String} (h : name ≠ other) (value : Json)
    (entries : List (Text × Json)) :
    field ((Text.of other, value) :: entries) name = field entries name := by
  have hne : Text.of name ≠ Text.of other := fun he => h (Text.of_injective he)
  rw [field, List.lookup_cons, beq_false_of_ne hne]
  rfl

/-- `value.get`, of a value of any type. -/
def entries : Json → Py (List (Text × Json))
  | .dict entries => .ok entries
  | value => .error (.attributeError value.typeName "get")

/-- `{**entries, name: value}` -/
def set (name : String) (value : Json) : List (Text × Json) → List (Text × Json)
  | [] => [(Text.of name, value)]
  | (n, v) :: rest =>
    if n = Text.of name then (n, value) :: rest else (n, v) :: set name value rest

theorem field_set_self (name : String) (value : Json) (entries : List (Text × Json)) :
    field (set name value entries) name = value := by
  induction entries with
  | nil => exact field_cons_self name value []
  | cons entry entries ih =>
    rw [set]
    split
    · next heq =>
      rw [heq]
      exact field_cons_self name value entries
    · next hne =>
      rw [field, List.lookup_cons, beq_false_of_ne (Ne.symm hne)]
      exact ih

theorem field_set_ne {name other : String} (h : name ≠ other) (value : Json)
    (entries : List (Text × Json)) : field (set other value entries) name = field entries name := by
  induction entries with
  | nil => exact field_cons_ne h value []
  | cons entry entries ih =>
    rw [set]
    split
    · next heq =>
      have hne : Text.of name ≠ entry.1 := fun he => h (Text.of_injective (he.trans heq))
      rw [field, field, List.lookup_cons, List.lookup_cons, beq_false_of_ne hne]
    · rw [field, field, List.lookup_cons, List.lookup_cons]
      split
      · rfl
      · exact ih

/-- After several assignments to different names, a name has what it was given. -/
theorem field_foldl_set {β : Type} (f : β → Json) {name : String} {b : β}
    {assignments : List (String × β)} (hnodup : (assignments.map Prod.fst).Nodup)
    (h : (name, b) ∈ assignments) (entries : List (Text × Json)) :
    field (assignments.foldl (fun entries a => set a.1 (f a.2) entries) entries) name = f b := by
  have hkept : ∀ (assignments : List (String × β)) (entries : List (Text × Json)),
      name ∉ assignments.map Prod.fst →
      field (assignments.foldl (fun entries a => set a.1 (f a.2) entries) entries) name =
        field entries name := by
    intro assignments entries hname
    induction assignments generalizing entries with
    | nil => rfl
    | cons a assignments ih =>
      rw [List.map_cons, List.mem_cons, not_or] at hname
      rw [List.foldl_cons, ih _ hname.2, field_set_ne hname.1]
  induction assignments generalizing entries with
  | nil => cases h
  | cons a assignments ih =>
    rw [List.map_cons, List.nodup_cons] at hnodup
    rw [List.foldl_cons]
    obtain heq | hmem := List.mem_cons.mp h
    · subst heq
      rw [hkept assignments _ hnodup.1, field_set_self]
    · exact ih hnodup.2 hmem _

def intTypeError (value : Json) : Exc :=
  .typeError (Text.of ("int() argument must be a string, a bytes-like object " ++
    "or a real number, not '" ++ value.typeName ++ "'"))

def truncate (q : ℚ) : ℤ := if 0 ≤ q then ⌊q⌋ else ⌈q⌉

/-- `int(value)`; `ofText` reads a text, and `repr` quotes it in the error. -/
def toInt (ofText : Text → Option ℤ) (repr : Text → Text) : Json → Py ℤ
  | .bool b => .ok (if b then 1 else 0)
  | .int n => .ok n
  | .float (.finite q) => .ok (truncate q)
  | .float (.infinity _) => .error (.overflowError "cannot convert float infinity to integer")
  | .float .nan => .error (.valueError (Text.of "cannot convert float NaN to integer"))
  | .text t =>
    match ofText t with
    | some n => .ok n
    | none => .error (.valueError (Text.of "invalid literal for int() with base 10: " ++ repr t))
  | value => .error value.intTypeError

end Json

theorem bind_eq_ok {α β : Type} {x : Py α} {f : α → Py β} {b : β} :
    (x >>= f) = .ok b ↔ ∃ a, x = .ok a ∧ f a = .ok b := by
  cases x <;> simp [bind, Except.bind]

section Escapes
variable {α β : Type} {caught : Exc → Bool}

/-- The computation ends with an exception that no clause catches. -/
def Escapes (caught : Exc → Bool) (x : Py α) : Prop := ∃ e, x = .error e ∧ caught e = false

@[simp] theorem escapes_ok (a : α) : ¬ Escapes caught (.ok a : Py α) := by
  simp [Escapes]

@[simp] theorem escapes_pure (a : α) : ¬ Escapes caught (pure a : Py α) := escapes_ok a

@[simp] theorem escapes_error (e : Exc) : Escapes caught (.error e : Py α) ↔ caught e = false := by
  simp [Escapes]

@[simp] theorem escapes_throw (e : Exc) : Escapes caught (throw e : Py α) ↔ caught e = false :=
  escapes_error e

@[simp] theorem escapes_ok_bind (a : α) (f : α → Py β) :
    Escapes caught ((.ok a : Py α) >>= f) ↔ Escapes caught (f a) := Iff.rfl

theorem escapes_bind (x : Py α) (f : α → Py β) :
    Escapes caught (x >>= f) ↔ Escapes caught x ∨ ∃ a, x = .ok a ∧ Escapes caught (f a) := by
  cases x with
  | error e => simp [Escapes, bind, Except.bind]
  | ok a => simp [Escapes, bind, Except.bind]

/-- A computation whose exceptions are all caught passes its value on, or is over. -/
theorem escapes_bind_of_not {x : Py α} (h : ¬ Escapes caught x) (f : α → Py β) :
    Escapes caught (x >>= f) ↔ ∃ a, x = .ok a ∧ Escapes caught (f a) := by
  rw [escapes_bind]
  exact or_iff_right h

end Escapes

theorem not_escapes_encodeStrict {caught : Exc → Bool} (h : ∀ e, e.isValueError → caught e)
    (t : Text) : ¬ Escapes caught t.encodeStrict := by
  rw [Text.encodeStrict]
  cases t.chars with
  | none => simpa using h (.unicodeEncodeError t) rfl
  | some cs => exact escapes_ok _

/-- Of all values only an infinity makes `int` raise neither a value error nor a type error. -/
theorem escapes_toInt {caught : Exc → Bool}
    (hcaught : ∀ e, caught e = (e.isValueError || e.isTypeError)) (ofText : Text → Option ℤ)
    (repr : Text → Text) (value : Json) :
    Escapes caught (value.toInt ofText repr) ↔ ∃ b, value = .float (.infinity b) := by
  cases value with
  | float x =>
    cases x <;> simp [Json.toInt, hcaught, Exc.isValueError, Exc.isTypeError]
  | text t =>
    rw [Json.toInt]
    cases ofText t <;> simp [hcaught, Exc.isValueError]
  | _ => simp [Json.toInt, hcaught, Json.intTypeError, Exc.isValueError, Exc.isTypeError]

end PythonValue
