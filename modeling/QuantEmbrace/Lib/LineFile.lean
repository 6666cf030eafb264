import Mathlib.Data.List.Basic

/-! A file of lines that is only appended to, where an append may stop on its way: what it wrote
stays there, and the next append goes on behind it on the same line. -/
namespace LineFile
variable {α : Type*}

/-- How much of its line an append writes. A part may end inside a character. -/
inductive Extent where
  | nothing
  | part (insideCharacter : Bool)
  | unended
  | all
  deriving DecidableEq, Repr

/-- What stands behind the last line end: nothing, text that is no line, or a line. -/
inductive Tail (α : Type*) where
  | empty
  | junk
  | line (a : α)
  deriving DecidableEq, Repr

/-- The lines that can be understood, and whether the bytes of the file are text. -/
structure File (α : Type*) where
  lines : List α := []
  tail : Tail α := .empty
  isText : Bool := true
  deriving DecidableEq, Repr

def Tail.lines : Tail α → List α
  | .line a => [a]
  | _ => []

namespace File

def append (f : File α) (attempt : α × Extent) : File α :=
  match attempt.2, f.tail with
  | .nothing, _ => f
  | .part insideCharacter, _ => { f with tail := .junk, isText := f.isText && !insideCharacter }
  | .unended, .empty => { f with tail := .line attempt.1 }
  | .unended, _ => { f with tail := .junk }
  | .all, .empty => { f with lines := f.lines ++ [attempt.1] }
  | .all, _ => { f with tail := .empty }

/-- What a reader gets, line by line; a file that is no text it cannot read. -/
def content (f : File α) : Option (List α) :=
  if f.isText then some (f.lines ++ f.tail.lines) else none

end File

/-- What the appends leave to be read: a line begun behind an unfinished one is lost with it.
`start` tells whether the file ends at the end of a line. -/
def kept (start : Bool) : List (α × Extent) → List α
  | [] => []
  | (a, extent) :: rest =>
    match extent with
    | .nothing => kept start rest
    | .part _ => kept false rest
    | .unended =>
      if start = true ∧ ∀ r ∈ rest, r.2 = .nothing then a :: kept false rest else kept false rest
    | .all => if start then a :: kept true rest else kept true rest

/-- A line without its end, if it stays the last one. -/
def Tail.kept (t : Tail α) (rest : List (α × Extent)) : List α :=
  if ∀ r ∈ rest, r.2 = .nothing then t.lines else []

def Tail.isEmpty : Tail α → Bool
  | .empty => true
  | _ => false

theorem Tail.kept_cons_of_ne (t : Tail α) {attempt : α × Extent} (h : attempt.2 ≠ .nothing)
    (rest : List (α × Extent)) : t.kept (attempt :: rest) = [] := by
  rw [Tail.kept, if_neg]
  intro hall
  exact h (hall attempt (List.mem_cons_self ..))

/-- One append, with those that follow it. -/
theorem kept_append_tail (f : File α) (attempt : α × Extent) (rest : List (α × Extent)) :
    (f.append attempt).lines ++
        ((f.append attempt).tail.kept rest ++ kept (f.append attempt).tail.isEmpty rest) =
      f.lines ++ (f.tail.kept (attempt :: rest) ++ kept f.tail.isEmpty (attempt :: rest)) := by
  obtain ⟨a, extent⟩ := attempt
  cases extent with
  | nothing => simp only [File.append, kept, Tail.kept, List.forall_mem_cons, true_and]
  | part insideCharacter =>
    rw [Tail.kept_cons_of_ne _ (by simp)]
    simp [File.append, kept, Tail.kept, Tail.lines, Tail.isEmpty]
  | unended =>
    rw [Tail.kept_cons_of_ne _ (by simp)]
    cases htail : f.tail with
    | empty =>
      by_cases hrest : ∀ r ∈ rest, r.2 = .nothing
      · simp only [File.append, htail, kept, Tail.kept, Tail.lines, Tail.isEmpty, if_pos hrest,
          true_and, List.nil_append, List.singleton_append]
      · simp only [File.append, htail, kept, Tail.kept, Tail.isEmpty, if_neg hrest, true_and,
          List.nil_append]
    | _ => simp [File.append, htail, kept, Tail.kept, Tail.lines, Tail.isEmpty]
  | all =>
    rw [Tail.kept_cons_of_ne _ (by simp)]
    cases htail : f.tail <;> simp [File.append, htail, kept, Tail.kept, Tail.lines, Tail.isEmpty]

theorem lines_foldl_append (f : File α) (attempts : List (α × Extent)) :
    (attempts.foldl File.append f).lines ++ (attempts.foldl File.append f).tail.lines =
      f.lines ++ (f.tail.kept attempts ++ kept f.tail.isEmpty attempts) := by
  induction attempts generalizing f with
  | nil => simp [kept, Tail.kept]
  | cons attempt rest ih =>
    rw [List.foldl_cons, ih]
    exact kept_append_tail f attempt rest

theorem isText_foldl_append (f : File α) (attempts : List (α × Extent)) :
    (attempts.foldl File.append f).isText = true ↔
      f.isText = true ∧ ∀ r ∈ attempts, r.2 ≠ .part true := by
  induction attempts generalizing f with
  | nil => simp
  | cons attempt rest ih =>
    have hstep : (f.append attempt).isText = true ↔
        f.isText = true ∧ attempt.2 ≠ .part true := by
      obtain ⟨a, extent⟩ := attempt
      cases extent <;> cases htail : f.tail <;> simp [File.append, htail]
    rw [List.foldl_cons, ih, hstep, List.forall_mem_cons, and_assoc]

/-- The file can be read unless an append stopped inside a character, and then shows what the
appends have left. -/
theorem content_foldl_append (attempts : List (α × Extent)) :
    (attempts.foldl File.append {}).content =
      if ∀ r ∈ attempts, r.2 ≠ .part true then some (kept true attempts) else none := by
  have hlines := lines_foldl_append ({} : File α) attempts
  have htext := isText_foldl_append ({} : File α) attempts
  rw [File.content]
  by_cases h : ∀ r ∈ attempts, r.2 ≠ .part true
  · rw [if_pos h, if_pos (htext.mpr ⟨rfl, h⟩), hlines]
    simp [Tail.kept, Tail.lines, Tail.isEmpty]
  · rw [if_neg h, if_neg fun ht => h (htext.mp ht).2]

/-- What is read has been written, in that order. -/
theorem kept_sublist (start : Bool) (attempts : List (α × Extent)) :
    (kept start attempts).Sublist (attempts.map Prod.fst) := by
  induction attempts generalizing start with
  | nil => exact List.Sublist.slnil
  | cons attempt rest ih =>
    obtain ⟨a, extent⟩ := attempt
    rw [List.map_cons]
    cases extent with
    | nothing => exact (ih start).cons a
    | part insideCharacter => exact (ih false).cons a
    | unended =>
      rw [kept]
      split
      · exact (ih false).cons_cons a
      · exact (ih false).cons a
    | all =>
      rw [kept]
      split
      · exact (ih true).cons_cons a
      · exact (ih true).cons a

theorem kept_of_all {attempts : List (α × Extent)} (h : ∀ r ∈ attempts, r.2 = .all) :
    kept true attempts = attempts.map Prod.fst := by
  induction attempts with
  | nil => rfl
  | cons attempt rest ih =>
    obtain ⟨a, extent⟩ := attempt
    obtain ⟨hhead, hrest⟩ := List.forall_mem_cons.mp h
    obtain rfl : extent = .all := hhead
    rw [kept, if_pos rfl, ih hrest]
    rfl

end LineFile
