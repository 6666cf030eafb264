import Mathlib.Data.List.GetD
import Mathlib.Data.List.Nodup

/-! A table that answers scans page by page. The pages are cut before the filter is
applied, so that any of them may come back empty. -/
namespace Paging
variable {α β : Type*}

structure Response (α : Type*) where
  items : List α
  lastEvaluatedKey : Option ℕ

/-- A scan takes a filter and the key to go on from. -/
abbrev Scan (α : Type*) := (α → Bool) → Option ℕ → Response α

/-- The continuation key is the number of the next page. -/
def serve (pages : List (List α)) : Scan α := fun filter start =>
  let k := start.getD 0
  { items := (pages.getD k []).filter filter
    lastEvaluatedKey := if k + 1 < pages.length then some (k + 1) else none }

/-- Follow the continuation key until there is none. -/
def followed (scan : Scan α) (filter : α → Bool) : ℕ → Option ℕ → Option (List α)
  | 0, _ => none
  | fuel + 1, start =>
    let response := scan filter start
    match response.lastEvaluatedKey with
    | none => some response.items
    | some key => (followed scan filter fuel (some key)).map (response.items ++ ·)

theorem serve_first (pages : List (List α)) (filter : α → Bool) :
    (serve pages filter none).items = (pages.headD []).filter filter := by
  cases pages <;> rfl

theorem followed_from (pages : List (List α)) (filter : α → Bool) (fuel k : ℕ)
    (hfuel : pages.length < fuel + k) (hk : k ≤ pages.length) (start : Option ℕ)
    (hstart : start.getD 0 = k) :
    followed (serve pages) filter fuel start = some ((pages.drop k).flatten.filter filter) := by
  induction fuel generalizing k start with
  | zero => omega
  | succ fuel ih =>
    have hdrop : (pages.drop k).flatten = pages.getD k [] ++ (pages.drop (k + 1)).flatten := by
      obtain hlt | heq := Nat.lt_or_eq_of_le hk
      · rw [List.drop_eq_getElem_cons hlt, List.flatten_cons, List.getD_eq_getElem _ _ hlt]
      · rw [List.drop_of_length_le (by omega), List.drop_of_length_le (by omega),
          List.getD_eq_default _ _ (by omega)]
        rfl
    rw [followed, hdrop, List.filter_append]
    simp only [serve, hstart]
    by_cases hnext : k + 1 < pages.length
    · simp only [if_pos hnext]
      rw [show followed _ filter fuel (some (k + 1)) = _ from
        ih (k + 1) (by omega) (by omega) (some (k + 1)) rfl]
      rfl
    · simp only [if_neg hnext]
      rw [List.drop_of_length_le (by omega), List.flatten_nil, List.filter_nil, List.append_nil]

/-- With one request for each page, a loop on the key reads the whole table. -/
theorem followed_serve (pages : List (List α)) (filter : α → Bool) {fuel : ℕ}
    (hfuel : pages.length < fuel) :
    followed (serve pages) filter fuel none = some (pages.flatten.filter filter) := by
  simpa using followed_from pages filter fuel 0 hfuel (Nat.zero_le _) none rfl

/-- A scan any of whose requests may fail. -/
abbrev TryScan (α : Type*) := (α → Bool) → Option ℕ → Option (Response α)

def serveUnless (fails : ℕ → Bool) (pages : List (List α)) : TryScan α := fun filter start =>
  if fails (start.getD 0) then none else some (serve pages filter start)

/-- Follow the continuation key until there is none or a request fails, and keep what came. -/
def collected (scan : TryScan α) (filter : α → Bool) : ℕ → Option ℕ → Option (List α)
  | 0, _ => none
  | fuel + 1, start =>
    match scan filter start with
    | none => some []
    | some response =>
      match response.lastEvaluatedKey with
      | none => some response.items
      | some key => (collected scan filter fuel (some key)).map (response.items ++ ·)

/-- The pages before the first one that fails; the first of the list has number `k`. -/
def pagesRead (fails : ℕ → Bool) : ℕ → List (List α) → List (List α)
  | _, [] => []
  | k, page :: pages => if fails k then [] else page :: pagesRead fails (k + 1) pages

def pagesUnread (fails : ℕ → Bool) : ℕ → List (List α) → List (List α)
  | _, [] => []
  | k, page :: pages => if fails k then page :: pages else pagesUnread fails (k + 1) pages

theorem pagesRead_append_unread (fails : ℕ → Bool) (k : ℕ) (pages : List (List α)) :
    pagesRead fails k pages ++ pagesUnread fails k pages = pages := by
  induction pages generalizing k with
  | nil => rfl
  | cons page pages ih =>
    rw [pagesRead, pagesUnread]
    split
    · rfl
    · rw [List.cons_append, ih]

/-- Nothing stays unread when no page fails. -/
theorem pagesUnread_eq_nil {fails : ℕ → Bool} {k : ℕ} {pages : List (List α)}
    (h : ∀ j, k ≤ j → j < k + pages.length → fails j = false) : pagesUnread fails k pages = [] := by
  induction pages generalizing k with
  | nil => rfl
  | cons page pages ih =>
    rw [List.length_cons] at h
    rw [pagesUnread, h k (Nat.le_refl k) (by omega), if_neg Bool.false_ne_true]
    exact ih fun j hk hj => h j (by omega) (by omega)

theorem collected_from (fails : ℕ → Bool) (pages : List (List α)) (filter : α → Bool)
    (fuel k : ℕ) (hfuel : pages.length < fuel + k) (hk : k ≤ pages.length) (start : Option ℕ)
    (hstart : start.getD 0 = k) :
    collected (serveUnless fails pages) filter fuel start =
      some ((pagesRead fails k (pages.drop k)).flatten.filter filter) := by
  induction fuel generalizing k start with
  | zero => omega
  | succ fuel ih =>
    rw [collected]
    simp only [serveUnless, serve, hstart]
    cases hf : fails k with
    | true =>
      simp only [if_true]
      cases pages.drop k with
      | nil => rfl
      | cons page rest => rw [pagesRead, hf, if_pos rfl, List.flatten_nil, List.filter_nil]
    | false =>
      simp only [Bool.false_eq_true, if_false]
      obtain hlt | heq := Nat.lt_or_eq_of_le hk
      · have hread : pagesRead fails k (pages.drop k) =
            pages.getD k [] :: pagesRead fails (k + 1) (pages.drop (k + 1)) := by
          rw [List.drop_eq_getElem_cons hlt, pagesRead, hf, if_neg Bool.false_ne_true,
            List.getD_eq_getElem _ _ hlt]
        rw [hread, List.flatten_cons, List.filter_append]
        by_cases hnext : k + 1 < pages.length
        · simp only [if_pos hnext]
          rw [show collected _ filter fuel (some (k + 1)) = _ from
            ih (k + 1) (by omega) (by omega) (some (k + 1)) rfl]
          rfl
        · simp only [if_neg hnext]
          rw [List.drop_of_length_le (by omega), pagesRead, List.flatten_nil, List.filter_nil,
            List.append_nil]
      · have hnext : ¬k + 1 < pages.length := by omega
        simp only [if_neg hnext]
        rw [List.drop_of_length_le (by omega), List.getD_eq_default _ _ (by omega)]
        rfl

/-- With one request for each page, the loop keeps the pages before the first failure. -/
theorem collected_serveUnless (fails : ℕ → Bool) (pages : List (List α)) (filter : α → Bool)
    {fuel : ℕ} (hfuel : pages.length < fuel) :
    collected (serveUnless fails pages) filter fuel none =
      some ((pagesRead fails 0 pages).flatten.filter filter) := by
  simpa using collected_from fails pages filter fuel 0 hfuel (Nat.zero_le _) none rfl

/-- What all pages show is what was kept and what the unread pages would have added. -/
theorem filter_read_append_unread (fails : ℕ → Bool) (pages : List (List α)) (filter : α → Bool) :
    pages.flatten.filter filter = (pagesRead fails 0 pages).flatten.filter filter ++
      (pagesUnread fails 0 pages).flatten.filter filter := by
  rw [← List.filter_append, ← List.flatten_append, pagesRead_append_unread]

/-- The two lists hold the same elements. -/
def SameSet (xs ys : List β) : Prop := ∀ b, b ∈ xs ↔ b ∈ ys

/-- One request sees what the whole table would show exactly when the later pages hold
nothing that passes the filter and is kept. -/
theorem first_page_covers_iff {pages : List (List α)} {filter : α → Bool} {keep : α → Option β}
    (hnodup : pages.flatten.Nodup)
    (hkeep : ∀ a ∈ pages.flatten, ∀ a' ∈ pages.flatten, ∀ b, keep a = some b → keep a' = some b →
      a = a') :
    SameSet ((serve pages filter none).items.filterMap keep)
        ((serve [pages.flatten] filter none).items.filterMap keep) ↔
      ∀ a ∈ pages.tail.flatten, filter a = true → keep a = none := by
  cases pages with
  | nil => simp [SameSet, serve_first]
  | cons page pages =>
    rw [serve_first, serve_first]
    simp only [List.headD_cons, List.tail_cons, List.flatten_cons] at hnodup hkeep ⊢
    simp only [SameSet, List.mem_filterMap, List.mem_filter, List.mem_append]
    constructor
    · intro h a ha hf
      cases hb : keep a with
      | none => rfl
      | some b =>
        obtain ⟨a', ⟨ha', _⟩, hb'⟩ := (h b).mpr ⟨a, ⟨Or.inr ha, hf⟩, hb⟩
        have heq := hkeep a' (List.mem_append_left _ ha') a (List.mem_append_right _ ha) b hb' hb
        exact absurd ha (heq ▸ List.disjoint_of_nodup_append hnodup ha')
    · intro h b
      constructor
      · rintro ⟨a, ⟨ha, hf⟩, hb⟩
        exact ⟨a, ⟨Or.inl ha, hf⟩, hb⟩
      · rintro ⟨a, ⟨ha | ha, hf⟩, hb⟩
        · exact ⟨a, ⟨ha, hf⟩, hb⟩
        · rw [h a ha hf] at hb
          cases hb

end Paging
