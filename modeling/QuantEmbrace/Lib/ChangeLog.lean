import QuantEmbrace.Lib.Stamped
import Mathlib.Data.List.Induction
import Mathlib.Logic.Function.Basic

/-! A memory of the latest value under each key, fed with observations, and the changes it
reports. The changes rebuild the memory. -/
namespace ChangeLog
variable {κ ν : Type*}

structure Change (κ ν : Type*) where
  key : κ
  before : Option ν
  after : ν
  deriving DecidableEq, Repr

variable [DecidableEq κ]

abbrev Memory (κ ν : Type*) : Type _ := κ → Option ν

def learn (m : Memory κ ν) (o : κ × ν) : Memory κ ν := Function.update m o.1 (some o.2)

def remember (m : Memory κ ν) (obs : List (κ × ν)) : Memory κ ν := obs.foldl learn m

/-- The value last observed under a key. -/
def latest (k : κ) (obs : List (κ × ν)) : Option ν :=
  ((obs.filter fun o => o.1 = k).getLast?).map Prod.snd

def replay (m : Memory κ ν) (changes : List (Change κ ν)) : Memory κ ν :=
  remember m (changes.map fun c => (c.key, c.after))

theorem remember_append (m : Memory κ ν) (a b : List (κ × ν)) :
    remember m (a ++ b) = remember (remember m a) b :=
  List.foldl_append

theorem remember_apply (m : Memory κ ν) (obs : List (κ × ν)) (k : κ) :
    remember m obs k = (latest k obs).or (m k) := by
  induction obs using List.reverseRecOn with
  | nil => rfl
  | append_singleton obs o ih =>
    rw [remember_append]
    change Function.update (remember m obs) o.1 (some o.2) k = _
    by_cases hk : k = o.1
    · subst hk
      simp [latest]
    · rw [Function.update_of_ne hk, ih]
      simp [latest, Ne.symm hk]

theorem remember_none (obs : List (κ × ν)) (k : κ) :
    remember (fun _ => none) obs k = latest k obs := by
  rw [remember_apply, Option.or_none]

theorem learn_of_known {m : Memory κ ν} {o : κ × ν} (h : m o.1 = some o.2) : learn m o = m := by
  rw [learn, ← h]
  exact Function.update_eq_self o.1 m

/-- The value stands in the last observation of its key. -/
theorem latest_eq_some_iff {k : κ} {v : ν} {obs : List (κ × ν)} :
    latest k obs = some v ↔ ∃ past rest, obs = past ++ (k, v) :: rest ∧ ∀ o ∈ rest, o.1 ≠ k := by
  induction obs using List.reverseRecOn with
  | nil => simp [latest]
  | append_singleton obs o ih =>
    by_cases hk : o.1 = k
    · have hlatest : latest k (obs ++ [o]) = some o.2 := by
        simp [latest, hk]
      rw [hlatest, Option.some.injEq]
      constructor
      · rintro rfl
        exact ⟨obs, [], by rw [← hk], by simp⟩
      · rintro ⟨past, rest, heq, hrest⟩
        obtain ⟨-, -, ho⟩ | ⟨rest, rfl, -⟩ := Stamped.split_snoc.mp heq
        · exact (congrArg Prod.snd ho).symm
        · exact absurd hk (hrest o (by simp))
    · have hlatest : latest k (obs ++ [o]) = latest k obs := by
        simp [latest, hk]
      rw [hlatest, ih]
      constructor
      · rintro ⟨past, rest, rfl, hrest⟩
        refine ⟨past, rest ++ [o], by simp, ?_⟩
        rw [List.forall_mem_append]
        exact ⟨hrest, fun x hx => (List.mem_singleton.mp hx) ▸ hk⟩
      · rintro ⟨past, rest, heq, hrest⟩
        obtain ⟨-, -, ho⟩ | ⟨rest, rfl, hsplit⟩ := Stamped.split_snoc.mp heq
        · exact absurd (congrArg Prod.fst ho).symm hk
        · exact ⟨past, rest, hsplit, fun o ho => hrest o (List.mem_append_left _ ho)⟩

variable [DecidableEq ν]

/-- An observation is reported when it is not what the memory has. -/
def changes : Memory κ ν → List (κ × ν) → List (Change κ ν)
  | _, [] => []
  | m, o :: obs =>
    if m o.1 = some o.2 then changes m obs else ⟨o.1, m o.1, o.2⟩ :: changes (learn m o) obs

theorem changes_append (m : Memory κ ν) (a b : List (κ × ν)) :
    changes m (a ++ b) = changes m a ++ changes (remember m a) b := by
  induction a generalizing m with
  | nil => rfl
  | cons o a ih =>
    rw [List.cons_append, changes, changes]
    change _ = _ ++ changes (remember (learn m o) a) b
    by_cases h : m o.1 = some o.2
    · rw [if_pos h, if_pos h, ih, learn_of_known h]
    · rw [if_neg h, if_neg h, ih, List.cons_append]

/-- The memory is rebuilt from its changes. -/
theorem replay_changes (m : Memory κ ν) (obs : List (κ × ν)) :
    replay m (changes m obs) = remember m obs := by
  induction obs generalizing m with
  | nil => rfl
  | cons o obs ih =>
    rw [changes]
    change _ = remember (learn m o) obs
    by_cases h : m o.1 = some o.2
    · rw [if_pos h, ih, learn_of_known h]
    · rw [if_neg h]
      exact ih (learn m o)

/-- A change begins where the changes before it have left its key. -/
theorem before_eq_replay {m : Memory κ ν} {obs : List (κ × ν)} {past rest : List (Change κ ν)}
    {c : Change κ ν} (h : changes m obs = past ++ c :: rest) :
    c.before = replay m past c.key ∧ c.before ≠ some c.after := by
  induction obs generalizing m past with
  | nil => cases past <;> cases h
  | cons o obs ih =>
    rw [changes] at h
    by_cases hknown : m o.1 = some o.2
    · rw [if_pos hknown] at h
      exact ih h
    · rw [if_neg hknown] at h
      cases past with
      | nil =>
        obtain ⟨rfl, -⟩ := List.cons.inj h
        exact ⟨rfl, hknown⟩
      | cons d past =>
        obtain ⟨hhead, htail⟩ := List.cons.inj h
        subst hhead
        have hbefore := ih htail
        exact hbefore

/-- The changes of one key are the places where its stream of values moves. -/
theorem mem_changes_iff {m : Memory κ ν} {obs : List (κ × ν)} {c : Change κ ν} :
    c ∈ changes m obs ↔ ∃ past rest, obs = past ++ (c.key, c.after) :: rest ∧
      c.before = remember m past c.key ∧ c.before ≠ some c.after := by
  induction obs generalizing m with
  | nil => simp [changes]
  | cons o obs ih =>
    have htail : (∃ past rest, o :: obs = past ++ (c.key, c.after) :: rest ∧
        c.before = remember m past c.key ∧ c.before ≠ some c.after) ↔
        (o = (c.key, c.after) ∧ c.before = m c.key ∧ c.before ≠ some c.after) ∨
          c ∈ changes (learn m o) obs := by
      rw [ih]
      constructor
      · rintro ⟨past, rest, heq, hbefore, hne⟩
        cases past with
        | nil => exact .inl ⟨(List.cons.inj heq).1, hbefore, hne⟩
        | cons p past =>
          obtain ⟨hhead, htail⟩ := List.cons.inj heq
          subst hhead
          exact .inr ⟨past, rest, htail, hbefore, hne⟩
      · rintro (⟨rfl, hbefore, hne⟩ | ⟨past, rest, rfl, hbefore, hne⟩)
        · exact ⟨[], obs, rfl, hbefore, hne⟩
        · exact ⟨o :: past, rest, rfl, hbefore, hne⟩
    rw [htail, changes]
    by_cases h : m o.1 = some o.2
    · rw [if_pos h, learn_of_known h]
      refine (or_iff_right ?_).symm
      rintro ⟨rfl, hbefore, hne⟩
      exact hne (hbefore.trans h)
    · rw [if_neg h, List.mem_cons]
      refine or_congr_left ?_
      constructor
      · rintro rfl
        exact ⟨rfl, rfl, h⟩
      · rintro ⟨rfl, hbefore, -⟩
        rw [← hbefore]

end ChangeLog
