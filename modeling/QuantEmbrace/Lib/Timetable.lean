import Mathlib.Algebra.Order.Group.Int
import Mathlib.Data.Int.Order.Basic
import Mathlib.Data.List.Count
import Mathlib.Data.List.Induction
import Mathlib.Tactic.Linarith
import Mathlib.Tactic.Ring

/-! A timetable that repeats itself, and a watcher of the clock who reports what is in force
whenever it has changed. -/

/-- What comes into force at which times of a period. -/
structure Timetable (α : Type*) where
  period : ℤ
  entries : List (ℤ × α)
  sorted : entries.Pairwise fun a b => a.1 < b.1
  inside : ∀ e ∈ entries, 0 ≤ e.1 ∧ e.1 < period
  nonempty : entries ≠ []

namespace Timetable
variable {α : Type*} (s : Timetable α) {t t' d k : ℤ}

def size : ℕ := s.entries.length

theorem size_pos : 0 < s.size := List.length_pos_iff.mpr s.nonempty

/-- The place of an entry in the period. The entries of all periods are numbered, with one for the
first of the period that begins at zero. -/
def place (k : ℤ) : Fin s.entries.length where
  val := ((k - 1) % s.size).toNat
  isLt := by
    have hpos : (0 : ℤ) < s.size := Int.natCast_pos.mpr s.size_pos
    have hlt := Int.emod_lt_of_pos (k - 1) hpos
    have hnonneg := Int.emod_nonneg (k - 1) hpos.ne'
    rw [size] at *
    omega

def value (k : ℤ) : α := (s.entries.get (s.place k)).2

def start (k : ℤ) : ℤ := (k - 1) / s.size * s.period + (s.entries.get (s.place k)).1

/-- The number of the last entry that has begun. -/
def begun (t : ℤ) : ℤ :=
  t / s.period * s.size + s.entries.countP fun e => e.1 ≤ t % s.period

theorem period_pos : 0 < s.period := by
  obtain ⟨e, he⟩ := List.exists_mem_of_ne_nil _ s.nonempty
  exact (s.inside e he).1.trans_lt (s.inside e he).2

theorem get_le_iff {entries : List (ℤ × α)} (hsorted : entries.Pairwise fun a b => a.1 < b.1)
    (r : ℤ) (i : Fin entries.length) :
    (entries.get i).1 ≤ r ↔ i.val < entries.countP fun e => e.1 ≤ r := by
  induction entries with
  | nil => exact i.elim0
  | cons e entries ih =>
    obtain ⟨hfirst, hsorted⟩ := List.pairwise_cons.mp hsorted
    by_cases he : e.1 ≤ r
    · rw [List.countP_cons_of_pos (by simpa using he)]
      refine i.cases ?_ fun i => ?_
      · exact iff_of_true he (Nat.succ_pos _)
      · rw [Fin.val_succ, Nat.succ_lt_succ_iff]
        exact ih hsorted i
    · have hnone : entries.countP (fun e => decide (e.1 ≤ r)) = 0 := by
        rw [List.countP_eq_zero]
        intro e' he'
        have hlt := hfirst e' he'
        simp only [decide_eq_true_eq, not_le]
        exact (not_le.mp he).trans hlt
      rw [List.countP_cons_of_neg (by simpa using he), hnone]
      refine iff_of_false (not_le.mpr ?_) (Nat.not_lt_zero _)
      refine i.cases (not_le.mp he) fun i => ?_
      exact (not_le.mp he).trans (hfirst _ (List.get_mem entries i))

/-- Numbers in two digits are compared by the first, and by the second where the first agree. -/
theorem digits_lt_iff {n q r q' r' : ℤ} (hr : 0 ≤ r) (hrn : r < n) (hr' : 0 ≤ r') (hr'n : r' ≤ n) :
    q * n + r < q' * n + r' ↔ q < q' ∨ q = q' ∧ r < r' := by
  obtain hlt | rfl | hgt := lt_trichotomy q q'
  · refine iff_of_true ?_ (.inl hlt)
    nlinarith
  · simp
  · refine iff_of_false ?_ (by omega)
    nlinarith

/-- An entry has begun by a time exactly if its number is one of those begun. -/
theorem start_le_iff : s.start k ≤ t ↔ k ≤ s.begun t := by
  have hsize : (0 : ℤ) < s.size := Int.natCast_pos.mpr s.size_pos
  have hinside := s.inside _ (List.get_mem s.entries (s.place k))
  have htime := Int.ediv_mul_add_emod t s.period
  have hnumber := Int.ediv_mul_add_emod (k - 1) s.size
  have hplace : ((s.place k).val : ℤ) = (k - 1) % s.size :=
    Int.toNat_of_nonneg (Int.emod_nonneg _ hsize.ne')
  have hcount : (s.entries.countP fun e => decide (e.1 ≤ t % s.period)) ≤ s.size :=
    List.countP_le_length
  have hget := get_le_iff s.sorted (t % s.period) (s.place k)
  rw [← Nat.cast_lt (α := ℤ), hplace] at hget
  calc s.start k ≤ t
      ↔ (k - 1) / s.size * s.period + (s.entries.get (s.place k)).1 <
          t / s.period * s.period + (t % s.period + 1) := by
        rw [← add_assoc, htime, Int.lt_add_one_iff, start]
    _ ↔ (k - 1) / s.size < t / s.period ∨ (k - 1) / s.size = t / s.period ∧
          (s.entries.get (s.place k)).1 < t % s.period + 1 :=
        digits_lt_iff hinside.1 hinside.2 (by have := Int.emod_nonneg t s.period_pos.ne'; omega)
          (by have := Int.emod_lt_of_pos t s.period_pos; omega)
    _ ↔ (k - 1) / s.size < t / s.period ∨ (k - 1) / s.size = t / s.period ∧
          (k - 1) % s.size < s.entries.countP fun e => decide (e.1 ≤ t % s.period) := by
        rw [Int.lt_add_one_iff, hget]
    _ ↔ (k - 1) / s.size * s.size + (k - 1) % s.size < s.begun t :=
        (digits_lt_iff (Int.emod_nonneg _ hsize.ne') (Int.emod_lt_of_pos _ hsize)
          (Int.natCast_nonneg _) (by exact_mod_cast hcount)).symm
    _ ↔ k ≤ s.begun t := by
        rw [hnumber]
        omega

/-- What is in force at a time. -/
def inForce (t : ℤ) : α := s.value (s.begun t)

theorem begun_mono (h : t ≤ t') : s.begun t ≤ s.begun t' :=
  s.start_le_iff.mp ((s.start_le_iff.mpr le_rfl).trans h)

theorem start_begun_le (t : ℤ) : s.start (s.begun t) ≤ t := s.start_le_iff.mpr le_rfl

theorem lt_start_succ (t : ℤ) : t < s.start (s.begun t + 1) :=
  not_le.mp fun h => absurd (s.start_le_iff.mp h) (by omega)

section Periods

theorem place_add_mul (k q : ℤ) : s.place (k + q * s.size) = s.place k :=
  Fin.ext <| congrArg Int.toNat <| by rw [add_sub_right_comm, Int.add_mul_emod_self_right]

theorem value_add_mul (k q : ℤ) : s.value (k + q * s.size) = s.value k := by
  rw [value, value, place_add_mul]

theorem start_add_mul (k q : ℤ) : s.start (k + q * s.size) = s.start k + q * s.period := by
  have hsize : (s.size : ℤ) ≠ 0 := Int.natCast_ne_zero.mpr s.size_pos.ne'
  rw [start, start, place_add_mul, add_sub_right_comm, Int.add_mul_ediv_right _ _ hsize]
  ring

/-- What holds in the first period, and with every entry of a period for that of the next, holds
in all. -/
theorem forall_of_period {P : ℤ → Prop} (hshift : ∀ k q, P k → P (k + q * s.size))
    (hfirst : ∀ i < s.size, P (i + 1)) (k : ℤ) : P k := by
  have hsize : (0 : ℤ) < s.size := Int.natCast_pos.mpr s.size_pos
  have hplace : ((s.place k).val : ℤ) = (k - 1) % s.size :=
    Int.toNat_of_nonneg (Int.emod_nonneg _ hsize.ne')
  have hk : k = (s.place k).val + 1 + (k - 1) / s.size * s.size := by
    have := Int.ediv_mul_add_emod (k - 1) s.size
    omega
  rw [hk]
  exact hshift _ _ (hfirst _ (s.place k).isLt)

end Periods

/-- No entry is over in less than this. -/
def Lasts (d : ℤ) : Prop := ∀ k, s.start k + d ≤ s.start (k + 1)

theorem lasts_of (h : ∀ i < s.size, s.start (i + 1) + d ≤ s.start (i + 1 + 1)) : s.Lasts d := by
  refine s.forall_of_period (fun k q hk => ?_) h
  rw [add_right_comm, start_add_mul, start_add_mul]
  omega

/-- In less time than any entry lasts, at most one begins. -/
theorem begun_le_succ (hlasts : s.Lasts d) (h : t' < t + d) : s.begun t' ≤ s.begun t + 1 := by
  by_contra hmore
  have hsecond : s.start (s.begun t + 1 + 1) ≤ t' := s.start_le_iff.mpr (by omega)
  have hlong := hlasts (s.begun t + 1)
  have hfirst := s.lt_start_succ t
  omega

/-- Two entries that follow each other are different. -/
def Varies : Prop := ∀ k, s.value (k + 1) ≠ s.value k

theorem varies_of (h : ∀ i < s.size, s.value (i + 1 + 1) ≠ s.value (i + 1)) : s.Varies := by
  refine s.forall_of_period (fun k q hk => ?_) h
  rw [add_right_comm, value_add_mul, value_add_mul]
  exact hk

theorem find_reverse_eq {entries : List (ℤ × α)} (hsorted : entries.Pairwise fun a b => a.1 < b.1)
    (r : ℤ) : (entries.reverse.find? fun e => e.1 ≤ r) =
      match entries.countP fun e => e.1 ≤ r with
      | 0 => none
      | i + 1 => entries[i]? := by
  induction entries using List.reverseRecOn with
  | nil => rfl
  | append_singleton entries e ih =>
    obtain ⟨hsorted, -, hlast⟩ := List.pairwise_append.mp hsorted
    rw [List.reverse_append, List.reverse_singleton, List.singleton_append, List.countP_append,
      List.countP_singleton]
    by_cases he : e.1 ≤ r
    · have hall : (entries.countP fun e => decide (e.1 ≤ r)) = entries.length := by
        rw [List.countP_eq_length]
        intro e' he'
        rw [decide_eq_true_eq]
        exact (hlast e' he' e (List.mem_singleton_self e)).le.trans he
      rw [List.find?_cons_of_pos (by simpa using he), if_pos (by simpa using he), hall]
      simp
    · rw [List.find?_cons_of_neg (by simpa using he), if_neg (by simpa using he), Nat.add_zero,
        ih hsorted]
      have hle : (entries.countP fun e => decide (e.1 ≤ r)) ≤ entries.length :=
        List.countP_le_length
      cases hcount : entries.countP fun e => decide (e.1 ≤ r) with
      | zero => rfl
      | succ i =>
        rw [hcount] at hle
        exact (List.getElem?_append_left hle).symm

/-- What is in force is the last entry of the period that has begun, or else the last one of the
period before. -/
theorem inForce_eq (t : ℤ) : s.inForce t =
    ((s.entries.reverse.find? fun e => e.1 ≤ t % s.period).getD
      (s.entries.getLast s.nonempty)).2 := by
  have hsize := s.size_pos
  have hcount : (s.entries.countP fun e => decide (e.1 ≤ t % s.period)) ≤ s.size :=
    List.countP_le_length
  have hplace : ((s.place (s.begun t)).val : ℤ) = (s.begun t - 1) % s.size :=
    Int.toNat_of_nonneg (Int.emod_nonneg _ (by omega))
  have hnumber : (s.begun t - 1) % s.size =
      ((s.entries.countP fun e => decide (e.1 ≤ t % s.period)) - 1 : ℤ) % s.size := by
    rw [begun, add_sub_assoc, add_comm, Int.add_mul_emod_self_right]
  have hget : s.inForce t = s.entries[(s.place (s.begun t)).val].2 := rfl
  rw [find_reverse_eq s.sorted, hget]
  rw [hnumber] at hplace
  cases hbegun : s.entries.countP fun e => decide (e.1 ≤ t % s.period) with
  | zero =>
    have hlast : (s.place (s.begun t)).val = s.entries.length - 1 := by
      rw [hbegun, Nat.cast_zero, Int.emod_eq_add_self_emod, Int.emod_eq_of_lt] at hplace <;>
        rw [size] at * <;> omega
    simp only [Option.getD_none, List.getLast_eq_getElem, hlast]
  | succ i =>
    have hplace : (s.place (s.begun t)).val = i := by
      rw [hbegun, Nat.cast_succ, add_sub_cancel_right, Int.emod_eq_of_lt] at hplace <;> omega
    have hi : i < s.entries.length := hplace ▸ (s.place (s.begun t)).isLt
    simp only [hplace, List.getElem?_eq_getElem hi, Option.getD_some]

theorem le_getLastD {ts : List ℤ} (h : (t :: ts).IsChain (· ≤ ·)) : t ≤ ts.getLastD t := by
  induction ts generalizing t with
  | nil => exact le_rfl
  | cons t' ts ih =>
    obtain ⟨hle, h⟩ := List.isChain_cons_cons.mp h
    rw [List.getLastD_cons]
    exact hle.trans (ih h)

section Watch
variable [DecidableEq α]

/-- Whoever looks at some times, and reports what is in force where it is not what it was. -/
def reports (last : α) : List ℤ → List ℤ
  | [] => []
  | t :: ts => if s.inForce t = last then reports last ts else t :: reports (s.inForce t) ts

/-- Whoever looks before any entry can be over reports each one that begins once, in turn. -/
theorem map_begun_reports (hvaries : s.Varies) (hlasts : s.Lasts d) {ts : List ℤ}
    (hoften : (t :: ts).IsChain fun a b => a ≤ b ∧ b < a + d) :
    (s.reports (s.inForce t) ts).map s.begun =
      (List.range (s.begun (ts.getLastD t) - s.begun t).toNat).map fun i : ℕ =>
        s.begun t + 1 + i := by
  induction ts generalizing t with
  | nil => simp [reports]
  | cons t' ts ih =>
    obtain ⟨⟨hle, hlt⟩, hoften⟩ := List.isChain_cons_cons.mp hoften
    have hmono := s.begun_mono hle
    have hnext := s.begun_le_succ hlasts hlt
    have hrest := s.begun_mono (le_getLastD (hoften.imp fun _ _ h => h.1))
    rw [reports, List.getLastD_cons]
    obtain heq | hsucc : s.begun t' = s.begun t ∨ s.begun t' = s.begun t + 1 := by omega
    · have hsame : s.inForce t' = s.inForce t := congrArg s.value heq
      rw [if_pos hsame, ← hsame, ih hoften, heq]
    · have hother : s.inForce t' ≠ s.inForce t := by
        rw [inForce, hsucc]
        exact hvaries _
      have hcount : (s.begun (ts.getLastD t') - s.begun t).toNat =
          (s.begun (ts.getLastD t') - s.begun t').toNat + 1 := by omega
      rw [if_neg hother, List.map_cons, ih hoften, hcount, List.range_succ_eq_map, List.map_cons,
        List.map_map, hsucc]
      congr 1
      · simp
      · refine List.map_congr_left fun i _ => ?_
        simp only [Function.comp_apply, Nat.cast_succ]
        ring

/-- And soon. -/
theorem reports_soon {ts : List ℤ}
    (hoften : (t :: ts).IsChain fun a b => a ≤ b ∧ b < a + d) :
    ∀ t' ∈ s.reports (s.inForce t) ts, t' < s.start (s.begun t') + d := by
  induction ts generalizing t with
  | nil => exact fun _ h => absurd h List.not_mem_nil
  | cons t' ts ih =>
    obtain ⟨⟨hle, hlt⟩, hoften⟩ := List.isChain_cons_cons.mp hoften
    rw [reports]
    split
    · next hsame => exact hsame ▸ ih hoften
    · next hother =>
      have hbegun : s.begun t < s.begun t' :=
        lt_of_le_of_ne (s.begun_mono hle) fun heq => hother (congrArg s.value heq.symm)
      have hstart : t < s.start (s.begun t') :=
        not_le.mp fun h => not_le.mpr hbegun (s.start_le_iff.mp h)
      refine List.forall_mem_cons.mpr ⟨by omega, ih hoften⟩

end Watch

end Timetable
