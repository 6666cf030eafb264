import QuantEmbrace.Lib.Smoothing
import Mathlib.Algebra.BigOperators.Ring.List
import Mathlib.Algebra.Order.BigOperators.Group.List
import Mathlib.Algebra.Order.Field.Basic
import Mathlib.Tactic.FieldSimp
import Mathlib.Tactic.Linarith

/-! Exponential smoothing of ordered values: where it stays, when it vanishes, and what it keeps
of values that come before its seed. -/
namespace Smoothing

theorem exists_bounds {α : Type*} [LinearOrder α] {values : List α} (h : values ≠ []) :
    ∃ lo ∈ values, ∃ hi ∈ values, ∀ v ∈ values, lo ≤ v ∧ v ≤ hi := by
  induction values with
  | nil => exact absurd rfl h
  | cons v values ih =>
    by_cases hnil : values = []
    · subst hnil
      exact ⟨v, List.mem_cons_self, v, List.mem_cons_self, by simp⟩
    · obtain ⟨lo, hlo, hi, hhi, hall⟩ := ih hnil
      refine ⟨min v lo, ?_, max v hi, ?_, List.forall_mem_cons.mpr ⟨?_, fun w hw => ?_⟩⟩
      · obtain hmin | hmin := min_choice v lo <;> rw [hmin] <;> simp [hlo]
      · obtain hmax | hmax := max_choice v hi <;> rw [hmax] <;> simp [hhi]
      · exact ⟨min_le_left v lo, le_max_left v hi⟩
      · exact ⟨(min_le_right v lo).trans (hall w hw).1, (hall w hw).2.trans (le_max_right v hi)⟩

variable {K : Type*} [Field K] {k lo hi seed : K} {values : List K}

theorem smooth_append (k : K) (first rest : List K) (seed : K) :
    smooth k (first ++ rest) seed = smooth k rest (smooth k first seed) := List.foldl_append

theorem foldl_eq_smooth {f : K → K → K} (h : ∀ x v, f x v = v * k + x * (1 - k))
    (values : List K) (seed : K) : values.foldl f seed = smooth k values seed := by
  rw [show f = fun x v => v * k + x * (1 - k) from funext fun x => funext fun v => h x v]
  rfl

/-- Wilder's running sum is the smoothed mean times the period. -/
theorem sum_smooth {p : K} (hp : p ≠ 0) (values : List K) (seed : K) :
    values.foldl (fun x v => x - x / p + v) seed / p = smooth (1 / p) values (seed / p) := by
  induction values generalizing seed with
  | nil => rfl
  | cons v values ih =>
    rw [List.foldl_cons, ih, smooth_cons]
    congr 1
    field_simp
    ring

/-- The mean of the first `n` values is the seed for the others. -/
def seeded (k : K) (n : ℕ) (values : List K) : K :=
  smooth k (values.drop n) ((values.take n).sum / n)

theorem smooth_zeros (k : K) (m : ℕ) : smooth k (List.replicate m 0) (0 : K) = 0 := by
  induction m with
  | zero => rfl
  | succ m ih => rw [List.replicate_succ, smooth_cons, zero_mul, zero_mul, add_zero, ih]

/-- Zeros in front only make the seed end earlier. -/
theorem seeded_zeros (k : K) (n z : ℕ) (values : List K) :
    seeded k n (List.replicate z 0 ++ values) =
      smooth k (values.drop (n - z)) ((values.take (n - z)).sum / n) := by
  have hsum : ((List.replicate z (0 : K) ++ values).take n).sum = (values.take (n - z)).sum := by
    rw [List.take_append, List.take_replicate, List.length_replicate, List.sum_append,
      List.sum_replicate, nsmul_zero, zero_add]
  rw [seeded, hsum, List.drop_append, List.drop_replicate, List.length_replicate, smooth_append]
  obtain hle | hle := le_total n z
  · rw [Nat.sub_eq_zero_of_le hle, List.take_zero, List.sum_nil, zero_div, smooth_zeros]
  · rw [Nat.sub_eq_zero_of_le hle, List.replicate_zero]
    rfl

variable [LinearOrder K] [IsStrictOrderedRing K]

/-- Smoothing stays between bounds of the seed and the values. -/
theorem smooth_mem (hk : 0 ≤ k) (hk' : k ≤ 1) (hvalues : ∀ v ∈ values, lo ≤ v ∧ v ≤ hi)
    (hseed : lo ≤ seed ∧ seed ≤ hi) :
    lo ≤ smooth k values seed ∧ smooth k values seed ≤ hi := by
  induction values generalizing seed with
  | nil => exact hseed
  | cons v values ih =>
    obtain ⟨hv, hvalues⟩ := List.forall_mem_cons.mp hvalues
    have hrest : 0 ≤ 1 - k := sub_nonneg.mpr hk'
    rw [smooth_cons]
    apply ih hvalues
    constructor
    · calc lo = lo * k + lo * (1 - k) := by ring
        _ ≤ v * k + seed * (1 - k) := by gcongr; exacts [hv.1, hseed.1]
    · calc v * k + seed * (1 - k) ≤ hi * k + hi * (1 - k) := by gcongr; exacts [hv.2, hseed.2]
        _ = hi := by ring

theorem mean_mem (hvalues : ∀ v ∈ values, lo ≤ v ∧ v ≤ hi) {n : ℕ} (hlength : values.length = n)
    (hn : 0 < n) : lo ≤ values.sum / n ∧ values.sum / n ≤ hi := by
  have hpos : (0 : K) < n := Nat.cast_pos.mpr hn
  have hlo := List.card_nsmul_le_sum values lo fun v hv => (hvalues v hv).1
  have hhi := List.sum_le_card_nsmul values hi fun v hv => (hvalues v hv).2
  rw [hlength, nsmul_eq_mul] at hlo hhi
  rw [le_div_iff₀ hpos, div_le_iff₀ hpos, mul_comm lo, mul_comm hi]
  exact ⟨hlo, hhi⟩

theorem seeded_mem (hk : 0 ≤ k) (hk' : k ≤ 1) (hvalues : ∀ v ∈ values, lo ≤ v ∧ v ≤ hi) {n : ℕ}
    (hn : 0 < n) (hlong : n ≤ values.length) :
    lo ≤ seeded k n values ∧ seeded k n values ≤ hi := by
  refine smooth_mem hk hk' (fun v hv => hvalues v (List.mem_of_mem_drop hv)) ?_
  refine mean_mem (fun v hv => hvalues v (List.mem_of_mem_take hv)) ?_ hn
  rw [List.length_take, min_eq_left hlong]

theorem smooth_nonneg (hk : 0 ≤ k) (hk' : k ≤ 1) (hvalues : ∀ v ∈ values, 0 ≤ v)
    (hseed : 0 ≤ seed) : 0 ≤ smooth k values seed := by
  induction values generalizing seed with
  | nil => exact hseed
  | cons v values ih =>
    obtain ⟨hv, hvalues⟩ := List.forall_mem_cons.mp hvalues
    rw [smooth_cons]
    exact ih hvalues (add_nonneg (mul_nonneg hv hk) (mul_nonneg hseed (sub_nonneg.mpr hk')))

/-- Nothing that was positive fades to zero. -/
theorem smooth_eq_zero_iff (hk : 0 < k) (hk' : k < 1) (hvalues : ∀ v ∈ values, 0 ≤ v)
    (hseed : 0 ≤ seed) : smooth k values seed = 0 ↔ seed = 0 ∧ ∀ v ∈ values, v = 0 := by
  induction values generalizing seed with
  | nil => simp [smooth]
  | cons v values ih =>
    obtain ⟨hv, hvalues⟩ := List.forall_mem_cons.mp hvalues
    have hrest : 0 < 1 - k := sub_pos.mpr hk'
    have hnew : 0 ≤ v * k := mul_nonneg hv hk.le
    have hold : 0 ≤ seed * (1 - k) := mul_nonneg hseed hrest.le
    rw [smooth_cons, ih hvalues (add_nonneg hnew hold), add_eq_zero_iff_of_nonneg hnew hold,
      mul_eq_zero_iff_right hk.ne', mul_eq_zero_iff_right hrest.ne', List.forall_mem_cons]
    tauto

/-- Smoothing gives each value at most its weight `k`, and less to all but the last, whatever
there is of it. -/
theorem smooth_le_sum (hk : 0 < k) (hk' : k < 1) (hvalues : ∀ v ∈ values, 0 ≤ v)
    (hseed : 0 ≤ seed) : smooth k values seed ≤ seed + k * values.sum ∧
      (smooth k values seed = seed + k * values.sum ↔
        values = [] ∨ seed = 0 ∧ ∀ v ∈ values.dropLast, v = 0) := by
  induction values generalizing seed with
  | nil => simp [smooth]
  | cons v values ih =>
    obtain ⟨hv, hvalues⟩ := List.forall_mem_cons.mp hvalues
    have hrest : 0 < 1 - k := sub_pos.mpr hk'
    have hnew : 0 ≤ v * k := mul_nonneg hv hk.le
    have hold : 0 ≤ seed * (1 - k) := mul_nonneg hseed hrest.le
    obtain ⟨hle, heq⟩ := ih hvalues (add_nonneg hnew hold)
    have hsplit : seed + k * (v :: values).sum =
        v * k + seed * (1 - k) + k * values.sum + k * seed := by
      rw [List.sum_cons]
      ring
    have hloss : 0 ≤ k * seed := mul_nonneg hk.le hseed
    rw [smooth_cons, hsplit]
    refine ⟨by linarith, ?_⟩
    have hboth : smooth k values (v * k + seed * (1 - k)) =
        v * k + seed * (1 - k) + k * values.sum + k * seed ↔
        smooth k values (v * k + seed * (1 - k)) = v * k + seed * (1 - k) + k * values.sum ∧
          k * seed = 0 := by
      constructor
      · intro h
        exact ⟨by linarith, by linarith⟩
      · rintro ⟨h, h0⟩
        rw [h, h0, add_zero]
    rw [hboth, heq, mul_eq_zero_iff_left hk.ne']
    cases values with
    | nil => simp
    | cons w values =>
      rw [List.dropLast_cons_cons, List.forall_mem_cons, add_eq_zero_iff_of_nonneg hnew hold,
        mul_eq_zero_iff_right hk.ne', mul_eq_zero_iff_right hrest.ne']
      simp only [reduceCtorEq, false_or]
      tauto

theorem sum_eq_zero_iff (hvalues : ∀ v ∈ values, 0 ≤ v) :
    values.sum = 0 ↔ ∀ v ∈ values, v = 0 :=
  ⟨fun h _ hv => List.all_zero_of_le_zero_le_of_sum_eq_zero hvalues h hv, List.sum_eq_zero⟩

theorem one_div_mem {n : ℕ} (hn : 2 ≤ n) : 0 < 1 / (n : K) ∧ 1 / (n : K) < 1 := by
  have htwo : (2 : K) ≤ n := by exact_mod_cast hn
  have hpos : (0 : K) < n := by linarith
  exact ⟨one_div_pos.mpr hpos, (div_lt_one hpos).mpr (by linarith)⟩

/-- Values of zero in front of others change the result, unless the others start with zeros too. -/
theorem seeded_zeros_iff {n : ℕ} (hn : 2 ≤ n) (hvalues : ∀ v ∈ values, 0 ≤ v)
    (hlong : n ≤ values.length) (z : ℕ) :
    seeded (1 / (n : K)) n (List.replicate z 0 ++ values) = seeded (1 / (n : K)) n values ↔
      z = 0 ∨ ∀ v ∈ values.take (n - 1), v = 0 := by
  obtain ⟨hk, hk'⟩ : 0 < 1 / (n : K) ∧ 1 / (n : K) < 1 := one_div_mem hn
  set q := n - z
  set first := values.take q
  set second := (values.take n).drop q
  have hsplit : values.take n = first ++ second := by
    rw [← List.take_append_drop q (values.take n), List.take_take, min_eq_left (Nat.sub_le n z)]
  have hdrop : values.drop q = second ++ values.drop n := by
    have hrest : values.drop q = (values.take n ++ values.drop n).drop q := by
      rw [List.take_append_drop]
    rw [hrest, List.drop_append_of_le_length]
    rw [List.length_take, min_eq_left hlong]
    exact Nat.sub_le n z
  have hfirst : ∀ v ∈ first, 0 ≤ v := fun v hv => hvalues v (List.mem_of_mem_take hv)
  have hsecond : ∀ v ∈ second, 0 ≤ v := fun v hv =>
    hvalues v (List.mem_of_mem_take (List.mem_of_mem_drop hv))
  have hseed : 0 ≤ first.sum / n := div_nonneg (List.sum_nonneg hfirst) (Nat.cast_nonneg n)
  have hfade : (1 - 1 / (n : K)) ^ (values.drop n).length ≠ 0 :=
    pow_ne_zero _ (sub_pos.mpr hk').ne'
  have hwhole : (values.take n).sum / n = first.sum / n + 1 / (n : K) * second.sum := by
    rw [hsplit, List.sum_append, add_div, one_div_mul_eq_div]
  have hne : (n : K) ≠ 0 := (one_div_pos.mp hk).ne'
  have hlength : second.length = n - q := by
    rw [List.length_drop, List.length_take, min_eq_left hlong]
  rw [seeded_zeros, seeded, hdrop, smooth_append, ← sub_eq_zero, smooth_sub,
    mul_eq_zero_iff_left hfade, sub_eq_zero, hwhole, (smooth_le_sum hk hk' hsecond hseed).2,
    div_eq_zero_iff, or_iff_left hne, ← List.length_eq_zero_iff, hlength]
  have hzero : n - q = 0 ↔ z = 0 := by omega
  rw [hzero]
  by_cases hz : z = 0
  · exact iff_of_true (.inl hz) (.inl hz)
  · have hsome : second ≠ [] := by
      intro hnil
      rw [hnil, List.length_nil] at hlength
      omega
    have hlast : values.take (n - 1) = first ++ second.dropLast := by
      rw [← List.dropLast_append_of_ne_nil hsome, ← hsplit, List.dropLast_eq_take, List.take_take,
        List.length_take, min_eq_left hlong, min_eq_left (Nat.sub_le n 1)]
    rw [hlast, List.forall_mem_append, sum_eq_zero_iff hfirst]

/-- Nonnegative values have a nonnegative mean, whatever their number. -/
theorem seeded_nonneg {n : ℕ} (hvalues : ∀ v ∈ values, 0 ≤ v) :
    0 ≤ seeded (1 / (n : K)) n values := by
  have hk : 0 ≤ 1 / (n : K) := one_div_nonneg.mpr (Nat.cast_nonneg n)
  have hk' : 1 / (n : K) ≤ 1 := by
    obtain rfl | hn := Nat.eq_zero_or_pos n
    · simp
    · exact (div_le_one (Nat.cast_pos.mpr hn)).mpr (by exact_mod_cast hn)
  refine smooth_nonneg hk hk' (fun v hv => hvalues v (List.mem_of_mem_drop hv)) ?_
  exact div_nonneg (List.sum_nonneg fun v hv => hvalues v (List.mem_of_mem_take hv))
    (Nat.cast_nonneg n)

theorem seeded_eq_zero_iff {n : ℕ} (hn : 2 ≤ n) (hvalues : ∀ v ∈ values, 0 ≤ v) :
    seeded (1 / (n : K)) n values = 0 ↔ ∀ v ∈ values, v = 0 := by
  obtain ⟨hk, hk'⟩ : 0 < 1 / (n : K) ∧ 1 / (n : K) < 1 := one_div_mem hn
  have hne : (n : K) ≠ 0 := (one_div_pos.mp hk).ne'
  have hfirst : ∀ v ∈ values.take n, 0 ≤ v := fun v hv => hvalues v (List.mem_of_mem_take hv)
  have hrest : ∀ v ∈ values.drop n, 0 ≤ v := fun v hv => hvalues v (List.mem_of_mem_drop hv)
  rw [seeded, smooth_eq_zero_iff hk hk' hrest
    (div_nonneg (List.sum_nonneg hfirst) (Nat.cast_nonneg n)), div_eq_zero_iff, or_iff_left hne,
    sum_eq_zero_iff hfirst, ← List.forall_mem_append, List.take_append_drop]

/-- A smoothed mean is between two of its values. -/
theorem seeded_between (hk : 0 ≤ k) (hk' : k ≤ 1) {n : ℕ} (hn : 0 < n)
    (hlong : n ≤ values.length) :
    (∃ lo ∈ values, lo ≤ seeded k n values) ∧ ∃ hi ∈ values, seeded k n values ≤ hi := by
  have hne : values ≠ [] := List.ne_nil_of_length_pos (hn.trans_le hlong)
  obtain ⟨lo, hlo, hi, hhi, hall⟩ := exists_bounds hne
  obtain ⟨hle, hge⟩ := seeded_mem hk hk' hall hn hlong
  exact ⟨⟨lo, hlo, hle⟩, hi, hhi, hge⟩

theorem weighted_mean_mem {α : Type*} {f w : α → K} {xs : List α} (hw : ∀ x ∈ xs, 0 ≤ w x)
    (hf : ∀ x ∈ xs, lo ≤ f x ∧ f x ≤ hi) (hpos : 0 < (xs.map w).sum) :
    lo ≤ (xs.map fun x => f x * w x).sum / (xs.map w).sum ∧
      (xs.map fun x => f x * w x).sum / (xs.map w).sum ≤ hi := by
  rw [le_div_iff₀ hpos, div_le_iff₀ hpos, ← List.sum_map_mul_left, ← List.sum_map_mul_left]
  constructor
  · exact List.sum_le_sum fun x hx => mul_le_mul_of_nonneg_right (hf x hx).1 (hw x hx)
  · exact List.sum_le_sum fun x hx => mul_le_mul_of_nonneg_right (hf x hx).2 (hw x hx)

end Smoothing
