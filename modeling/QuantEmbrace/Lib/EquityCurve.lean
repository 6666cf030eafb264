import Mathlib.Algebra.Order.Field.Basic
import Mathlib.Data.List.Infix
import Mathlib.Order.Bounds.Basic
import Mathlib.Tactic.NormNum

/-! An equity curve seen point by point: the largest fall from the running peak, and the returns
from each value to the next. -/
namespace EquityCurve
variable {K : Type*} [Field K] [LinearOrder K]

/-- How far a value lies below a peak, in percent of the peak. -/
def fallPct (peak v : K) : K := if 0 < peak then (peak - v) / peak * 100 else 0

/-- The highest value of a series, its start included. -/
def peakOf (start : K) (vs : List K) : K := vs.foldl max start

structure Tracker (K : Type*) where
  peak : K
  worstPct : K
  worstAbs : K

/-- A later fall replaces the worst one only if it is deeper. -/
def Tracker.see (t : Tracker K) (v : K) : Tracker K :=
  let peak := max t.peak v
  { peak := peak
    worstPct := if t.worstPct < fallPct peak v then fallPct peak v else t.worstPct
    worstAbs := if t.worstPct < fallPct peak v then peak - v else t.worstAbs }

def track (start : K) (vs : List K) : Tracker K := vs.foldl Tracker.see ⟨start, 0, 0⟩

/-- The falls of a series: at each of its points, that from the highest point so far. -/
def falls (start : K) (vs : List K) : Set K :=
  {d | ∃ pre v, pre ++ [v] <+: vs ∧ d = fallPct (peakOf start (pre ++ [v])) v}

/-- The returns from each value to the next; a base below `least` counts as `least`. -/
def returns (least : K) : K → List K → List K
  | _, [] => []
  | base, v :: vs => (v - base) / max base least :: returns least v vs

variable {start x y : K} {vs pre : List K}

theorem track_snoc (start : K) (vs : List K) (v : K) :
    track start (vs ++ [v]) = (track start vs).see v := by
  simp [track]

omit [Field K] in
theorem peakOf_snoc (start : K) (vs : List K) (v : K) :
    peakOf start (vs ++ [v]) = max (peakOf start vs) v := by
  simp [peakOf]

theorem track_peak (start : K) (vs : List K) : (track start vs).peak = peakOf start vs := by
  induction vs using List.reverseRecOn with
  | nil => rfl
  | append_singleton vs v ih => rw [track_snoc, Tracker.see, peakOf_snoc, ih]

theorem falls_snoc (start : K) (vs : List K) (v : K) :
    falls start (vs ++ [v]) = insert (fallPct (max (peakOf start vs) v) v) (falls start vs) := by
  ext d
  rw [Set.mem_insert_iff, ← peakOf_snoc]
  constructor
  · intro ⟨pre, w, hpre, hd⟩
    obtain heq | hlt := List.prefix_concat_iff.mp hpre
    · obtain ⟨rfl, hw⟩ := List.append_inj' heq rfl
      cases hw
      exact .inl hd
    · exact .inr ⟨pre, w, hlt, hd⟩
  · intro h
    obtain hd | ⟨pre, w, hpre, hd⟩ := h
    · exact ⟨vs, v, List.prefix_refl _, hd⟩
    · exact ⟨pre, w, hpre.trans (List.prefix_append vs [v]), hd⟩

theorem track_worstPct_snoc (start : K) (vs : List K) (v : K) :
    (track start (vs ++ [v])).worstPct =
      max (track start vs).worstPct (fallPct (max (peakOf start vs) v) v) := by
  rw [track_snoc, Tracker.see, track_peak]
  dsimp only
  split
  · next hdeeper => exact (max_eq_right hdeeper.le).symm
  · next hnot => exact (max_eq_left (not_lt.mp hnot)).symm

/-- The tracked percentage is the worst fall of the series, or zero where none is positive. -/
theorem worstPct_isGreatest (start : K) (vs : List K) :
    IsGreatest (insert 0 (falls start vs)) (track start vs).worstPct := by
  induction vs using List.reverseRecOn with
  | nil =>
    refine ⟨Set.mem_insert 0 _, fun d hd => ?_⟩
    obtain rfl | ⟨pre, v, hpre, -⟩ := hd
    · exact le_refl _
    · simp at hpre
  | append_singleton vs v ih =>
    rw [falls_snoc, Set.insert_comm, track_worstPct_snoc, max_comm (track start vs).worstPct]
    exact ih.insert _

theorem worstPct_nonneg (start : K) (vs : List K) : 0 ≤ (track start vs).worstPct :=
  (worstPct_isGreatest start vs).2 (Set.mem_insert 0 _)

/-- The tracked amount is that of the first point at which the fall is the worst one. -/
theorem worstAbs_first (start : K) (vs : List K) (h : 0 < (track start vs).worstPct) :
    ∃ pre v, pre ++ [v] <+: vs ∧
      (track start vs).worstPct = fallPct (peakOf start (pre ++ [v])) v ∧
      (track start vs).worstAbs = peakOf start (pre ++ [v]) - v ∧
      ∀ d ∈ falls start pre, d < (track start vs).worstPct := by
  induction vs using List.reverseRecOn with
  | nil => exact absurd h (lt_irrefl _)
  | append_singleton vs v ih =>
    by_cases hdeeper : (track start vs).worstPct < fallPct (max (peakOf start vs) v) v
    · have hpct : (track start (vs ++ [v])).worstPct = fallPct (max (peakOf start vs) v) v := by
        rw [track_worstPct_snoc, max_eq_right hdeeper.le]
      refine ⟨vs, v, List.prefix_refl _, ?_, ?_, fun d hd => ?_⟩
      · rw [hpct, peakOf_snoc]
      · rw [track_snoc, Tracker.see, track_peak, peakOf_snoc]
        exact if_pos hdeeper
      · rw [hpct]
        exact ((worstPct_isGreatest start vs).2 (.inr hd)).trans_lt hdeeper
    · have hkeep : (track start (vs ++ [v])).worstPct = (track start vs).worstPct := by
        rw [track_worstPct_snoc, max_eq_left (not_lt.mp hdeeper)]
      have habs : (track start (vs ++ [v])).worstAbs = (track start vs).worstAbs := by
        rw [track_snoc, Tracker.see, track_peak]
        exact if_neg hdeeper
      rw [hkeep] at h ⊢
      obtain ⟨pre, w, hpre, hpct, hw, hfirst⟩ := ih h
      exact ⟨pre, w, hpre.trans (List.prefix_append vs [v]), hpct, habs.trans hw, hfirst⟩

omit [Field K] in
theorem le_peakOf (h : x ∈ start :: vs) : x ≤ peakOf start vs := by
  induction vs using List.reverseRecOn with
  | nil => exact (List.mem_singleton.mp h).le
  | append_singleton vs v ih =>
    rw [peakOf_snoc]
    rw [← List.cons_append, List.mem_append, List.mem_singleton] at h
    obtain h | rfl := h
    · exact (ih h).trans (le_max_left _ _)
    · exact le_max_right _ _

theorem returns_snoc (least base : K) (vs : List K) (v : K) :
    returns least base (vs ++ [v]) =
      returns least base vs ++ [(v - vs.getLastD base) / max (vs.getLastD base) least] := by
  induction vs generalizing base with
  | nil => rfl
  | cons w vs ih => rw [List.cons_append, returns, ih, returns, List.getLastD_cons, List.cons_append]

@[simp] theorem returns_length (least base : K) (vs : List K) :
    (returns least base vs).length = vs.length := by
  induction vs generalizing base with
  | nil => rfl
  | cons v vs ih => simp [returns, ih]

/-- From values that are not below `least`, the returns compound to the last value. -/
theorem returns_compound {least base : K} (hleast : 0 < least)
    (hvs : ∀ v ∈ (base :: vs).dropLast, least ≤ v) :
    base * ((returns least base vs).map (1 + ·)).prod = vs.getLastD base := by
  induction vs generalizing base with
  | nil => simp [returns]
  | cons v vs ih =>
    rw [List.dropLast_cons_cons, List.forall_mem_cons] at hvs
    have hstep : base * (1 + (v - base) / max base least) = v := by
      rw [max_eq_left hvs.1, mul_add, mul_one,
        mul_div_cancel₀ _ (hleast.trans_le hvs.1).ne', add_sub_cancel]
    rw [returns, List.map_cons, List.prod_cons, ← mul_assoc, hstep, ih hvs.2, List.getLastD_cons]

variable [IsStrictOrderedRing K]

/-- The lower the peak, the smaller the fall to a value that is not negative. -/
theorem fallPct_mono {peak : K} (hy : 0 ≤ y) (h : x ≤ peak) (hbelow : y ≤ peak) :
    fallPct x y ≤ fallPct peak y := by
  by_cases hx : 0 < x
  · have hpeak : 0 < peak := hx.trans_le h
    have hdiv : y / peak ≤ y / x := div_le_div_of_nonneg_left hy hx h
    rw [fallPct, fallPct, if_pos hx, if_pos hpeak, sub_div, sub_div, div_self hx.ne',
      div_self hpeak.ne']
    exact mul_le_mul_of_nonneg_right (sub_le_sub_left hdiv 1) (by norm_num)
  · rw [fallPct, if_neg hx, fallPct]
    split
    · next hpeak =>
      exact mul_nonneg (div_nonneg (sub_nonneg.mpr hbelow) hpeak.le) (by norm_num)
    · exact le_refl _

/-- No value that is not negative lies deeper below an earlier one than the tracked fall. -/
theorem fallPct_le_worstPct (h : [x, y].Sublist (start :: vs)) (hy : 0 ≤ y) :
    fallPct x y ≤ (track start vs).worstPct := by
  obtain ⟨before, after, hsplit, hx, hrest⟩ := List.cons_sublist_iff.mp h
  obtain ⟨mid, post, rfl⟩ := List.append_of_mem (List.singleton_sublist.mp hrest)
  cases before with
  | nil => cases hx
  | cons first before =>
    rw [List.cons_append, List.cons.injEq] at hsplit
    obtain ⟨rfl, rfl⟩ := hsplit
    have hpeak : x ≤ peakOf start (before ++ mid ++ [y]) := by
      refine le_peakOf ?_
      rw [List.append_assoc, ← List.cons_append]
      exact List.mem_append_left _ hx
    have hbelow : y ≤ peakOf start (before ++ mid ++ [y]) := le_peakOf (by simp)
    refine (fallPct_mono hy hpeak hbelow).trans
      ((worstPct_isGreatest start _).2 (.inr ⟨before ++ mid, y, ⟨post, ?_⟩, rfl⟩))
    simp

end EquityCurve
