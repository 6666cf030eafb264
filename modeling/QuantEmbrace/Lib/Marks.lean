import QuantEmbrace.Lib.Periods

/-! The instants that lie equally far into their periods, such as one time of every day, and the
next of them after an instant. -/
namespace Periods
variable {K : Type*} [Field K] {p c t u m m' : K}

def IsMark (p c m : K) : Prop := ∃ n : ℤ, m = p * n + c

theorem IsMark.shift (h : IsMark p c m) (d : K) : IsMark p (c + d) (m + d) := by
  obtain ⟨n, rfl⟩ := h
  exact ⟨n, by ring⟩

variable [LinearOrder K] [FloorRing K]

/-- The first mark after an instant. -/
def nextMark (p c t : K) : K :=
  let mark := p * period p t + c
  if t < mark then mark else mark + p

theorem isMark_nextMark (p c t : K) : IsMark p c (nextMark p c t) := by
  rw [nextMark]
  split
  · exact ⟨_, rfl⟩
  · refine ⟨period p t + 1, ?_⟩
    push_cast
    ring

variable [IsStrictOrderedRing K] (hp : 0 < p)
include hp

/-- Two marks are at least a period apart. -/
theorem IsMark.add_le (h : IsMark p c m) (h' : IsMark p c m') (hlt : m < m') : m + p ≤ m' := by
  obtain ⟨n, rfl⟩ := h
  obtain ⟨n', rfl⟩ := h'
  have hn : (n : K) < n' := lt_of_mul_lt_mul_left (by linarith) hp.le
  have hsucc : (n : K) + 1 ≤ n' := by exact_mod_cast (Int.cast_lt.mp hn : n < n')
  have hscaled := mul_le_mul_of_nonneg_left hsucc hp.le
  linarith

theorem nextMark_le_add (hcp : c < p) (t : K) : nextMark p c t ≤ t + p := by
  have hphase := phase_nonneg hp t
  rw [phase] at hphase
  rw [nextMark]
  split
  · linarith
  · linarith

theorem lt_nextMark (hc : 0 ≤ c) (t : K) : t < nextMark p c t := by
  rw [nextMark]
  split
  · assumption
  · have hphase := phase_lt hp t
    rw [phase] at hphase
    linarith

/-- It is the least of them. -/
theorem nextMark_le (hcp : c < p) (h : IsMark p c m) (hlt : t < m) : nextMark p c t ≤ m := by
  by_contra hnot
  have hadd := h.add_le hp (isMark_nextMark p c t) (not_le.mp hnot)
  linarith [nextMark_le_add hp hcp t]

/-- The next mark is not past an instant exactly if one lies between. -/
theorem nextMark_le_iff (hc : 0 ≤ c) (hcp : c < p) :
    nextMark p c t ≤ u ↔ ∃ m, IsMark p c m ∧ t < m ∧ m ≤ u := by
  constructor
  · exact fun h => ⟨_, isMark_nextMark p c t, lt_nextMark hp hc t, h⟩
  · intro ⟨m, hm, hlt, hle⟩
    exact (nextMark_le hp hcp hm hlt).trans hle

end Periods
