import QuantEmbrace.Lib.Periods
import Mathlib.Data.Rat.Floor

/-! The schedule of the intraday square-off: the loop of `MISSquareOffManager.run` as the instants
at which it looks at the clock, and the days on which it squares off. -/
namespace QuantEmbrace.SquareOffSchedule
open Periods

/-- Seconds of a day; instants are seconds since a midnight in India. -/
def daySeconds : ℚ := 86400

def istOffsetSeconds : ℕ := 19800

abbrev day (t : ℚ) : ℤ := period daySeconds t

abbrev timeOfDay (t : ℚ) : ℚ := phase daySeconds t

/-- The configured times of day. -/
structure Schedule where
  closeTime : ℚ
  deadlineTime : ℚ
  close_nonneg : 0 ≤ closeTime
  close_le : closeTime ≤ deadlineTime
  deadline_lt : deadlineTime < daySeconds

/-- 15:05 and 15:10 -/
def defaultSchedule : Schedule where
  closeTime := 54300
  deadlineTime := 54600
  close_nonneg := by norm_num
  close_le := by norm_num
  deadline_lt := by norm_num [daySeconds]

/-- `_seconds_until_ist` -/
def secondsUntilIst (target now : ℚ) : ℚ := max 0 (daySeconds * day now + target - now)

namespace Schedule
variable (s : Schedule)

/-- Both times have passed today. -/
def pastDeadline (now : ℚ) : Prop :=
  secondsUntilIst s.closeTime now = 0 ∧ secondsUntilIst s.deadlineTime now = 0

instance (now : ℚ) : Decidable (s.pastDeadline now) := instDecidableAnd

/-- When the pass of an iteration starts, if it has one. -/
def squareOffAt (now : ℚ) : Option ℚ :=
  if s.pastDeadline now then none else some (now + secondsUntilIst s.closeTime now)

/-- The next look at the clock, where a pass takes `duration`. -/
def nextLook (duration now : ℚ) : ℚ :=
  if s.pastDeadline now then now + (86400 - istOffsetSeconds % 86400 : ℕ)
  else now + secondsUntilIst s.closeTime now + duration + 3600

/-- The looks at the clock of a run that is started at `start`. -/
def look (start : ℚ) (duration : ℕ → ℚ) : ℕ → ℚ
  | 0 => start
  | n + 1 => s.nextLook (duration n) (look start duration n)

/-- The days that begin after the start, and the first if it has not come to the close. -/
def Counted (start : ℚ) (d : ℤ) : Prop :=
  day start < d ∨ (d = day start ∧ timeOfDay start < s.closeTime)

/-- On every counted day one pass starts, between the close and the deadline, and no other. -/
def SquaredOffDaily (start : ℚ) (duration : ℕ → ℚ) : Prop :=
  ∀ d, s.Counted start d → ∃ n m, s.squareOffAt (s.look start duration n) = some m ∧ day m = d ∧
    s.closeTime ≤ timeOfDay m ∧ timeOfDay m ≤ s.deadlineTime ∧
    ∀ n' m', s.squareOffAt (s.look start duration n') = some m' → day m' = d → n' = n

/-- From one look to the next: a new day is the next one and is reached before its deadline; on
a counted day that has had its pass, the next look is past the deadline. -/
def LandsWell (start now duration : ℚ) : Prop :=
  let later := s.nextLook duration now
  (day now < day later → day later = day now + 1 ∧ timeOfDay later < s.deadlineTime) ∧
    (day later = day now → s.Counted start (day now) → timeOfDay now < s.deadlineTime →
      s.deadlineTime ≤ timeOfDay later)

end Schedule

theorem daySeconds_pos : (0 : ℚ) < daySeconds := by norm_num [daySeconds]

theorem eq_day_add (t : ℚ) : t = daySeconds * day t + timeOfDay t := by
  simp [phase]

theorem timeOfDay_nonneg (t : ℚ) : 0 ≤ timeOfDay t := phase_nonneg daySeconds_pos t

theorem timeOfDay_lt (t : ℚ) : timeOfDay t < daySeconds := phase_lt daySeconds_pos t

/-- An instant given by its day and its time of day. -/
theorem day_timeOfDay {t r : ℚ} {d : ℤ} (h : t = daySeconds * d + r) (h0 : 0 ≤ r)
    (h1 : r < daySeconds) : day t = d ∧ timeOfDay t = r := by
  have hlow : daySeconds * d ≤ t := by linarith
  have hhigh : t < daySeconds * d + daySeconds := by linarith
  exact ⟨period_eq daySeconds_pos hlow hhigh, by
    rw [timeOfDay, phase_eq daySeconds_pos hlow hhigh]
    linarith⟩

theorem day_mono {t t' : ℚ} (h : t ≤ t') : day t ≤ day t' := period_mono daySeconds_pos h

theorem secondsUntilIst_eq (target now : ℚ) :
    secondsUntilIst target now = max 0 (target - timeOfDay now) := by
  rw [secondsUntilIst]
  congr 1
  have := eq_day_add now
  linarith

namespace Schedule
variable {s : Schedule} {start : ℚ} {duration : ℕ → ℚ} {now x : ℚ}

theorem pastDeadline_iff : s.pastDeadline now ↔ s.deadlineTime ≤ timeOfDay now := by
  have hle := s.close_le
  rw [pastDeadline, secondsUntilIst_eq, secondsUntilIst_eq, max_eq_left_iff, max_eq_left_iff]
  constructor
  · intro h
    linarith [h.2]
  · intro h
    constructor
    · linarith
    · linarith

/-- A pass starts on the day of its look, between the close and the deadline. -/
theorem squareOffAt_some {m : ℚ} (h : s.squareOffAt now = some m) :
    timeOfDay now < s.deadlineTime ∧ day m = day now ∧
      timeOfDay m = max s.closeTime (timeOfDay now) := by
  simp only [squareOffAt, pastDeadline_iff] at h
  split at h
  · cases h
  next hbefore =>
  have hlt := not_le.mp hbefore
  obtain rfl := Option.some.inj h
  have hnonneg := timeOfDay_nonneg now
  have hinst : now + secondsUntilIst s.closeTime now =
      daySeconds * day now + max s.closeTime (timeOfDay now) := by
    have hnow := eq_day_add now
    rw [secondsUntilIst_eq]
    obtain h' | h' := le_total s.closeTime (timeOfDay now)
    · rw [max_eq_left (by linarith), max_eq_right h']
      linarith
    · rw [max_eq_right (by linarith), max_eq_left h']
      linarith
  have hbound : max s.closeTime (timeOfDay now) < daySeconds :=
    max_lt (lt_of_le_of_lt s.close_le s.deadline_lt) (timeOfDay_lt now)
  obtain ⟨hd, ht⟩ := day_timeOfDay hinst (le_max_of_le_right hnonneg) hbound
  exact ⟨hlt, hd, ht⟩

theorem squareOffAt_isSome : timeOfDay now < s.deadlineTime ↔ ∃ m, s.squareOffAt now = some m := by
  simp only [squareOffAt, pastDeadline_iff]
  split
  · next h => simp [h]
  · next h => simpa using h

theorem nextLook_skip (h : s.deadlineTime ≤ timeOfDay now) : s.nextLook x now = now + 66600 := by
  rw [nextLook, if_pos (pastDeadline_iff.mpr h)]
  norm_num [istOffsetSeconds]

theorem nextLook_pass (h : timeOfDay now < s.deadlineTime) :
    s.nextLook x now = daySeconds * day now + max s.closeTime (timeOfDay now) + x + 3600 := by
  obtain ⟨m, hm⟩ := squareOffAt_isSome.mp h
  obtain ⟨-, hday, htime⟩ := squareOffAt_some hm
  have hinst := eq_day_add m
  rw [hday, htime] at hinst
  have hnot : ¬ s.pastDeadline now := fun h' => absurd (pastDeadline_iff.mp h') (not_le.mpr h)
  rw [nextLook, if_neg hnot, ← hinst]
  rw [squareOffAt, if_neg hnot] at hm
  rw [Option.some.inj hm]

theorem nextLook_gap (hx : 0 ≤ x) : now + 3600 ≤ s.nextLook x now := by
  obtain h | h := lt_or_ge (timeOfDay now) s.deadlineTime
  · rw [nextLook_pass h]
    linarith [eq_day_add now, le_max_right s.closeTime (timeOfDay now)]
  · rw [nextLook_skip h]
    linarith

section Run
variable (hduration : ∀ n, 0 ≤ duration n)
include hduration

variable (s start) in
theorem look_gap (n : ℕ) : s.look start duration n + 3600 ≤ s.look start duration (n + 1) :=
  nextLook_gap (hduration n)

variable (s start) in
theorem look_mono {n k : ℕ} (h : n ≤ k) : s.look start duration n ≤ s.look start duration k := by
  induction k, h using Nat.le_induction with
  | base => exact le_refl _
  | succ k _ ih => linarith [look_gap s start hduration k]

/-- Later looks of the same day are at a later time of day. -/
theorem timeOfDay_look_mono {n k : ℕ} (h : n ≤ k)
    (hday : day (s.look start duration n) = day (s.look start duration k)) :
    timeOfDay (s.look start duration n) ≤ timeOfDay (s.look start duration k) := by
  have hle := look_mono s start hduration h
  have hn := eq_day_add (s.look start duration n)
  have hk := eq_day_add (s.look start duration k)
  rw [hday] at hn
  linarith

/-- After a counted day has had its pass, its later looks are past the deadline. -/
theorem past_after (hland : ∀ n, s.LandsWell start (s.look start duration n) (duration n))
    {n k : ℕ} (hk : n < k) (hcounted : s.Counted start (day (s.look start duration n)))
    (hpass : timeOfDay (s.look start duration n) < s.deadlineTime)
    (hday : day (s.look start duration k) = day (s.look start duration n)) :
    s.deadlineTime ≤ timeOfDay (s.look start duration k) := by
  have hmono : ∀ {i j : ℕ}, i ≤ j → s.look start duration i ≤ s.look start duration j :=
    look_mono s start hduration
  have hnext : day (s.look start duration (n + 1)) = day (s.look start duration n) :=
    le_antisymm (hday ▸ day_mono (hmono hk)) (day_mono (hmono (Nat.le_succ n)))
  have hpast : s.deadlineTime ≤ timeOfDay (s.look start duration (n + 1)) :=
    (hland n).2 hnext hcounted hpass
  have hlater := timeOfDay_look_mono hduration hk (hnext.trans hday.symm)
  exact hpast.trans hlater

theorem daily_of_landsWell
    (hland : ∀ n, s.LandsWell start (s.look start duration n) (duration n)) :
    s.SquaredOffDaily start duration := by
  intro d hcounted
  -- the look that takes the day
  obtain ⟨n, hday, hpass, hfirst⟩ : ∃ n, day (s.look start duration n) = d ∧
      timeOfDay (s.look start duration n) < s.deadlineTime ∧
      ∀ n' < n, day (s.look start duration n') ≠ d := by
    obtain hlater | ⟨hd, hclose⟩ := hcounted
    · obtain ⟨n, hbefore, hreach⟩ := exists_first_visit daySeconds_pos (by norm_num)
        (look_gap s start hduration) hlater
      obtain ⟨hnext, hpass⟩ := (hland n).1 (lt_of_lt_of_le hbefore hreach)
      change day (s.look start duration n) < d at hbefore
      change d ≤ day (s.look start duration (n + 1)) at hreach
      change day (s.look start duration (n + 1)) = day (s.look start duration n) + 1 at hnext
      refine ⟨n + 1, by omega, hpass, fun n' hn' => ?_⟩
      have := day_mono (look_mono s start hduration (Nat.le_of_lt_succ hn'))
      omega
    · exact ⟨0, hd.symm, lt_of_lt_of_le hclose s.close_le, fun n' hn' =>
        absurd hn' (Nat.not_lt_zero n')⟩
  obtain ⟨m, hm⟩ := squareOffAt_isSome.mp hpass
  obtain ⟨-, hdm, htm⟩ := squareOffAt_some hm
  refine ⟨n, m, hm, hdm.trans hday, htm ▸ le_max_left _ _, ?_, fun n' m' hm' hd' => ?_⟩
  · rw [htm]
    exact max_le s.close_le hpass.le
  · obtain ⟨hpass', hdm', -⟩ := squareOffAt_some hm'
    have hday' := hdm'.symm.trans hd'
    obtain hlt | heq | hgt := lt_trichotomy n' n
    · exact absurd hday' (hfirst n' hlt)
    · exact heq
    · refine absurd (past_after hduration hland hgt (hday ▸ hcounted) hpass
        (hday'.trans hday.symm)) (not_le.mpr hpass')

theorem landsWell_of_daily (hdaily : s.SquaredOffDaily start duration) (n : ℕ) :
    s.LandsWell start (s.look start duration n) (duration n) := by
  have hmono : ∀ {i j : ℕ}, i ≤ j → s.look start duration i ≤ s.look start duration j :=
    look_mono s start hduration
  refine ⟨fun hnew => ?_, fun hsame hcounted hpass => ?_⟩
  · change day (s.look start duration n) < day (s.look start duration (n + 1)) at hnew
    have hlater : day start < day (s.look start duration n) + 1 :=
      Int.lt_add_one_iff.mpr (day_mono (hmono (Nat.zero_le n)))
    obtain ⟨k, m, hm, hd, -⟩ := hdaily _ (.inl hlater)
    obtain ⟨hpass, hdm, -⟩ := squareOffAt_some hm
    have hk : n + 1 ≤ k := by
      by_contra hk
      have := day_mono (hmono (show k ≤ n by omega))
      omega
    have hle := day_mono (hmono hk)
    have hnext : day (s.look start duration (n + 1)) = day (s.look start duration n) + 1 := by
      omega
    have hday : day (s.look start duration (n + 1)) = day (s.look start duration k) := by omega
    have hearlier : timeOfDay (s.look start duration (n + 1)) < s.deadlineTime :=
      lt_of_le_of_lt (timeOfDay_look_mono hduration hk hday) hpass
    exact ⟨hnext, hearlier⟩
  · by_contra hearly
    obtain ⟨m, hm⟩ := squareOffAt_isSome.mp hpass
    obtain ⟨m', hm'⟩ := squareOffAt_isSome.mp (not_le.mp hearly)
    obtain ⟨k, -, -, -, -, -, hunique⟩ := hdaily _ hcounted
    have hn := hunique n m hm (squareOffAt_some hm).2.1
    have hn' := hunique (n + 1) m' hm' ((squareOffAt_some hm').2.1.trans hsame)
    omega

end Run

/-- A close at 05:30 or later, and a deadline less than an hour after it. -/
def Daytime (s : Schedule) : Prop :=
  19800 ≤ s.closeTime ∧ s.deadlineTime - s.closeTime < 3600

instance : Decidable s.Daytime := instDecidableAnd

/-- A look that is not more than five and a half hours past the deadline. -/
def NotTooLate (s : Schedule) (now : ℚ) : Prop := timeOfDay now < s.deadlineTime + 19800

/-- The next look after a skip is on the next day, five and a half hours earlier. -/
theorem skip_lands (hs : s.Daytime) (h : s.deadlineTime ≤ timeOfDay now) :
    day (s.nextLook x now) = day now + 1 ∧
      timeOfDay (s.nextLook x now) = timeOfDay now - 19800 := by
  have hle := s.close_le
  have hlt := timeOfDay_lt now
  refine day_timeOfDay ?_ (by linarith [hs.1]) (by linarith)
  rw [nextLook_skip h]
  have hnow := eq_day_add now
  push_cast
  norm_num [daySeconds] at hnow ⊢
  linarith

/-- The next look after a pass is past the deadline of the day, or early on the next. -/
theorem pass_lands (hs : s.Daytime) (h : timeOfDay now < s.deadlineTime) (h0 : 0 ≤ x)
    (hx : x ≤ s.deadlineTime - s.closeTime) :
    (day (s.nextLook x now) = day now ∧ s.deadlineTime ≤ timeOfDay (s.nextLook x now) ∧
      timeOfDay (s.nextLook x now) < s.deadlineTime + 7200) ∨
    (day (s.nextLook x now) = day now + 1 ∧ timeOfDay (s.nextLook x now) < s.deadlineTime) := by
  obtain ⟨hearly, hgap⟩ := hs
  have hmax : max s.closeTime (timeOfDay now) ≤ s.deadlineTime := max_le s.close_le h.le
  have hclose := le_max_left s.closeTime (timeOfDay now)
  have hdeadline := s.deadline_lt
  set v := max s.closeTime (timeOfDay now) + x + 3600 with hv
  have hnext : s.nextLook x now = daySeconds * day now + v := by
    rw [nextLook_pass h, hv]
    ring
  obtain hvlt | hvge := lt_or_ge v daySeconds
  · obtain ⟨hd, ht⟩ := day_timeOfDay hnext (by linarith) hvlt
    rw [ht]
    exact .inl ⟨hd, by linarith, by linarith⟩
  · have hlast : v - daySeconds < s.deadlineTime := by
      norm_num [daySeconds]
      linarith
    obtain ⟨hd, ht⟩ := day_timeOfDay (t := s.nextLook x now) (r := v - daySeconds)
      (d := day now + 1) (by rw [hnext]; push_cast; ring) (by linarith) (by linarith)
    rw [ht]
    exact .inr ⟨hd, hlast⟩

variable (start) in
theorem NotTooLate.lands (hs : s.Daytime) (h : s.NotTooLate now) (h0 : 0 ≤ x)
    (hx : x ≤ s.deadlineTime - s.closeTime) :
    s.LandsWell start now x ∧ s.NotTooLate (s.nextLook x now) := by
  obtain hpass | hskip := lt_or_ge (timeOfDay now) s.deadlineTime
  · obtain ⟨hd, hpast, hlate⟩ | ⟨hd, hearly⟩ := pass_lands hs hpass h0 hx
    · refine ⟨⟨fun hnew => by omega, fun _ _ _ => hpast⟩, ?_⟩
      rw [NotTooLate]
      linarith
    · refine ⟨⟨fun _ => ⟨hd, hearly⟩, fun hsame => by omega⟩, ?_⟩
      rw [NotTooLate]
      linarith
  · obtain ⟨hd, ht⟩ := skip_lands (x := x) hs hskip
    rw [NotTooLate] at h
    refine ⟨⟨fun _ => ⟨hd, by linarith⟩, fun hsame => by omega⟩, ?_⟩
    rw [NotTooLate]
    linarith

/-- A start later than that comes past the deadline of the next day. -/
theorem tooLate_misses (hs : s.Daytime) (h : ¬ s.NotTooLate start) :
    ¬ s.LandsWell start start x := by
  intro hland
  rw [NotTooLate, not_lt] at h
  obtain ⟨hd, ht⟩ := skip_lands (x := x) hs (show s.deadlineTime ≤ timeOfDay start by linarith)
  have := (hland.1 (by omega)).2
  linarith

end Schedule

/-- Every counted day is squared off once and in time, exactly when every look lands well; for a
daytime schedule, exactly when the start is less than 5:30 h past the deadline time. -/
theorem square_off_daily_iff (s : Schedule) (start : ℚ) (duration : ℕ → ℚ)
    (hduration : ∀ n, 0 ≤ duration n ∧ duration n ≤ s.deadlineTime - s.closeTime) :
    (s.SquaredOffDaily start duration ↔
      ∀ n, s.LandsWell start (s.look start duration n) (duration n)) ∧
    (s.Daytime → (s.SquaredOffDaily start duration ↔
      timeOfDay start < s.deadlineTime + istOffsetSeconds)) := by
  have hnonneg : ∀ n, 0 ≤ duration n := fun n => (hduration n).1
  refine ⟨⟨Schedule.landsWell_of_daily hnonneg, Schedule.daily_of_landsWell hnonneg⟩, fun hs => ?_⟩
  have hoffset : ((istOffsetSeconds : ℕ) : ℚ) = 19800 := by norm_num [istOffsetSeconds]
  rw [hoffset]
  constructor
  · intro hdaily
    by_contra hlate
    exact Schedule.tooLate_misses hs hlate (Schedule.landsWell_of_daily hnonneg hdaily 0)
  · intro hstart
    have hnever : ∀ n, s.NotTooLate (s.look start duration n) := by
      intro n
      induction n with
      | zero => exact hstart
      | succ n ih => exact (ih.lands start hs (hnonneg n) (hduration n).2).2
    exact Schedule.daily_of_landsWell hnonneg fun n =>
      ((hnever n).lands start hs (hnonneg n) (hduration n).2).1

theorem default_daytime : defaultSchedule.Daytime := by
  norm_num [Schedule.Daytime, defaultSchedule]

/-- On the first day an instant is its own time of day. -/
theorem timeOfDay_first {t : ℚ} (h0 : 0 ≤ t) (h1 : t < daySeconds) : timeOfDay t = t :=
  (day_timeOfDay (d := 0) (by simp) h0 h1).2

theorem square_off_daily_iff_from_ten :
    defaultSchedule.SquaredOffDaily 36000 (fun _ => 60) := by
  refine ((square_off_daily_iff defaultSchedule 36000 (fun _ => 60) fun _ => ?_).2
    default_daytime).mpr ?_
  · norm_num [defaultSchedule]
  · rw [timeOfDay_first (by norm_num) (by norm_num [daySeconds])]
    norm_num [defaultSchedule, istOffsetSeconds]

/-- Started at 21:00, the run skips the next day. -/
theorem late_start_skips_day :
    ¬ ∀ (start : ℚ) (duration : ℕ → ℚ),
      (∀ n, 0 ≤ duration n ∧
        duration n ≤ defaultSchedule.deadlineTime - defaultSchedule.closeTime) →
      defaultSchedule.SquaredOffDaily start duration := by
  intro h
  have hduration : ∀ n : ℕ, 0 ≤ (fun _ => 0 : ℕ → ℚ) n := fun _ => le_refl 0
  have hdaily := h 75600 (fun _ => 0) fun _ => by norm_num [defaultSchedule]
  refine Schedule.tooLate_misses default_daytime ?_ (Schedule.landsWell_of_daily hduration hdaily 0)
  rw [Schedule.NotTooLate, timeOfDay_first (by norm_num) (by norm_num [daySeconds])]
  norm_num [defaultSchedule]

end QuantEmbrace.SquareOffSchedule
