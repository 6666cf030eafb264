import QuantEmbrace.Lib.Consecutive
import QuantEmbrace.Lib.Stamped
import Mathlib.Order.MinMax

/-! The monitor that trips the kill switch when the risk engine's consumer falls behind. -/
namespace QuantEmbrace.LagMonitor
open Consecutive Stamped

/-- A partition that is assigned to the consumer: the end of its log, if that can be read, and the
position, which is negative until something has been fetched. -/
structure Partition where
  high : Option ℤ
  offset : ℤ
  deriving DecidableEq, Repr

/-- How far behind a partition is known to be. -/
def Partition.lag (p : Partition) : Option ℤ :=
  if p.offset < 0 then none else p.high.map fun high => max 0 (high - p.offset)

/-- What the monitor meets: no consumer; a client that raises when it is asked for its assignment
or its positions; or the partitions. -/
inductive Reading where
  | noConsumer
  | raised
  | assigned (partitions : List Partition)
  deriving DecidableEq, Repr

/-- `measure_consumer_lag` -/
def measureConsumerLag : Reading → Option ℤ
  | .noConsumer => some 0
  | .raised => none
  | .assigned partitions => some <|
      partitions.foldl (fun maxLag p => p.lag.elim maxLag (max maxLag)) 0

structure Config where
  threshold : ℤ
  consecutiveChecks : ℕ
  consecutiveChecks_pos : 0 < consecutiveChecks

/-- `__init__` with whole numbers -/
def Config.init (thresholdMessages consecutiveChecks : ℤ) : Config where
  threshold := max 0 thresholdMessages
  consecutiveChecks := (max 1 consecutiveChecks).toNat
  consecutiveChecks_pos := by
    have hpos : 0 < max 1 consecutiveChecks := lt_of_lt_of_le (by decide) (le_max_left _ _)
    exact Int.lt_toNat.mpr hpos

/-- The monitor; a call that raises ends its loop. -/
structure Monitor where
  breachCount : ℕ := 0
  activated : Bool := false
  running : Bool := true
  deriving DecidableEq, Repr

variable (cfg : Config)

/-- `check_once`, and whether it calls `activate`. -/
def Monitor.checkOnce (m : Monitor) (r : Reading) : Monitor × Bool :=
  if m.running = false ∨ cfg.threshold ≤ 0 ∨ m.activated = true then (m, false)
  else match measureConsumerLag r with
    | none => ({ m with running := false }, false)
    | some lag =>
      if lag ≤ cfg.threshold then ({ m with breachCount := 0 }, false)
      else
        let breachCount := m.breachCount + 1
        if cfg.consecutiveChecks ≤ breachCount then
          ({ m with breachCount, activated := true }, true)
        else ({ m with breachCount }, false)

/-- The monitor beside the kill switch, and how often it has called `activate`. -/
structure World where
  monitor : Monitor := {}
  active : Bool := false
  calls : ℕ := 0
  deriving DecidableEq, Repr

/-- One check; or somebody else activates the switch, or the operator clears it. -/
inductive Event where
  | check (r : Reading)
  | activate
  | deactivate
  deriving DecidableEq, Repr

def World.step (w : World) : Event → World
  | .check r =>
    let (monitor, called) := w.monitor.checkOnce cfg r
    { monitor, active := w.active || called, calls := w.calls + called.toNat }
  | .activate => { w with active := true }
  | .deactivate => { w with active := false }

def World.run (events : List Event) : World := events.foldl (World.step cfg) {}

/-- Some partition is known to be too far behind. -/
def Breaches (r : Reading) : Prop :=
  ∃ partitions, r = .assigned partitions ∧
    ∃ p ∈ partitions, ∃ high, p.high = some high ∧ 0 ≤ p.offset ∧ cfg.threshold < high - p.offset

section Measure
variable {cfg} {partitions : List Partition}

theorem Partition.lag_eq_some {p : Partition} {lag : ℤ} : p.lag = some lag ↔
    ∃ high, p.high = some high ∧ 0 ≤ p.offset ∧ lag = max 0 (high - p.offset) := by
  rw [Partition.lag]
  split
  · next hneg => exact iff_of_false nofun fun ⟨_, _, hle, _⟩ => not_lt.mpr hle hneg
  · next hle =>
    rw [Option.map_eq_some_iff]
    exact exists_congr fun high => and_congr_right fun _ =>
      ⟨fun h => ⟨not_lt.mp hle, h.symm⟩, fun h => h.2.symm⟩

/-- The fold goes to the largest lag. -/
theorem lt_measure_iff {threshold start : ℤ} :
    threshold < partitions.foldl (fun maxLag p => p.lag.elim maxLag (max maxLag)) start ↔
      threshold < start ∨ ∃ p ∈ partitions, ∃ lag, p.lag = some lag ∧ threshold < lag := by
  induction partitions generalizing start with
  | nil => simp
  | cons p partitions ih =>
    rw [List.foldl_cons, ih]
    cases hlag : p.lag with
    | none => simp [hlag]
    | some lag => simp [hlag, or_assoc]

theorem measureConsumerLag_eq_none {r : Reading} : measureConsumerLag r = none ↔ r = .raised := by
  cases r <;> simp [measureConsumerLag]

theorem breaches_iff {r : Reading} (hthreshold : 0 ≤ cfg.threshold) :
    Breaches cfg r ↔ ∃ lag, measureConsumerLag r = some lag ∧ cfg.threshold < lag := by
  cases r with
  | noConsumer => simp [Breaches, measureConsumerLag, hthreshold]
  | raised => simp [Breaches, measureConsumerLag]
  | assigned partitions =>
    simp only [Breaches, measureConsumerLag, Reading.assigned.injEq, exists_eq_left',
      Option.some.injEq, lt_measure_iff, Partition.lag_eq_some, not_lt.mpr hthreshold, false_or]
    refine exists_congr fun p => and_congr_right fun _ => ?_
    constructor
    · rintro ⟨high, hhigh, hle, hlt⟩
      exact ⟨_, ⟨high, hhigh, hle, rfl⟩, lt_max_of_lt_right hlt⟩
    · rintro ⟨_, ⟨high, hhigh, hle, rfl⟩, hlt⟩
      obtain hzero | hlt := lt_max_iff.mp hlt
      · exact absurd hzero (not_lt.mpr hthreshold)
      · exact ⟨high, hhigh, hle, hlt⟩

end Measure

section Monitor
variable {cfg} {m : Monitor} {r : Reading} {rs : List Reading}

/-- A check that counts. -/
def Above (cfg : Config) (r : Reading) : Prop :=
  (measureConsumerLag r).any (cfg.threshold < ·) = true

instance : DecidablePred (Above cfg) := fun _ => inferInstanceAs (Decidable (_ = true))

/-- At some check the last ones in a row, as many as are asked for, count, and none has raised
before. -/
def Trips (cfg : Config) (rs : List Reading) : Prop :=
  ∃ pre r post, rs = pre ++ r :: post ∧ (∀ x ∈ pre ++ [r], x ≠ .raised) ∧
    LastAll (Above cfg) cfg.consecutiveChecks (pre ++ [r]).reverse

theorem trips_snoc : Trips cfg (rs ++ [r]) ↔ Trips cfg rs ∨
    ((∀ x ∈ rs ++ [r], x ≠ .raised) ∧
      LastAll (Above cfg) cfg.consecutiveChecks (rs ++ [r]).reverse) := by
  constructor
  · rintro ⟨pre, x, post, heq, hquiet, hlast⟩
    obtain ⟨-, rfl, rfl⟩ | ⟨post', -, hpre⟩ := split_snoc.mp heq
    · exact .inr ⟨hquiet, hlast⟩
    · exact .inl ⟨pre, x, post', hpre, hquiet, hlast⟩
  · rintro (⟨pre, x, post, rfl, hquiet, hlast⟩ | ⟨hquiet, hlast⟩)
    · exact ⟨pre, x, post ++ [r], by simp, hquiet, hlast⟩
    · exact ⟨rs, r, [], rfl, hquiet, hlast⟩

/-- Where the monitor is after the checks. -/
structure Tracks (cfg : Config) (rs : List Reading) (m : Monitor) : Prop where
  activated : m.activated = true ↔ Trips cfg rs
  running : m.activated = false → (m.running = true ↔ ∀ x ∈ rs, x ≠ .raised)
  breachCount : m.activated = false → m.running = true →
    m.breachCount = streak (Above cfg) rs.reverse

theorem Tracks.checkOnce (h : Tracks cfg rs m) (hthreshold : 0 < cfg.threshold) :
    Tracks cfg (rs ++ [r]) (m.checkOnce cfg r).1 := by
  rw [Monitor.checkOnce]
  by_cases hactivated : m.activated = true
  · rw [if_pos (.inr (.inr hactivated))]
    exact ⟨iff_of_true hactivated (trips_snoc.mpr (.inl (h.activated.mp hactivated))),
      fun hoff => absurd (hoff.symm.trans hactivated) (by simp),
      fun hoff => absurd (hoff.symm.trans hactivated) (by simp)⟩
  rw [Bool.not_eq_true] at hactivated
  have huntripped : ¬Trips cfg rs := fun htrips => by
    rw [← h.activated, hactivated] at htrips
    cases htrips
  by_cases hrunning : m.running = true
  · have hquiet := (h.running hactivated).mp hrunning
    have hcount := h.breachCount hactivated hrunning
    rw [if_neg (by simp [hrunning, hactivated, hthreshold])]
    cases hmeasure : measureConsumerLag r with
    | none =>
      have hraised : ¬∀ x ∈ rs ++ [r], x ≠ .raised := fun hall =>
        hall r (by simp) (measureConsumerLag_eq_none.mp hmeasure)
      refine ⟨iff_of_false (by simp [hactivated]) ?_, fun _ => iff_of_false (by simp) hraised,
        fun _ hon => by cases hon⟩
      rw [trips_snoc]
      exact fun htrips => htrips.elim huntripped fun hlast => hraised hlast.1
    | some lag =>
      have hall : ∀ x ∈ rs ++ [r], x ≠ .raised := by
        refine List.forall_mem_append.mpr ⟨hquiet, ?_⟩
        rintro x hx rfl
        rw [← List.mem_singleton.mp hx] at hmeasure
        cases hmeasure
      have hsnoc : Trips cfg (rs ++ [r]) ↔
          cfg.consecutiveChecks ≤ streak (Above cfg) (r :: rs.reverse) := by
        rw [trips_snoc, or_iff_right huntripped, and_iff_right hall, lastAll_iff_le_streak]
        simp
      dsimp only
      by_cases hlag : lag ≤ cfg.threshold
      · have habove : ¬Above cfg r := by simp [Above, hmeasure, hlag]
        rw [if_pos hlag]
        rw [streak_cons_of_neg habove] at hsnoc
        refine ⟨iff_of_false (by simp [hactivated]) ?_, fun _ => iff_of_true hrunning hall,
          fun _ _ => ?_⟩
        · exact fun htrips => not_lt.mpr (hsnoc.mp htrips) cfg.consecutiveChecks_pos
        · simp [streak_cons_of_neg habove]
      · have habove : Above cfg r := by simpa [Above, hmeasure] using hlag
        rw [if_neg hlag]
        rw [streak_cons_of_pos habove, ← hcount] at hsnoc
        split
        · next hreached =>
          exact ⟨iff_of_true rfl (hsnoc.mpr hreached), (fun hoff => by cases hoff),
            (fun hoff => by cases hoff)⟩
        · next hunder =>
          refine ⟨iff_of_false (by simp [hactivated]) (hunder ∘ hsnoc.mp),
            fun _ => iff_of_true hrunning hall, fun _ _ => ?_⟩
          simp [streak_cons_of_pos habove, hcount]
  · have hraised : ¬∀ x ∈ rs ++ [r], x ≠ .raised := fun hall =>
      hrunning ((h.running hactivated).mpr (List.forall_mem_append.mp hall).1)
    rw [if_pos (.inl (Bool.not_eq_true _ ▸ hrunning))]
    refine ⟨iff_of_false (by simp [hactivated]) ?_, fun _ => iff_of_false hrunning hraised,
      fun _ hon => absurd hon hrunning⟩
    rw [trips_snoc]
    exact fun htrips => htrips.elim huntripped fun hlast => hraised hlast.1

theorem Tracks.foldl (hthreshold : 0 < cfg.threshold) (rs : List Reading) :
    Tracks cfg rs (rs.foldl (fun m r => (m.checkOnce cfg r).1) {}) := by
  induction rs using List.reverseRecOn with
  | nil => exact ⟨iff_of_false (by simp) (by simp [Trips]), by simp, by simp [streak]⟩
  | append_singleton rs r ih =>
    rw [List.foldl_append]
    exact ih.checkOnce hthreshold

/-- Once it has tripped the switch, or if it is turned off, it does nothing. -/
theorem checkOnce_idle (h : cfg.threshold ≤ 0 ∨ m.activated = true) :
    m.checkOnce cfg r = (m, false) := by
  rw [Monitor.checkOnce, if_pos (.inr h)]

/-- It calls exactly when it comes to be activated. -/
theorem checkOnce_called (h : m.activated = false) :
    (m.checkOnce cfg r).2 = (m.checkOnce cfg r).1.activated := by
  rw [Monitor.checkOnce]
  split
  · exact h.symm
  · split
    · exact h.symm
    · split
      · exact h.symm
      · dsimp only
        split
        · rfl
        · exact h.symm

end Monitor

section Runs
variable {cfg} {w : World}

def checks (events : List Event) : List Reading :=
  events.filterMap fun
    | .check r => some r
    | _ => none

theorem monitor_run (events : List Event) : (World.run cfg events).monitor =
    (checks events).foldl (fun m r => (m.checkOnce cfg r).1) {} := by
  induction events using List.reverseRecOn with
  | nil => rfl
  | append_singleton events e ih =>
    rw [World.run, List.foldl_append, checks, List.filterMap_append, List.foldl_append]
    rw [World.run, checks] at ih
    rw [← ih]
    cases e <;> rfl

theorem calls_run (events : List Event) :
    (World.run cfg events).calls = (World.run cfg events).monitor.activated.toNat := by
  induction events using List.reverseRecOn with
  | nil => rfl
  | append_singleton events e ih =>
    rw [World.run, List.foldl_append]
    rw [World.run] at ih
    cases e with
    | check r =>
      generalize events.foldl (World.step cfg) {} = w at ih ⊢
      change w.calls + (w.monitor.checkOnce cfg r).2.toNat =
        (w.monitor.checkOnce cfg r).1.activated.toNat
      cases hactivated : w.monitor.activated with
      | true => rw [checkOnce_idle (.inr hactivated), ih, Bool.toNat_false, Nat.add_zero]
      | false =>
        rw [checkOnce_called hactivated, ih, hactivated, Bool.toNat_false, Nat.zero_add]
    | activate => exact ih
    | deactivate => exact ih

/-- After its call the monitor leaves the switch alone. -/
theorem active_foldl {post : List Event} (hactivated : w.monitor.activated = true)
    (hquiet : .activate ∉ post) (hcleared : w.active = false ∨ .deactivate ∈ post) :
    (post.foldl (World.step cfg) w).active = false := by
  induction post generalizing w with
  | nil => exact hcleared.resolve_right List.not_mem_nil
  | cons e post ih =>
    rw [List.mem_cons, not_or] at hquiet
    rw [List.foldl_cons]
    cases e with
    | check r =>
      have hidle : w.step cfg (.check r) = w := by
        rw [World.step, checkOnce_idle (.inr hactivated)]
        simp
      rw [hidle]
      exact ih hactivated hquiet.2 (hcleared.imp_right fun hmem => by simpa using hmem)
    | activate => exact absurd rfl hquiet.1
    | deactivate => exact ih hactivated hquiet.2 (.inl rfl)

/-- The monitor trips the kill switch once in the life of the process: when at so many checks in
a row some partition was known to be too far behind, and no call before has raised. If the switch
is cleared after that, only others trip it again. -/
theorem lag_trip_iff (cfg : Config) (events : List Event) :
    ((World.run cfg events).calls = 1 ↔ 0 < cfg.threshold ∧
      ∃ pre r post, checks events = pre ++ r :: post ∧ (∀ x ∈ pre ++ [r], x ≠ .raised) ∧
        LastAll (Breaches cfg) cfg.consecutiveChecks (pre ++ [r]).reverse) ∧
    (World.run cfg events).calls ≤ 1 ∧
    ∀ pre post, events = pre ++ post → (World.run cfg pre).calls = 1 → .activate ∉ post →
      .deactivate ∈ post → (World.run cfg events).active = false := by
  refine ⟨?_, ?_, ?_⟩
  · rw [calls_run, Bool.toNat_eq_one, monitor_run]
    by_cases hthreshold : 0 < cfg.threshold
    · have habove : ∀ r, Above cfg r ↔ Breaches cfg r := fun r => by
        rw [breaches_iff hthreshold.le, Above, Option.any_eq_true]
        simp
      rw [(Tracks.foldl hthreshold _).activated, and_iff_right hthreshold, Trips]
      simp only [LastAll, habove]
    · refine iff_of_false ?_ fun h => hthreshold h.1
      have hidle : ∀ rs : List Reading,
          rs.foldl (fun m r => (m.checkOnce cfg r).1) ({} : Monitor) = {} := by
        intro rs
        induction rs with
        | nil => rfl
        | cons r rs ih => rw [List.foldl_cons, checkOnce_idle (.inl (not_lt.mp hthreshold)), ih]
      rw [hidle]
      simp
  · rw [calls_run]
    exact Bool.toNat_le _
  · rintro pre post rfl hcalls hquiet hcleared
    rw [calls_run, Bool.toNat_eq_one] at hcalls
    rw [World.run, List.foldl_append]
    exact active_foldl hcalls hquiet (.inr hcleared)

end Runs

end QuantEmbrace.LagMonitor
