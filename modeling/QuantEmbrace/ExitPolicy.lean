import Mathlib.Algebra.Order.Ring.Rat
import Mathlib.Data.List.Sort
import Mathlib.Tactic.FieldSimp
import Mathlib.Tactic.Linarith
import Mathlib.Tactic.Ring

/-! The exit policy of a symbol tier: what its validators accept, the prices of its stops,
targets and profit locks, and when these fit together. -/
namespace QuantEmbrace.ExitPolicy

inductive Direction where
  | long
  | short
  deriving DecidableEq, Repr

/-- `_direction_sign`, which raises on any other text. -/
def Direction.sign : Direction → ℚ
  | .long => 1
  | .short => -1

structure ProfitLockTier where
  triggerPct : ℚ
  lockPct : ℚ
  deriving DecidableEq, Repr

/-- The fields of a tier before they are validated. -/
structure TierFields where
  initialStopLossPct : ℚ
  atrStopMultiplier : ℚ := 3 / 2
  atrTrailMultiplier : ℚ := 2
  target1Pct : ℚ
  target2Pct : ℚ
  finalTargetPct : ℚ
  breakevenTriggerPct : ℚ
  profitLockTiers : List ProfitLockTier := []
  partialProfitTriggerPct : ℚ
  partialProfitQtyPct : ℚ
  trailingActivationPct : ℚ
  trailingStopPct : ℚ
  deriving DecidableEq, Repr

inductive TierError where
  | greaterThan (field : String) (bound : ℚ)
  | greaterThanEqual (field : String) (bound : ℚ)
  | lessThanEqual (field : String) (bound : ℚ)
  | triggersNotAscending (triggers : List ℚ)
  | locksDecreasing (locks : List ℚ)
  | targetsNotOrdered (target1 target2 final : ℚ)
  deriving DecidableEq, Repr

/-- `Field(..., gt=0)` -/
def positive (field : String) (x : ℚ) : List TierError :=
  if 0 < x then [] else [.greaterThan field 0]

/-- `Field(..., ge=0)` -/
def nonnegative (field : String) (x : ℚ) : List TierError :=
  if 0 ≤ x then [] else [.greaterThanEqual field 0]

def rungField (i : ℕ) (field : String) : String :=
  "profit_lock_tiers." ++ toString i ++ "." ++ field

def ProfitLockTier.errors (tier : ProfitLockTier) (i : ℕ) : List TierError :=
  positive (rungField i "trigger_pct") tier.triggerPct ++
    nonnegative (rungField i "lock_pct") tier.lockPct

def triggers (tiers : List ProfitLockTier) : List ℚ := tiers.map ProfitLockTier.triggerPct
def locks (tiers : List ProfitLockTier) : List ℚ := tiers.map ProfitLockTier.lockPct

/-- The rungs one by one, and `_tiers_ascending` once they are all good. -/
def ladderErrors (tiers : List ProfitLockTier) : List TierError :=
  match tiers.zipIdx.flatMap fun tier => tier.1.errors tier.2 with
  | [] =>
    if triggers tiers ≠ (triggers tiers).insertionSort (· ≤ ·) then
      [.triggersNotAscending (triggers tiers)]
    else if locks tiers ≠ (locks tiers).insertionSort (· ≤ ·) then [.locksDecreasing (locks tiers)]
    else []
  | errors => errors

namespace TierFields
variable (f : TierFields)

def fieldErrors : List TierError :=
  positive "initial_stop_loss_pct" f.initialStopLossPct ++
  positive "atr_stop_multiplier" f.atrStopMultiplier ++
  positive "atr_trail_multiplier" f.atrTrailMultiplier ++
  positive "target_1_pct" f.target1Pct ++
  positive "target_2_pct" f.target2Pct ++
  positive "final_target_pct" f.finalTargetPct ++
  positive "breakeven_trigger_pct" f.breakevenTriggerPct ++
  ladderErrors f.profitLockTiers ++
  positive "partial_profit_trigger_pct" f.partialProfitTriggerPct ++
  (positive "partial_profit_qty_pct" f.partialProfitQtyPct ++
    if f.partialProfitQtyPct ≤ 100 then [] else [.lessThanEqual "partial_profit_qty_pct" 100]) ++
  positive "trailing_activation_pct" f.trailingActivationPct ++
  positive "trailing_stop_pct" f.trailingStopPct

/-- All that validation reports; `_targets_ordered` runs on fields that are good. -/
def errors : List TierError :=
  match f.fieldErrors with
  | [] =>
    if f.target1Pct ≤ f.target2Pct ∧ f.target2Pct ≤ f.finalTargetPct then []
    else [.targetsNotOrdered f.target1Pct f.target2Pct f.finalTargetPct]
  | errors => errors

end TierFields

/-- A tier that has passed its validators. -/
structure ExitTierPolicy extends TierFields where
  accepted : toTierFields.errors = []

def ExitTierPolicy.modelValidate (f : TierFields) : Except (List TierError) ExitTierPolicy :=
  if h : f.errors = [] then .ok ⟨f, h⟩ else .error f.errors

/-- `_favourable` -/
def favourable (entry : ℚ) (direction : Direction) (pct : ℚ) : ℚ :=
  entry * (1 + direction.sign * pct / 100)

/-- `_adverse` -/
def adverse (entry : ℚ) (direction : Direction) (pct : ℚ) : ℚ :=
  entry * (1 - direction.sign * pct / 100)

def favourableMovePct (entry lastPrice : ℚ) (direction : Direction) : ℚ :=
  direction.sign * (lastPrice - entry) / entry * 100

inductive TargetLevel where
  | first
  | second
  | final
  deriving DecidableEq, Repr

/-- The tolerance of `profit_lock_stop`. -/
def armingTolerance : ℚ := 1 / 10 ^ 9

/-- The loop of `profit_lock_stop`, with the rung that is armed so far. -/
def armedTier (favourableMovePct : ℚ) : Option ProfitLockTier → List ProfitLockTier →
    Option ProfitLockTier
  | armed, [] => armed
  | armed, tier :: tiers =>
    if tier.triggerPct ≤ favourableMovePct + armingTolerance then
      armedTier favourableMovePct (some tier) tiers
    else armed

namespace ExitTierPolicy
variable (p : ExitTierPolicy)

def initialStopPrice (entry : ℚ) (direction : Direction) (atr : Option ℚ) : ℚ :=
  match atr.filter fun atr => 0 < atr with
  | some atr => entry - direction.sign * p.atrStopMultiplier * atr
  | none => adverse entry direction p.initialStopLossPct

def targetPct : TargetLevel → ℚ
  | .first => p.target1Pct
  | .second => p.target2Pct
  | .final => p.finalTargetPct

def targetPrice (entry : ℚ) (direction : Direction) (which : TargetLevel) : ℚ :=
  favourable entry direction (p.targetPct which)

def profitLockStop (entry : ℚ) (direction : Direction) (favourableMovePct : ℚ) : Option ℚ :=
  (armedTier favourableMovePct none p.profitLockTiers).map fun armed =>
    favourable entry direction armed.lockPct

end ExitTierPolicy

def tighterStop (existing : Option ℚ) (candidate : ℚ) (direction : Direction) : ℚ :=
  match existing, direction with
  | none, _ => candidate
  | some existing, .long => max existing candidate
  | some existing, .short => min existing candidate

section Accepted

@[simp] theorem positive_eq_nil {field : String} {x : ℚ} : positive field x = [] ↔ 0 < x := by
  simp [positive]

@[simp] theorem nonnegative_eq_nil {field : String} {x : ℚ} :
    nonnegative field x = [] ↔ 0 ≤ x := by
  simp [nonnegative]

/-- A ladder that climbs: every rung is good, and none is below the one before it. -/
structure Climbing (tiers : List ProfitLockTier) : Prop where
  triggerPct : ∀ tier ∈ tiers, 0 < tier.triggerPct
  lockPct : ∀ tier ∈ tiers, 0 ≤ tier.lockPct
  triggers : tiers.Pairwise fun a b => a.triggerPct ≤ b.triggerPct
  locks : tiers.Pairwise fun a b => a.lockPct ≤ b.lockPct

theorem pairwise_of_eq_insertionSort {xs : List ℚ} (h : xs = xs.insertionSort (· ≤ ·)) :
    xs.Pairwise (· ≤ ·) :=
  h ▸ List.pairwise_insertionSort (· ≤ ·) xs

theorem climbing_of_ladderErrors {tiers : List ProfitLockTier} (h : ladderErrors tiers = []) :
    Climbing tiers := by
  rw [ladderErrors] at h
  split at h
  · next hrungs =>
    split at h
    · cases h
    next htriggers =>
    split at h
    · cases h
    next hlocks =>
    have hrung : ∀ tier ∈ tiers, 0 < tier.triggerPct ∧ 0 ≤ tier.lockPct := by
      intro tier htier
      obtain ⟨i, hi⟩ := List.getElem?_of_mem htier
      have hnil := List.flatMap_eq_nil_iff.mp hrungs (tier, i)
        (List.mem_zipIdx_iff_getElem?.mpr hi)
      simpa [ProfitLockTier.errors] using hnil
    exact ⟨fun tier htier => (hrung tier htier).1, fun tier htier => (hrung tier htier).2,
      List.pairwise_map.mp (pairwise_of_eq_insertionSort (not_not.mp htriggers)),
      List.pairwise_map.mp (pairwise_of_eq_insertionSort (not_not.mp hlocks))⟩
  · next hrungs => exact absurd h hrungs

/-- What the prices below need of the fields. -/
structure TierFields.Valid (f : TierFields) : Prop where
  initialStopLossPct : 0 < f.initialStopLossPct
  target1Pct : 0 < f.target1Pct
  target1_le : f.target1Pct ≤ f.target2Pct
  target2_le : f.target2Pct ≤ f.finalTargetPct
  ladder : Climbing f.profitLockTiers

theorem ExitTierPolicy.valid (p : ExitTierPolicy) : p.Valid := by
  have h := p.accepted
  rw [TierFields.errors] at h
  split at h
  · next hfields =>
    split at h
    · next hordered =>
      simp only [TierFields.fieldErrors, List.append_eq_nil_iff, positive_eq_nil] at hfields
      obtain ⟨⟨⟨⟨⟨⟨⟨⟨⟨⟨⟨hstop, -⟩, -⟩, htarget⟩, -⟩, -⟩, -⟩, hladder⟩, -⟩, -⟩, -⟩, -⟩ := hfields
      exact ⟨hstop, htarget, hordered.1, hordered.2, climbing_of_ladderErrors hladder⟩
    · cases h
  · next hfields => exact absurd h hfields

end Accepted

section Ladder
variable {move : ℚ} {tiers : List ProfitLockTier} {tier : ProfitLockTier}

/-- A rung that is armed has been reached. -/
theorem reached_of_armedTier {armed : Option ProfitLockTier}
    (h : armedTier move armed tiers = some tier) :
    armed = some tier ∨ (tier ∈ tiers ∧ tier.triggerPct ≤ move + armingTolerance) := by
  induction tiers generalizing armed with
  | nil => exact .inl h
  | cons t ts ih =>
    rw [armedTier] at h
    split at h
    · next hreached =>
      obtain hnow | ⟨hmem, hlater⟩ := ih h
      · obtain rfl := Option.some.inj hnow
        exact .inr ⟨List.mem_cons_self, hreached⟩
      · exact .inr ⟨List.mem_cons_of_mem t hmem, hlater⟩
    · exact .inl h

/-- The rung that is armed locks no less than any rung reached, nor than the one before it. -/
theorem le_lock_armedTier (hclimbing : Climbing tiers) {armed : Option ProfitLockTier}
    (hbelow : ∀ t ∈ armed, ∀ u ∈ tiers, t.lockPct ≤ u.lockPct)
    (h : armed = some tier ∨ (tier ∈ tiers ∧ tier.triggerPct ≤ move + armingTolerance)) :
    ∃ top, armedTier move armed tiers = some top ∧ tier.lockPct ≤ top.lockPct := by
  induction tiers generalizing armed tier with
  | nil =>
    obtain h | ⟨hmem, -⟩ := h
    · exact ⟨tier, h, le_rfl⟩
    · exact absurd hmem List.not_mem_nil
  | cons t ts ih =>
    obtain ⟨hpos, hnonneg, htriggers, hlocks⟩ := hclimbing
    obtain ⟨hfirst, htriggers⟩ := List.pairwise_cons.mp htriggers
    obtain ⟨hlocked, hlocks⟩ := List.pairwise_cons.mp hlocks
    have hrest : Climbing ts :=
      ⟨fun u hu => hpos u (List.mem_cons_of_mem t hu),
        fun u hu => hnonneg u (List.mem_cons_of_mem t hu), htriggers, hlocks⟩
    have hnext : ∀ u ∈ some t, ∀ v ∈ ts, u.lockPct ≤ v.lockPct := by
      rintro u ⟨⟩ v hv
      exact hlocked v hv
    rw [armedTier]
    split
    · obtain h | ⟨hmem, hreached⟩ := h
      · obtain ⟨top, htop, hle⟩ := ih hrest hnext (.inl rfl)
        exact ⟨top, htop, (hbelow tier h t List.mem_cons_self).trans hle⟩
      · obtain rfl | hmem := List.mem_cons.mp hmem
        · exact ih hrest hnext (.inl rfl)
        · exact ih hrest hnext (.inr ⟨hmem, hreached⟩)
    · next hstop =>
      obtain h | ⟨hmem, hreached⟩ := h
      · exact ⟨tier, h, le_rfl⟩
      · obtain rfl | hmem := List.mem_cons.mp hmem
        · exact absurd hreached hstop
        · exact absurd ((hfirst tier hmem).trans hreached) hstop

end Ladder

/-- A price as seen by a position of that direction: more is more profit. -/
def Direction.worth (direction : Direction) (price : ℚ) : ℚ := direction.sign * price

/-- The stop after a sequence of candidates. -/
def tightened (existing : Option ℚ) (candidates : List ℚ) (direction : Direction) : Option ℚ :=
  candidates.foldl (fun stop candidate => some (tighterStop stop candidate direction)) existing

/-- The stop is below the entry and the targets above it, a lock is not above the price that arms
it and never goes back, and no candidate loosens a stop: all as the direction sees prices. -/
structure Coherent (p : ExitTierPolicy) : Prop where
  stop : ∀ entry (d : Direction), 0 < entry → 0 < p.initialStopPrice entry d none ∧
    d.worth (p.initialStopPrice entry d none) < d.worth entry
  targetsPositive : ∀ entry (d : Direction) which, 0 < entry → 0 < p.targetPrice entry d which
  targets : ∀ entry (d : Direction), 0 < entry →
    d.worth entry < d.worth (p.targetPrice entry d .first) ∧
    d.worth (p.targetPrice entry d .first) ≤ d.worth (p.targetPrice entry d .second) ∧
    d.worth (p.targetPrice entry d .second) ≤ d.worth (p.targetPrice entry d .final)
  lock : ∀ entry (d : Direction) price stop, 0 < entry →
    p.profitLockStop entry d (favourableMovePct entry price d) = some stop →
    d.worth stop ≤ d.worth price
  lockMonotone : ∀ entry (d : Direction) move move' stop, 0 < entry → move ≤ move' →
    p.profitLockStop entry d move = some stop →
    ∃ stop', p.profitLockStop entry d move' = some stop' ∧ d.worth stop ≤ d.worth stop'
  tightens : ∀ existing candidates (d : Direction) earlier stop, earlier <+: candidates →
    tightened existing earlier d = some stop →
    ∃ stop', tightened existing candidates d = some stop' ∧ d.worth stop ≤ d.worth stop'

section Prices
variable {entry pct price : ℚ} {d : Direction}

theorem Direction.sign_mul_self (d : Direction) : d.sign * d.sign = 1 := by
  cases d <;> norm_num [Direction.sign]

theorem worth_favourable :
    d.worth (favourable entry d pct) = d.worth entry + entry * pct / 100 := by
  have hsign := d.sign_mul_self
  have hexpand : d.worth (favourable entry d pct) =
      d.worth entry + entry * (d.sign * d.sign) * pct / 100 := by
    rw [Direction.worth, Direction.worth, favourable]
    ring
  rw [hexpand, hsign, mul_one]

theorem adverse_eq : adverse entry d pct = favourable entry d (-pct) := by
  rw [adverse, favourable]
  ring

theorem worth_favourable_mono {pct' : ℚ} (hentry : 0 < entry) (h : pct ≤ pct') :
    d.worth (favourable entry d pct) ≤ d.worth (favourable entry d pct') := by
  have hscaled := mul_le_mul_of_nonneg_left h hentry.le
  rw [worth_favourable, worth_favourable]
  linarith

/-- A percentage below one hundred leaves the price positive on either side. -/
theorem favourable_pos (hentry : 0 < entry) (hlow : -100 < pct) (hhigh : pct < 100) :
    0 < favourable entry d pct := by
  rw [favourable]
  refine mul_pos hentry ?_
  cases d
  · simp only [Direction.sign]
    linarith
  · simp only [Direction.sign]
    linarith

/-- A price that has moved by the percentage or more. -/
theorem worth_le_of_move (hentry : 0 < entry) (h : pct ≤ favourableMovePct entry price d) :
    d.worth (favourable entry d pct) ≤ d.worth price := by
  have hmove : entry * favourableMovePct entry price d / 100 = d.worth price - d.worth entry := by
    rw [favourableMovePct, Direction.worth, Direction.worth]
    field_simp
  have hscaled := mul_le_mul_of_nonneg_left h hentry.le
  rw [worth_favourable]
  linarith

end Prices

theorem worth_tighterStop (d : Direction) (existing : Option ℚ) (candidate stop : ℚ)
    (h : existing = some stop) : d.worth stop ≤ d.worth (tighterStop existing candidate d) := by
  subst h
  cases d
  · simp [tighterStop, Direction.worth, Direction.sign]
  · simp [tighterStop, Direction.worth, Direction.sign]

theorem worth_tightened (d : Direction) (candidates : List ℚ) {existing : Option ℚ} {stop : ℚ}
    (h : existing = some stop) :
    ∃ stop', tightened existing candidates d = some stop' ∧ d.worth stop ≤ d.worth stop' := by
  induction candidates generalizing existing stop with
  | nil => exact ⟨stop, h, le_rfl⟩
  | cons c cs ih =>
    obtain ⟨stop', hstop', hle⟩ := ih rfl
    exact ⟨stop', hstop', (worth_tighterStop d existing c stop h).trans hle⟩

namespace ExitTierPolicy
variable (p : ExitTierPolicy)

theorem profitLockStop_eq_some {entry move stop : ℚ} {d : Direction}
    (h : p.profitLockStop entry d move = some stop) :
    ∃ tier ∈ p.profitLockTiers, tier.triggerPct ≤ move + armingTolerance ∧
      stop = favourable entry d tier.lockPct := by
  obtain ⟨tier, harmed, rfl⟩ := Option.map_eq_some_iff.mp h
  obtain hnone | ⟨hmem, hreached⟩ := reached_of_armedTier harmed
  · cases hnone
  · exact ⟨tier, hmem, hreached, rfl⟩

/-- The stop locks at least as much as any rung reached. -/
theorem profitLockStop_of_reached {entry move : ℚ} (d : Direction) {tier : ProfitLockTier}
    (hentry : 0 < entry) (hmem : tier ∈ p.profitLockTiers)
    (hreached : tier.triggerPct ≤ move + armingTolerance) :
    ∃ stop, p.profitLockStop entry d move = some stop ∧
      d.worth (favourable entry d tier.lockPct) ≤ d.worth stop := by
  have hnone : ∀ t ∈ (none : Option ProfitLockTier), ∀ u ∈ p.profitLockTiers,
      t.lockPct ≤ u.lockPct := by simp
  obtain ⟨top, htop, hle⟩ := le_lock_armedTier p.valid.ladder hnone (.inr ⟨hmem, hreached⟩)
  exact ⟨favourable entry d top.lockPct, by rw [profitLockStop, htop]; rfl,
    worth_favourable_mono hentry hle⟩

end ExitTierPolicy

section Coherent
variable {p : ExitTierPolicy}

theorem stop_iff : (∀ entry (d : Direction), 0 < entry → 0 < p.initialStopPrice entry d none ∧
    d.worth (p.initialStopPrice entry d none) < d.worth entry) ↔ p.initialStopLossPct < 100 := by
  have hpos := p.valid.initialStopLossPct
  simp only [ExitTierPolicy.initialStopPrice, Option.filter_none, adverse_eq]
  constructor
  · intro h
    have hlong := (h 100 .long (by norm_num)).1
    simp only [favourable, Direction.sign] at hlong
    linarith
  · intro hlt entry d hentry
    have hgap := mul_pos hentry hpos
    refine ⟨favourable_pos hentry (by linarith) (by linarith), ?_⟩
    rw [worth_favourable]
    linarith

theorem targetPct_bounds (which : TargetLevel) :
    0 < p.targetPct which ∧ p.targetPct which ≤ p.finalTargetPct := by
  have hvalid := p.valid
  have hfirst := hvalid.target1Pct
  have hsecond := hvalid.target1_le
  have hfinal := hvalid.target2_le
  cases which with
  | first => exact ⟨hfirst, hsecond.trans hfinal⟩
  | second => exact ⟨hfirst.trans_le hsecond, hfinal⟩
  | final => exact ⟨hfirst.trans_le (hsecond.trans hfinal), le_rfl⟩

theorem targetsPositive_iff : (∀ entry (d : Direction) which, 0 < entry →
    0 < p.targetPrice entry d which) ↔ p.finalTargetPct < 100 := by
  constructor
  · intro h
    have hshort := h 100 .short .final (by norm_num)
    simp only [ExitTierPolicy.targetPrice, ExitTierPolicy.targetPct, favourable,
      Direction.sign] at hshort
    linarith
  · intro hlt entry d which hentry
    obtain ⟨hpos, hle⟩ := @targetPct_bounds p which
    exact favourable_pos hentry (by linarith) (hle.trans_lt hlt)

theorem targets_ordered (p : ExitTierPolicy) {entry : ℚ} (d : Direction) (hentry : 0 < entry) :
    d.worth entry < d.worth (p.targetPrice entry d .first) ∧
      d.worth (p.targetPrice entry d .first) ≤ d.worth (p.targetPrice entry d .second) ∧
      d.worth (p.targetPrice entry d .second) ≤ d.worth (p.targetPrice entry d .final) := by
  have hfirst := mul_pos hentry p.valid.target1Pct
  simp only [ExitTierPolicy.targetPrice, ExitTierPolicy.targetPct]
  refine ⟨?_, worth_favourable_mono hentry p.valid.target1_le,
    worth_favourable_mono hentry p.valid.target2_le⟩
  rw [worth_favourable]
  linarith

/-- A rung is armed at the lowest price for it exactly where its trigger is, less the tolerance. -/
theorem lock_iff : (∀ entry (d : Direction) price stop, 0 < entry →
    p.profitLockStop entry d (favourableMovePct entry price d) = some stop →
    d.worth stop ≤ d.worth price) ↔
      ∀ tier ∈ p.profitLockTiers, tier.lockPct ≤ tier.triggerPct - armingTolerance := by
  constructor
  · intro h tier htier
    have hmove : favourableMovePct 100 (100 + (tier.triggerPct - armingTolerance)) .long =
        tier.triggerPct - armingTolerance := by
      rw [favourableMovePct, Direction.sign]
      ring
    obtain ⟨stop, hstop, hlocks⟩ := p.profitLockStop_of_reached .long (by norm_num : (0 : ℚ) < 100)
      htier (sub_add_cancel tier.triggerPct armingTolerance).ge
    have hquiet := h 100 .long (100 + (tier.triggerPct - armingTolerance)) stop
      (by norm_num) (by rw [hmove]; exact hstop)
    have hle := hlocks.trans hquiet
    rw [worth_favourable] at hle
    simp only [Direction.worth, Direction.sign] at hle
    linarith
  · intro hladder entry d price stop hentry hlock
    obtain ⟨tier, hmem, hreached, rfl⟩ := p.profitLockStop_eq_some hlock
    have hlocks := hladder tier hmem
    exact worth_le_of_move hentry (by linarith)

/-- An accepted policy is coherent exactly when its stop and its final target are less than the
price away, and every rung locks less than it takes to arm it. -/
theorem coherent_iff (p : ExitTierPolicy) : Coherent p ↔
    p.initialStopLossPct < 100 ∧ p.finalTargetPct < 100 ∧
      ∀ tier ∈ p.profitLockTiers, tier.lockPct ≤ tier.triggerPct - armingTolerance := by
  rw [← stop_iff, ← targetsPositive_iff, ← lock_iff]
  constructor
  · intro h
    exact ⟨h.stop, h.targetsPositive, h.lock⟩
  · intro ⟨hstop, htargets, hlock⟩
    refine ⟨hstop, htargets, fun entry d hentry => targets_ordered p d hentry, hlock, ?_, ?_⟩
    · intro entry d move move' stop hentry hle hstop
      obtain ⟨tier, hmem, hreached, rfl⟩ := p.profitLockStop_eq_some hstop
      exact p.profitLockStop_of_reached d hentry hmem (hreached.trans (by linarith))
    · rintro existing candidates d earlier stop ⟨later, rfl⟩ hearlier
      rw [tightened, List.foldl_append]
      exact worth_tightened d later hearlier

end Coherent

/-- A stop a hundred and fifty percent away, a target two hundred, and a rung that locks more than
arms it. -/
def wideTier : ExitTierPolicy where
  initialStopLossPct := 150
  target1Pct := 1
  target2Pct := 2
  finalTargetPct := 200
  breakevenTriggerPct := 1
  profitLockTiers := [⟨1 / 2, 1⟩]
  partialProfitTriggerPct := 1
  partialProfitQtyPct := 50
  trailingActivationPct := 1
  trailingStopPct := 1
  accepted := by decide +kernel

/-- Bought at 100 it has its stop at -50, sold at 100 its final target at -100, and at 100.5 its
lock stop is at 101. -/
theorem wideTier_incoherent : ¬ ∀ p : ExitTierPolicy, Coherent p := by
  intro h
  have hlock := (h wideTier).lock 100 .long (201 / 2) 101 (by norm_num) (by decide +kernel)
  revert hlock
  decide +kernel

end QuantEmbrace.ExitPolicy
