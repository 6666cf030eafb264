import QuantEmbrace.RiskValidators

/-! `RiskContextBuilder.build`: the reads made for one signal, the figures that take their
place when they fail, and the errors that say so. -/
namespace QuantEmbrace.RiskCheck

/-- A stored ISO time: not there or empty, not one, or in seconds. -/
inductive StoredTime where
  | absent
  | invalid
  | parsed (t : ℚ)
  deriving DecidableEq, Repr

structure AdvItem where
  adv30d : Option ℚ := none
  adv20d : Option ℚ := none
  deriving DecidableEq, Repr

structure QuoteItem where
  spreadBps : Option ℚ := none
  capturedAt : StoredTime := .absent
  deriving DecidableEq, Repr

structure SnapshotItem where
  sectorExposures : String → Option ℚ := fun _ => none
  portfolioVar2pct : Option ℚ := none
  portfolioPnlToday : Option ℚ := none
  computedAt : StoredTime := .absent

/-- What the reads of the builder meet; a query of none has raised. -/
structure ContextReads where
  now : ℚ
  dynamo : Bool := true
  position : ItemRead PositionRow
  pending : String → Option (List (Option ℚ))
  adv : ItemRead AdvItem
  quote : ItemRead QuoteItem
  nav : ItemRead (Option ℚ)
  snapshot : ItemRead SnapshotItem
  exposureScan : List (Option (List PositionRow))

structure PositionState where
  confirmedQuantity : ℚ := 0
  pendingQuantity : ℚ := 0
  avgEntryPrice : ℚ := 0
  deriving DecidableEq, Repr

structure AnalyticsSnapshot where
  sectorExposures : String → Option ℚ := fun _ => none
  portfolioVar2pct : ℚ := 0
  portfolioPnlToday : ℚ := 0
  computedAt : Option ℚ := none

structure RiskContext where
  position : PositionState
  currentExposure : ℚ
  portfolioNav : ℚ
  analytics : AnalyticsSnapshot
  liveSpreadBps : Option ℚ
  adv20d : Option ℚ
  riskDataErrors : List String

/-- A figure of the context with the errors that its reads record. -/
abbrev Fetched (α : Type*) := α × List String

namespace RiskContextBuilder
variable (r : ContextReads)

def fetchPositionState : Fetched PositionState :=
  if r.dynamo = false then ({}, ["position_state:dynamo_unavailable"])
  else match r.position with
    | .failed => ({}, ["position_state:read_failed"])
    | .missing => ({}, [])
    | .item row =>
      ({ confirmedQuantity := row.confirmedQuantity.getD 0
         avgEntryPrice := row.avgEntryPrice.getD 0 }, [])

/-- The body of the loop over the two statuses; a failed one adds nothing. -/
def fetchPendingOf (status code : String) : Fetched ℚ :=
  match r.pending status with
  | none => (0, [code])
  | some items => ((items.map (·.getD 0)).sum, [])

def fetchPendingQuantity : Fetched ℚ :=
  if r.dynamo = false then (0, ["pending_quantity:dynamo_unavailable"])
  else
    let pending := fetchPendingOf r "PENDING" "pending_quantity:pending_read_failed"
    let placed := fetchPendingOf r "PLACED" "pending_quantity:placed_read_failed"
    (pending.1 + placed.1, pending.2 ++ placed.2)

def fetchAdv : Fetched (Option ℚ) :=
  if r.dynamo = false then (none, ["adv:dynamo_unavailable"])
  else match r.adv with
    | .failed => (none, ["adv:read_failed"])
    | .missing => (none, ["adv:missing"])
    | .item a =>
      match a.adv20d, a.adv30d with
      | some adv, _ => (some adv, [])
      | none, some adv => (some adv, [])
      | none, none => (none, ["adv:missing"])

def fetchLiveSpreadBps : Fetched (Option ℚ) :=
  if r.dynamo = false then (none, ["live_spread:dynamo_unavailable"])
  else match r.quote with
    | .failed => (none, ["live_spread:read_failed"])
    | .missing => (none, ["live_spread:missing"])
    | .item quote =>
      match quote.spreadBps, quote.capturedAt with
      | none, _ => (none, ["live_spread:missing"])
      | some _, .absent => (none, ["live_spread:timestamp_missing"])
      | some _, .invalid => (none, ["live_spread:timestamp_invalid"])
      | some spread, .parsed t =>
        if 30 < r.now - t then (none, ["live_spread:stale"]) else (some spread, [])

def fetchPortfolioNav (limits : RiskLimits) : Fetched ℚ :=
  if r.dynamo = false then (limits.portfolioValue, ["portfolio_nav:dynamo_unavailable"])
  else match r.nav with
    | .failed => (limits.portfolioValue, ["portfolio_nav:read_failed"])
    | .missing => (limits.portfolioValue, ["portfolio_nav:missing_or_non_positive"])
    | .item nav =>
      if 0 < nav.getD 0 then (nav.getD 0, [])
      else (limits.portfolioValue, ["portfolio_nav:missing_or_non_positive"])

def fetchAnalyticsSnapshot : Fetched AnalyticsSnapshot :=
  if r.dynamo = false then ({}, ["analytics_snapshot:dynamo_unavailable"])
  else match r.snapshot with
    | .failed => ({}, ["analytics_snapshot:read_failed"])
    | .missing => ({}, ["analytics_snapshot:missing"])
    | .item a =>
      let read (computedAt : Option ℚ) : AnalyticsSnapshot :=
        ⟨a.sectorExposures, a.portfolioVar2pct.getD 0, a.portfolioPnlToday.getD 0, computedAt⟩
      match a.computedAt with
      | .absent => (read none, ["analytics_snapshot:timestamp_missing"])
      | .invalid => (read none, ["analytics_snapshot:timestamp_invalid"])
      | .parsed t => (read (some t), [])

def fetchTotalExposure : Fetched ℚ :=
  if r.dynamo = false then (0, ["total_exposure:dynamo_unavailable"])
  else match readPages r.exposureScan with
    | none => (0, ["total_exposure:scan_failed"])
    | some rows => (ExposureCheck.exposureOf rows, [])

/-- The reads run at one time; their errors are listed as they stand in the call. -/
def riskDataErrors (limits : RiskLimits) : List String :=
  (fetchPositionState r).2 ++ (fetchPendingQuantity r).2 ++ (fetchAdv r).2 ++
    (fetchLiveSpreadBps r).2 ++ (fetchPortfolioNav r limits).2 ++ (fetchAnalyticsSnapshot r).2 ++
    (fetchTotalExposure r).2

def build (limits : RiskLimits) : RiskContext where
  position := { (fetchPositionState r).1 with pendingQuantity := (fetchPendingQuantity r).1 }
  currentExposure := (fetchTotalExposure r).1
  portfolioNav := (fetchPortfolioNav r limits).1
  analytics := (fetchAnalyticsSnapshot r).1
  liveSpreadBps := (fetchLiveSpreadBps r).1
  adv20d := (fetchAdv r).1
  riskDataErrors := (riskDataErrors r limits).eraseDups

end RiskContextBuilder

namespace ContextReads
variable (r : ContextReads)

/-- An average daily volume is there. -/
def HasAdv : Prop := ∃ a, r.adv = .item a ∧ (a.adv20d.isSome ∨ a.adv30d.isSome)

/-- A spread is there, captured at most thirty seconds ago. -/
def HasSpread : Prop :=
  ∃ quote t, r.quote = .item quote ∧ quote.spreadBps.isSome ∧ quote.capturedAt = .parsed t ∧
    r.now - t ≤ 30

def HasNav : Prop := ∃ nav, r.nav = .item (some nav) ∧ 0 < nav

def HasSnapshot : Prop := ∃ a t, r.snapshot = .item a ∧ a.computedAt = .parsed t

/-- No read raises, and those that need an item find one with its figures. A symbol without
a row, an order or any position is a flat one. -/
structure Complete : Prop where
  dynamo : r.dynamo = true
  position : r.position ≠ .failed
  pending : r.pending "PENDING" ≠ none
  placed : r.pending "PLACED" ≠ none
  adv : r.HasAdv
  spread : r.HasSpread
  nav : r.HasNav
  snapshot : r.HasSnapshot
  exposure : readPages r.exposureScan ≠ none

end ContextReads

namespace RiskContextBuilder
variable {r : ContextReads} (hd : r.dynamo = true)
include hd

theorem fetchPositionState_errors : (fetchPositionState r).2 = [] ↔ r.position ≠ .failed := by
  unfold fetchPositionState
  cases r.position <;> simp [hd]

theorem fetchPendingQuantity_errors :
    (fetchPendingQuantity r).2 = [] ↔ r.pending "PENDING" ≠ none ∧ r.pending "PLACED" ≠ none := by
  unfold fetchPendingQuantity fetchPendingOf
  cases r.pending "PENDING" <;> cases r.pending "PLACED" <;> simp [hd]

theorem fetchAdv_errors : (fetchAdv r).2 = [] ↔ r.HasAdv := by
  unfold fetchAdv ContextReads.HasAdv
  cases r.adv with
  | failed => simp [hd]
  | missing => simp [hd]
  | item a => cases h₂ : a.adv20d <;> cases h₃ : a.adv30d <;> simp [hd, h₂, h₃]

theorem fetchLiveSpreadBps_errors : (fetchLiveSpreadBps r).2 = [] ↔ r.HasSpread := by
  unfold fetchLiveSpreadBps ContextReads.HasSpread
  cases r.quote with
  | failed => simp [hd]
  | missing => simp [hd]
  | item quote =>
    cases hs : quote.spreadBps with
    | none => simp [hd, hs]
    | some spread =>
      cases ht : quote.capturedAt with
      | absent => simp [hd, hs, ht]
      | invalid => simp [hd, hs, ht]
      | parsed t =>
        by_cases hold : 30 < r.now - t
        · simp [hd, hs, ht, hold, lt_sub_iff_add_lt.mp hold]
        · simp [hd, hs, ht, hold, sub_le_iff_le_add.mp (not_lt.mp hold)]

theorem fetchPortfolioNav_errors (limits : RiskLimits) :
    (fetchPortfolioNav r limits).2 = [] ↔ r.HasNav := by
  unfold fetchPortfolioNav ContextReads.HasNav
  cases r.nav with
  | failed => simp [hd]
  | missing => simp [hd]
  | item nav =>
    cases nav with
    | none => simp [hd]
    | some nav => by_cases hpos : 0 < nav <;> simp [hd, hpos]

theorem fetchAnalyticsSnapshot_errors : (fetchAnalyticsSnapshot r).2 = [] ↔ r.HasSnapshot := by
  unfold fetchAnalyticsSnapshot ContextReads.HasSnapshot
  cases r.snapshot with
  | failed => simp [hd]
  | missing => simp [hd]
  | item a => cases ht : a.computedAt <;> simp [hd, ht]

theorem fetchTotalExposure_errors :
    (fetchTotalExposure r).2 = [] ↔ readPages r.exposureScan ≠ none := by
  unfold fetchTotalExposure
  cases readPages r.exposureScan <;> simp [hd]

omit hd

/-- The context is without errors exactly when all its reads are complete. -/
theorem build_errors_eq_nil_iff (r : ContextReads) (limits : RiskLimits) :
    (build r limits).riskDataErrors = [] ↔ r.Complete := by
  have hdups : (build r limits).riskDataErrors = [] ↔ riskDataErrors r limits = [] := by
    rw [build]
    cases riskDataErrors r limits <;> simp [List.eraseDups_cons]
  rw [hdups]
  cases hd : r.dynamo with
  | false =>
    constructor
    · intro h
      simp [riskDataErrors, fetchPositionState, hd] at h
    · intro h
      rw [h.dynamo] at hd
      cases hd
  | true =>
    simp only [riskDataErrors, List.append_eq_nil_iff, fetchPositionState_errors hd,
      fetchPendingQuantity_errors hd, fetchAdv_errors hd, fetchLiveSpreadBps_errors hd,
      fetchPortfolioNav_errors hd, fetchAnalyticsSnapshot_errors hd,
      fetchTotalExposure_errors hd]
    constructor
    · intro ⟨⟨⟨⟨⟨⟨hp, hpending, hplaced⟩, ha⟩, hs⟩, hn⟩, hsnap⟩, he⟩
      exact ⟨hd, hp, hpending, hplaced, ha, hs, hn, hsnap, he⟩
    · intro h
      exact ⟨⟨⟨⟨⟨⟨h.position, h.pending, h.placed⟩, h.adv⟩, h.spread⟩, h.nav⟩, h.snapshot⟩,
        h.exposure⟩

end RiskContextBuilder

end QuantEmbrace.RiskCheck
