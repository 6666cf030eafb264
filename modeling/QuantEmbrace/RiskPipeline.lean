import QuantEmbrace.RiskContext
import QuantEmbrace.ApprovalReservation
import QuantEmbrace.Lib.Checks

/-! `validate_signal`: the steps in the order of the source, what an approval needs, and the
one thing that no live signal has. -/
namespace QuantEmbrace.RiskCheck
open Checks

/-- What one validation meets; `killSwitch` is the reason in an active cache. -/
structure Reads where
  validators : ValidatorReads
  context : ContextReads
  killSwitch : Option String := none

structure Decision extends RiskDecision where
  reason : String
  validatorResults : List RiskValidationResult
  activatesKillSwitch : Bool := false

def rejected (id reason : String) (results : List RiskValidationResult) : Decision :=
  { riskDecisionId := id, status := .REJECTED, reason := reason, validatorResults := results }

/-- The result for a context with errors; there is none for one without. -/
def contextResult (s : Signal) (errors : List String) : List RiskValidationResult :=
  if errors = [] then []
  else
    let mode := if s.paperTrade then "PAPER_WARN" else "LIVE"
    [⟨s.paperTrade, "risk_context_builder",
      mode ++ "_RISK_DATA_UNAVAILABLE: core risk context reads unavailable: " ++
        String.intercalate ", " errors⟩]

/-- The validators after the context, in order; `bid` and `ask` are those of the signal. -/
def validators (bid ask : ℚ) (cfg : RiskConfig) (v : ValidatorReads) (s : Signal)
    (ctx : RiskContext) : List (Check Caches RiskValidationResult) :=
  [fun c => (PositionCheck.validate cfg v s, c),
    fun c => (ExposureCheck.validate cfg v s, c),
    fun c => (LiquidityCheck.validate cfg s ctx.adv20d, c),
    fun c => (SpreadGate.validate cfg s ctx.liveSpreadBps, c),
    fun c => (SectorCheck.validate cfg s ctx.analytics.sectorExposures ctx.portfolioNav, c),
    MarginCheck.validate cfg v s,
    fun c => (Slippage.validate cfg v s bid ask, c),
    DailyLoss.validate cfg v s]

/-- A rejection by the daily loss validator also activates the kill switch. -/
def conclude (id : String) (before results : List RiskValidationResult) : Decision :=
  match results.find? fun r => !r.approved with
  | some r =>
    { rejected id r.reason (before ++ results) with
      activatesKillSwitch := r.validatorName = "daily_loss_validator" }
  | none =>
    { riskDecisionId := id, status := .APPROVED, reason := "All risk checks passed"
      validatorResults := before ++ results }

/-- `getattr(signal, "bid", 0.0) or 0.0`, of a class that has no such attribute. -/
def Signal.bid (_ : Signal) : ℚ := 0

def Signal.ask (_ : Signal) : ℚ := 0

section Pipeline
variable (bid ask : ℚ) (cfg : RiskConfig) (w : Reads) (s : Signal)

/-- The steps of `validate_signal`, for the bid and ask that the slippage check finds. -/
def validateQuoted (id : String) (c : Caches) : Decision × Caches :=
  let age := SignalAge.validate cfg w.validators s
  if age.approved = false then (rejected id age.reason [age], c)
  else match w.killSwitch with
    | some reason => (rejected id ("Kill switch is active: " ++ reason) [], c)
    | none =>
      let entry := EntryBlock.validate cfg w.validators s c
      if entry.1.approved = false then (rejected id entry.1.reason [entry.1], entry.2)
      else
        let recon := ReconciliationCheck.validate w.validators s entry.2
        let before := [age, entry.1, recon.1]
        if recon.1.approved = false then (rejected id recon.1.reason before, recon.2)
        else
          let ctx := RiskContextBuilder.build w.context cfg.limits
          let before := before ++ contextResult s ctx.riskDataErrors
          if s.paperTrade = false ∧ ctx.riskDataErrors ≠ [] then
            (rejected id "LIVE_RISK_DATA_UNAVAILABLE" before, recon.2)
          else
            let made := run (·.approved) (validators bid ask cfg w.validators s ctx) recon.2
            (conclude id before made.1, made.2)

def validateSignal (id : String) (c : Caches) : Decision × Caches :=
  validateQuoted s.bid s.ask cfg w s id c

/-- What each step has to say for an approval. -/
structure Cleared (c : Caches) : Prop where
  age : (SignalAge.validate cfg w.validators s).approved = true
  killSwitch : w.killSwitch = none
  entry : (EntryBlock.validate cfg w.validators s c).1.approved = true
  recon : (ReconciliationCheck.validate w.validators s c).1.approved = true
  context : s.paperTrade = true ∨ w.context.Complete
  position : (PositionCheck.validate cfg w.validators s).approved = true
  exposure : (ExposureCheck.validate cfg w.validators s).approved = true
  liquidity : (LiquidityCheck.validate cfg s (RiskContextBuilder.fetchAdv w.context).1).approved =
    true
  spread : (SpreadGate.validate cfg s
    (RiskContextBuilder.fetchLiveSpreadBps w.context).1).approved = true
  sector : (SectorCheck.validate cfg s
    (RiskContextBuilder.fetchAnalyticsSnapshot w.context).1.sectorExposures
    (RiskContextBuilder.fetchPortfolioNav w.context cfg.limits).1).approved = true
  margin : (MarginCheck.validate cfg w.validators s c).1.approved = true
  slippage : (Slippage.validate cfg w.validators s bid ask).approved = true
  dailyLoss : (DailyLoss.validate cfg w.validators s c).1.approved = true

end Pipeline

section Frames
variable (cfg : RiskConfig) (v : ValidatorReads) (s : Signal) (c : Caches)

/-- Each validator refreshes the part of the caches that is its own. -/
theorem EntryBlock.validate_caches : ∃ entry,
    (EntryBlock.validate cfg v s c).2 = { c with entry := entry } := by
  unfold EntryBlock.validate
  dsimp only
  split_ifs
  all_goals exact ⟨_, rfl⟩

theorem ReconciliationCheck.validate_caches : ∃ recon,
    (ReconciliationCheck.validate v s c).2 = { c with recon := recon } := by
  unfold ReconciliationCheck.validate
  dsimp only
  split_ifs
  all_goals exact ⟨_, rfl⟩

/-- What the margin check fetches, and keeps, depends on its own part of the caches only. -/
theorem MarginCheck.marginSnapshot_frame : ∃ fetched margin, ∀ entry recon,
    MarginCheck.marginSnapshot v s { c with entry := entry, recon := recon } =
      (fetched, { c with entry := entry, recon := recon, margin := margin }) := by
  unfold MarginCheck.marginSnapshot
  dsimp only
  cases c.margin (MarginCheck.market s) with
  | none =>
    cases v.getItem (v.margin (MarginCheck.market s)) with
    | failed | missing | item => exact ⟨_, _, fun _ _ => rfl⟩
  | some cached =>
    dsimp only
    split_ifs
    · exact ⟨_, _, fun _ _ => rfl⟩
    · cases v.getItem (v.margin (MarginCheck.market s)) with
      | failed | missing | item => exact ⟨_, _, fun _ _ => rfl⟩

theorem MarginCheck.validate_caches : ∃ margin,
    (MarginCheck.validate cfg v s c).2 = { c with margin := margin } := by
  obtain ⟨fetched, margin, hframe⟩ := MarginCheck.marginSnapshot_frame v s c
  have hown := hframe c.entry c.recon
  refine ⟨margin, ?_⟩
  unfold MarginCheck.validate
  rw [hown]
  obtain _ | _ | _ := fetched
  all_goals rfl

/-- The result of each depends on no other part. -/
theorem ReconciliationCheck.validate_entry (entry : EntryBlockCache) :
    (ReconciliationCheck.validate v s { c with entry := entry }).1 =
      (ReconciliationCheck.validate v s c).1 := by
  unfold ReconciliationCheck.validate
  dsimp only
  split_ifs <;> rfl

theorem MarginCheck.validate_flags (entry : EntryBlockCache) (recon : ReconciliationCache) :
    (MarginCheck.validate cfg v s { c with entry := entry, recon := recon }).1 =
      (MarginCheck.validate cfg v s c).1 := by
  obtain ⟨fetched, margin, hframe⟩ := MarginCheck.marginSnapshot_frame v s c
  have hown := hframe c.entry c.recon
  unfold MarginCheck.validate
  rw [hframe entry recon, hown]
  obtain _ | _ | _ := fetched
  all_goals rfl

theorem DailyLoss.validate_others (entry : EntryBlockCache) (recon : ReconciliationCache)
    (margin : String → Option MarginSnapshot) :
    (DailyLoss.validate cfg v s ⟨entry, recon, margin, c.pnl⟩).1 =
      (DailyLoss.validate cfg v s c).1 := by
  unfold DailyLoss.validate DailyLoss.realizedPnl
  dsimp only
  split_ifs
  · cases DailyLoss.fetchRealizedPnlFromDb v <;> cases DailyLoss.unrealizedPnl v <;> rfl
  · cases DailyLoss.unrealizedPnl v <;> rfl

end Frames

section Approval
variable (bid ask : ℚ) (cfg : RiskConfig) (w : Reads) (s : Signal) (id : String) (c : Caches)

theorem conclude_approved_iff (before results : List RiskValidationResult) :
    (conclude id before results).status = .APPROVED ↔ ∀ r ∈ results, r.approved = true := by
  unfold conclude
  cases h : results.find? fun r => !r.approved with
  | none =>
    refine iff_of_true rfl fun r hr => ?_
    simpa using List.find?_eq_none.mp h r hr
  | some r =>
    refine iff_of_false (by simp [rejected]) fun hall => ?_
    have hr := List.find?_some h
    rw [hall r (List.mem_of_find?_eq_some h)] at hr
    cases hr

omit bid ask cfg w s id c in
theorem rejected_ne_approved {id reason : String} {results : List RiskValidationResult} :
    (rejected id reason results).status ≠ .APPROVED := by
  simp [rejected]

/-- An approval is exactly that every step has nothing against the signal. -/
theorem validateQuoted_approved_iff :
    (validateQuoted bid ask cfg w s id c).1.status = .APPROVED ↔
      Cleared bid ask cfg w s c := by
  obtain ⟨entry, he⟩ := EntryBlock.validate_caches cfg w.validators s c
  obtain ⟨recon, hr⟩ := ReconciliationCheck.validate_caches w.validators s { c with entry := entry }
  obtain ⟨margin, hm⟩ :=
    MarginCheck.validate_caches cfg w.validators s { c with entry := entry, recon := recon }
  have herrors := RiskContextBuilder.build_errors_eq_nil_iff w.context cfg.limits
  unfold validateQuoted
  dsimp only
  rw [he, hr, ReconciliationCheck.validate_entry]
  split
  · next hage => exact iff_of_false rejected_ne_approved fun h => by rw [h.age] at hage; cases hage
  next hage =>
  split
  · next reason hkill =>
    exact iff_of_false rejected_ne_approved fun h => by rw [h.killSwitch] at hkill; cases hkill
  next hkill =>
  split
  · next hentry =>
    exact iff_of_false rejected_ne_approved fun h => by rw [h.entry] at hentry; cases hentry
  next hentry =>
  split
  · next hrecon =>
    exact iff_of_false rejected_ne_approved fun h => by rw [h.recon] at hrecon; cases hrecon
  next hrecon =>
  split
  · next hctx =>
    refine iff_of_false rejected_ne_approved fun h => ?_
    obtain hpaper | hcomplete := h.context
    · rw [hpaper] at hctx
      cases hctx.1
    · exact hctx.2 (herrors.mpr hcomplete)
  next hctx =>
  rw [conclude_approved_iff, run_all_ok_iff]
  simp only [validators, Passes, hm, MarginCheck.validate_flags,
    DailyLoss.validate_others cfg w.validators s c entry recon margin, and_true]
  have hcontext : s.paperTrade = true ∨ w.context.Complete := by
    rw [← herrors]
    cases hpaper : s.paperTrade with
    | true => exact Or.inl rfl
    | false => exact Or.inr (not_not.mp fun hne => hctx ⟨hpaper, hne⟩)
  constructor
  · rintro ⟨hp, hx, hl, hsp, hsec, hmar, hsl, hd⟩
    exact ⟨Bool.eq_true_of_not_eq_false hage, hkill, Bool.eq_true_of_not_eq_false hentry,
      Bool.eq_true_of_not_eq_false hrecon, hcontext, hp, hx, hl, hsp, hsec, hmar, hsl, hd⟩
  · intro h
    exact ⟨h.position, h.exposure, h.liquidity, h.spread, h.sector, h.margin, h.slippage,
      h.dailyLoss⟩

end Approval

end QuantEmbrace.RiskCheck
