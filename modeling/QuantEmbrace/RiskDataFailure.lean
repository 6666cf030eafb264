import QuantEmbrace.LiveApproval

/-! Reads that fail, or come back without the data their step needs, and what the step then
makes of the signal. -/
namespace QuantEmbrace.RiskCheck

/-- The reads behind the entry block, the context and the validators. -/
inductive RiskRead where
  | entryBlock
  | positionState | pendingOrders | placedOrders | adv | liveSpread | nav | snapshot
  | totalExposure
  | confirmed | inFlight (status : String)
  | exposures
  | sector
  | margin
  | slippageAdv
  | pnlDay | filledOrders | unrealized
  deriving DecidableEq, Repr

section Stages
variable (bid ask : ℚ) (cfg : RiskConfig) (w : Reads) (s : Signal) (c : Caches)

/-- The check after the context has been built. -/
def contextApproves : Bool :=
  s.paperTrade || (RiskContextBuilder.build w.context cfg.limits).riskDataErrors.isEmpty

/-- The day's P&L is not in the cache, or thirty seconds old. -/
def PnlStale : Prop :=
  c.pnl.date ≠ some w.validators.today ∨ 30 ≤ w.validators.mono - c.pnl.fetchedAt

/-- The read is made and raises, or comes back without data that its step cannot do
without. An absent row of the entry block, of a position or of the day's P&L is data, as an
empty list of orders or positions is. -/
def Unavailable : RiskRead → Prop
  | .entryBlock => s.isCloseout = false ∧ EntryBlock.failClosed cfg = true ∧
      5 ≤ w.validators.mono - c.entry.cachedAt ∧
      w.validators.getItem w.validators.entryBlock = .failed
  | .positionState => w.context.dynamo = false ∨ w.context.position = .failed
  | .pendingOrders => w.context.dynamo = false ∨ w.context.pending "PENDING" = none
  | .placedOrders => w.context.dynamo = false ∨ w.context.pending "PLACED" = none
  | .adv => w.context.dynamo = false ∨ ¬w.context.HasAdv
  | .liveSpread => w.context.dynamo = false ∨ ¬w.context.HasSpread
  | .nav => w.context.dynamo = false ∨ ¬w.context.HasNav
  | .snapshot => w.context.dynamo = false ∨ ¬w.context.HasSnapshot
  | .totalExposure => w.context.dynamo = false ∨ readPages w.context.exposureScan = none
  | .confirmed => w.validators.getItem w.validators.confirmed = .failed
  | .inFlight status => status ∈ ["PENDING", "PLACED", "PARTIALLY_FILLED"] ∧
      (w.validators.dynamo = false ∨ w.validators.inFlight status = none)
  | .exposures => w.validators.dynamo = false ∨ readPages w.validators.exposureScan = none
  | .sector => SectorCheck.getSector cfg s = "UNKNOWN"
  | .margin => (∀ a, c.margin (MarginCheck.market s) = some a →
        5 ≤ w.validators.mono - a.fetchedAtMono) ∧
      (w.validators.getItem (w.validators.margin (MarginCheck.market s)) = .failed ∨
        w.validators.getItem (w.validators.margin (MarginCheck.market s)) = .missing)
  | .slippageAdv => ∀ adv, Slippage.getAdv w.validators = some adv → adv ≤ 0
  | .pnlDay => PnlStale w c ∧ w.validators.getItem w.validators.pnlDay = .failed
  | .filledOrders => PnlStale w c ∧ w.validators.getItem w.validators.pnlDay = .missing ∧
      readPages w.validators.filledOrders = none
  | .unrealized => w.validators.dynamo = false ∨ readPages w.validators.unrealizedScan = none

/-- What the steps that use a read say to the signal. -/
def stageApproves : RiskRead → Bool
  | .entryBlock => (EntryBlock.validate cfg w.validators s c).1.approved
  | .positionState | .pendingOrders | .placedOrders | .nav | .snapshot | .totalExposure =>
    contextApproves cfg w s
  | .adv => contextApproves cfg w s &&
      (LiquidityCheck.validate cfg s (RiskContextBuilder.fetchAdv w.context).1).approved
  | .liveSpread => contextApproves cfg w s &&
      (SpreadGate.validate cfg s (RiskContextBuilder.fetchLiveSpreadBps w.context).1).approved
  | .confirmed | .inFlight _ => (PositionCheck.validate cfg w.validators s).approved
  | .exposures => (ExposureCheck.validate cfg w.validators s).approved
  | .sector => (SectorCheck.validate cfg s
      (RiskContextBuilder.fetchAnalyticsSnapshot w.context).1.sectorExposures
      (RiskContextBuilder.fetchPortfolioNav w.context cfg.limits).1).approved
  | .margin => (MarginCheck.validate cfg w.validators s c).1.approved
  | .slippageAdv => (Slippage.validate cfg w.validators s bid ask).approved
  | .pnlDay | .filledOrders | .unrealized => (DailyLoss.validate cfg w.validators s c).1.approved

end Stages

section Failing
variable {bid ask : ℚ} {cfg : RiskConfig} {w : Reads} {s : Signal} {c : Caches}

theorem EntryBlock.rejected_of_unavailable (h : Unavailable cfg w s c .entryBlock) :
    (EntryBlock.validate cfg w.validators s c).1.approved = false := by
  obtain ⟨hcloseout, hclosed, hstale, hfailed⟩ := h
  have hprofile : cfg.riskProfile ≠ "paper" := of_decide_eq_true hclosed
  have hread : (EntryBlock.refreshIfStale w.validators c.entry).readOk = false := by
    rw [EntryBlock.refreshIfStale, if_neg hstale.not_gt, hfailed]
  simp [EntryBlock.validate, hcloseout, hprofile, hread, hclosed]

theorem contextApproves_of_incomplete (h : ¬w.context.Complete) :
    contextApproves cfg w s = s.paperTrade := by
  rw [← RiskContextBuilder.build_errors_eq_nil_iff _ cfg.limits] at h
  rw [contextApproves, List.isEmpty_eq_false_iff.mpr h, Bool.or_false]

theorem fetchAdv_of_unavailable (h : Unavailable cfg w s c .adv) :
    (RiskContextBuilder.fetchAdv w.context).1 = none := by
  unfold RiskContextBuilder.fetchAdv
  unfold Unavailable ContextReads.HasAdv at h
  cases hd : w.context.dynamo with
  | false => rfl
  | true =>
    cases ha : w.context.adv with
    | failed | missing => rfl
    | item a =>
      have hnone : a.adv20d = none ∧ a.adv30d = none := by simpa [hd, ha] using h
      simp [hnone.1, hnone.2]

theorem fetchLiveSpreadBps_of_unavailable (h : Unavailable cfg w s c .liveSpread) :
    (RiskContextBuilder.fetchLiveSpreadBps w.context).1 = none := by
  unfold RiskContextBuilder.fetchLiveSpreadBps
  cases hd : w.context.dynamo with
  | false => rfl
  | true =>
    have hspread : ¬w.context.HasSpread := h.resolve_left (by simp [hd])
    cases hq : w.context.quote with
    | failed | missing => rfl
    | item quote =>
      cases hs : quote.spreadBps with
      | none => simp [hs]
      | some spread =>
        cases ht : quote.capturedAt with
        | absent | invalid => simp [hs, ht]
        | parsed t =>
          have hold : 30 < w.context.now - t := by
            by_contra hfresh
            exact hspread ⟨quote, t, hq, by simp [hs], ht, not_lt.mp hfresh⟩
          simp [hs, ht, hold]

theorem PositionCheck.approved_of_confirmed (h : Unavailable cfg w s c .confirmed) :
    (PositionCheck.validate cfg w.validators s).approved = s.paperTrade := by
  have hnone : confirmedPosition w.validators = none := by
    unfold confirmedPosition
    rw [show w.validators.getItem w.validators.confirmed = .failed from h]
  rw [validate, hnone]
  exact riskDataUnavailableResult_approved _ _ _

theorem PositionCheck.approved_of_inFlight {status : String}
    (h : Unavailable cfg w s c (.inFlight status)) :
    (PositionCheck.validate cfg w.validators s).approved = s.paperTrade := by
  obtain ⟨hstatus, hread⟩ := h
  have hnone : pendingQuantity w.validators = none := by
    unfold pendingQuantity
    obtain hd | hquery := hread
    · rw [hd]
      rfl
    · simp only [List.mem_cons, List.not_mem_nil, or_false] at hstatus
      obtain rfl | rfl | rfl := hstatus <;> simp [hquery]
  rw [validate, hnone]
  cases confirmedPosition w.validators <;> exact riskDataUnavailableResult_approved _ _ _

theorem ExposureCheck.approved_of_unavailable (h : Unavailable cfg w s c .exposures) :
    (ExposureCheck.validate cfg w.validators s).approved = s.paperTrade := by
  have hnone : totalExposure w.validators = none := by
    unfold totalExposure
    obtain hd | hscan := h
    · rw [hd]
      rfl
    · rw [hscan, Option.map_none, ite_self]
  rw [validate, hnone]
  exact riskDataUnavailableResult_approved _ _ _

theorem MarginCheck.approved_of_unavailable (h : Unavailable cfg w s c .margin) :
    (MarginCheck.validate cfg w.validators s c).1.approved = s.paperTrade := by
  obtain ⟨hstale, hread⟩ := h
  unfold MarginCheck.validate marginSnapshot
  cases hc : c.margin (market s) with
  | none => obtain hr | hr := hread <;> simp [hr]
  | some a =>
    dsimp only
    rw [if_neg (hstale a hc).not_gt]
    obtain hr | hr := hread <;> simp [hr]

theorem Slippage.approved_of_unavailable (h : Unavailable cfg w s c .slippageAdv) :
    (Slippage.validate cfg w.validators s bid ask).approved = s.paperTrade := by
  unfold Slippage.validate
  split
  · exact riskDataUnavailableResult_approved _ _ _
  · cases hadv : getAdv w.validators with
    | none => exact riskDataUnavailableResult_approved _ _ _
    | some adv =>
      dsimp only
      rw [if_pos (h adv hadv)]
      exact riskDataUnavailableResult_approved _ _ _

theorem DailyLoss.approved_of_realized (hstale : PnlStale w c)
    (h : fetchRealizedPnlFromDb w.validators = none) :
    (DailyLoss.validate cfg w.validators s c).1.approved = s.paperTrade := by
  have hrealized : realizedPnl w.validators c = (none, c) := by
    unfold PnlStale at hstale
    rw [realizedPnl, if_pos hstale, h]
  rw [validate, hrealized]
  exact riskDataUnavailableResult_approved _ _ _

theorem DailyLoss.approved_of_unrealized (h : Unavailable cfg w s c .unrealized) :
    (DailyLoss.validate cfg w.validators s c).1.approved = s.paperTrade := by
  have hnone : unrealizedPnl w.validators = none := by
    unfold unrealizedPnl
    obtain hd | hscan := h
    · rw [hd]
      rfl
    · rw [hscan, Option.map_none, ite_self]
  unfold DailyLoss.validate
  cases realizedPnl w.validators c with
  | mk realized c' =>
    cases realized with
    | none => exact riskDataUnavailableResult_approved _ _ _
    | some realized =>
      simp only [hnone]
      exact riskDataUnavailableResult_approved _ _ _

/-- Each step but the entry block leaves it to the mode of the signal. -/
theorem stageApproves_of_unavailable {r : RiskRead} (hr : r ≠ .entryBlock)
    (h : Unavailable cfg w s c r) : stageApproves bid ask cfg w s c r = s.paperTrade := by
  have hcontext (hincomplete : ¬w.context.Complete) :
      contextApproves cfg w s = s.paperTrade := contextApproves_of_incomplete hincomplete
  cases r with
  | entryBlock => exact absurd rfl hr
  | positionState =>
    exact hcontext fun hc => h.elim (by simp [hc.dynamo]) hc.position
  | pendingOrders => exact hcontext fun hc => h.elim (by simp [hc.dynamo]) hc.pending
  | placedOrders => exact hcontext fun hc => h.elim (by simp [hc.dynamo]) hc.placed
  | nav => exact hcontext fun hc => h.elim (by simp [hc.dynamo]) fun hn => hn hc.nav
  | snapshot => exact hcontext fun hc => h.elim (by simp [hc.dynamo]) fun hn => hn hc.snapshot
  | totalExposure => exact hcontext fun hc => h.elim (by simp [hc.dynamo]) hc.exposure
  | adv =>
    have hc := hcontext fun hc => h.elim (by simp [hc.dynamo]) fun hn => hn hc.adv
    simp [stageApproves, hc, fetchAdv_of_unavailable h, LiquidityCheck.validate]
  | liveSpread =>
    have hc := hcontext fun hc => h.elim (by simp [hc.dynamo]) fun hn => hn hc.spread
    simp [stageApproves, hc, fetchLiveSpreadBps_of_unavailable h, SpreadGate.validate]
  | confirmed => exact PositionCheck.approved_of_confirmed h
  | inFlight status => exact PositionCheck.approved_of_inFlight h
  | exposures => exact ExposureCheck.approved_of_unavailable h
  | sector =>
    unfold Unavailable at h
    simp [stageApproves, SectorCheck.validate, h]
  | margin => exact MarginCheck.approved_of_unavailable h
  | slippageAdv => exact Slippage.approved_of_unavailable h
  | pnlDay =>
    refine DailyLoss.approved_of_realized h.1 ?_
    rw [DailyLoss.fetchRealizedPnlFromDb, h.2]
  | filledOrders =>
    refine DailyLoss.approved_of_realized h.1 ?_
    rw [DailyLoss.fetchRealizedPnlFromDb, h.2.1]
    simp only [h.2.2, Option.map_none]
  | unrealized => exact DailyLoss.approved_of_unrealized h

/-- Every step of an approval has approved. -/
theorem Cleared.stageApproves (h : Cleared bid ask cfg w s c) (r : RiskRead) :
    stageApproves bid ask cfg w s c r = true := by
  have hcontext : contextApproves cfg w s = true := by
    obtain hpaper | hcomplete := h.context
    · rw [contextApproves, hpaper, Bool.true_or]
    · rw [contextApproves, (RiskContextBuilder.build_errors_eq_nil_iff _ _).mpr hcomplete]
      exact Bool.or_true _
  cases r with
  | entryBlock => exact h.entry
  | positionState | pendingOrders | placedOrders | nav | snapshot | totalExposure =>
    exact hcontext
  | adv => exact Bool.and_eq_true_iff.mpr ⟨hcontext, h.liquidity⟩
  | liveSpread => exact Bool.and_eq_true_iff.mpr ⟨hcontext, h.spread⟩
  | confirmed | inFlight => exact h.position
  | exposures => exact h.exposure
  | sector => exact h.sector
  | margin => exact h.margin
  | slippageAdv => exact h.slippage
  | pnlDay | filledOrders | unrealized => exact h.dailyLoss

/-- What the sector check counts with when the NAV or the snapshot is not to be had. -/
theorem sector_fallback :
    (Unavailable cfg w s c .nav →
      (RiskContextBuilder.fetchPortfolioNav w.context cfg.limits).1 =
        cfg.limits.portfolioValue) ∧
    (w.context.dynamo = false ∨ w.context.snapshot = .failed ∨ w.context.snapshot = .missing →
      (RiskContextBuilder.fetchAnalyticsSnapshot w.context).1.sectorExposures = fun _ => none) := by
  constructor
  · intro h
    unfold RiskContextBuilder.fetchPortfolioNav
    cases hd : w.context.dynamo with
    | false => rfl
    | true =>
      have hnav : ¬w.context.HasNav := h.resolve_left (by simp [hd])
      cases hn : w.context.nav with
      | failed | missing => rfl
      | item nav =>
        cases nav with
        | none => rfl
        | some nav =>
          have hpos : ¬0 < nav := fun hpos => hnav ⟨nav, hn, hpos⟩
          simp [hpos]
  · intro h
    unfold RiskContextBuilder.fetchAnalyticsSnapshot
    obtain hd | hfailed | hmissing := h
    · rw [if_pos hd]
    · rw [hfailed]
      split <;> rfl
    · rw [hmissing]
      split <;> rfl

end Failing

/-- Live, a read that fails or lacks its data is answered by a rejection of its step, and no
combination of such reads is approved. In paper mode the step lets the signal through; the
entry block does so in the paper profile, and the sector check goes on with the configured
portfolio value and with no exposure. -/
theorem risk_data_fails_closed (bid ask : ℚ) (cfg : RiskConfig) (w : Reads) (s : Signal)
    (c : Caches) (id : String) :
    (s.paperTrade = false → ∀ r, Unavailable cfg w s c r →
      stageApproves bid ask cfg w s c r = false ∧
        (validateQuoted bid ask cfg w s id c).1.status = .REJECTED) ∧
    (s.paperTrade = true →
      (∀ r, r ≠ .entryBlock → Unavailable cfg w s c r →
        stageApproves bid ask cfg w s c r = true) ∧
      (cfg.riskProfile = "paper" → stageApproves bid ask cfg w s c .entryBlock = true) ∧
      (Unavailable cfg w s c .entryBlock →
        stageApproves bid ask cfg w s c .entryBlock = false)) ∧
    (Unavailable cfg w s c .nav →
      (RiskContextBuilder.fetchPortfolioNav w.context cfg.limits).1 =
        cfg.limits.portfolioValue) ∧
    (w.context.dynamo = false ∨ w.context.snapshot = .failed ∨ w.context.snapshot = .missing →
      (RiskContextBuilder.fetchAnalyticsSnapshot w.context).1.sectorExposures =
        fun _ => none) := by
  refine ⟨fun hlive r h => ?_, fun hpaper => ⟨fun r hr h => ?_, fun hprofile => ?_,
    EntryBlock.rejected_of_unavailable⟩, sector_fallback (s := s) (c := c)⟩
  · have hrejects : stageApproves bid ask cfg w s c r = false := by
      by_cases hr : r = .entryBlock
      · rw [hr] at h ⊢
        exact EntryBlock.rejected_of_unavailable h
      · rw [stageApproves_of_unavailable hr h, hlive]
    refine ⟨hrejects, ?_⟩
    cases hstatus : (validateQuoted bid ask cfg w s id c).1.status with
    | REJECTED => rfl
    | APPROVED =>
      have hcleared := (validateQuoted_approved_iff bid ask cfg w s id c).mp hstatus
      rw [hcleared.stageApproves r] at hrejects
      cases hrejects
  · rw [stageApproves_of_unavailable hr h, hpaper]
  · have hexempt : (s.paperTrade && decide (cfg.riskProfile = "paper")) = true := by
      simp [hpaper, hprofile]
    simp only [stageApproves, EntryBlock.validate, if_pos hexempt]
    split <;> rfl

/-- A symbol without a position row is no reason to reject; and in a live profile the entry
block does reject a paper signal when its read fails. -/
theorem absent_row_approved_and_paper_entry_blocked :
    (¬∀ (cfg : RiskConfig) (w : Reads) (s : Signal), s.paperTrade = false →
      w.validators.confirmed = .missing →
        (PositionCheck.validate cfg w.validators s).approved = false ∨
          contextApproves cfg w s = false) ∧
    ¬∀ (cfg : RiskConfig) (w : Reads) (s : Signal) (c : Caches), s.paperTrade = true →
      w.validators.entryBlock = .failed →
        (EntryBlock.validate cfg w.validators s c).1.approved = true := by
  constructor
  · intro h
    have hrejects := h tinyLive quietReads smallBuy rfl rfl
    revert hrejects
    decide +kernel
  · intro h
    have happroves := h tinyLive
      { quietReads with validators := { quietReads.validators with entryBlock := .failed } }
      { smallBuy with paperTrade := true } {} rfl rfl
    revert happroves
    decide +kernel

end QuantEmbrace.RiskCheck
