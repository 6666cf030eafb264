import QuantEmbrace.RiskPipeline
import Mathlib.Tactic.Linarith

/-! A live signal within all limits. With the quoted bid and ask the steps would approve it;
but the slippage check looks for them on the signal, which carries neither. -/
namespace QuantEmbrace.RiskCheck

section Limits
variable (bid ask : ℚ) (cfg : RiskConfig) (w : Reads) (s : Signal) (c : Caches)

/-- The flags, as they are stored and as they are cached. -/
structure FlagsClear : Prop where
  killSwitch : w.killSwitch = none
  entryCached : c.entry.readOk = true ∧ c.entry.blocked = false
  entryStored : w.validators.entryBlock = .missing ∨ w.validators.entryBlock = .item false
  reconCached : c.recon.required = false
  reconStored : w.validators.reconciliation = .missing ∨ w.validators.reconciliation = .item false

/-- Every read succeeds with fresh data and every configured limit is met; `bid` and `ask`
are the quoted ones. -/
structure WithinLimits : Prop where
  dynamo : w.validators.dynamo = true
  flags : FlagsClear w c
  context : w.context.Complete
  portfolioValue : 0 < cfg.limits.portfolioValue
  notFuture : s.generatedAt ≤ w.validators.now + 2
  age : w.validators.now - s.generatedAt ≤ min cfg.maxSignalAgeSeconds 30
  position : ∃ confirmed pending : ℤ,
    PositionCheck.confirmedPosition w.validators = some confirmed ∧
    PositionCheck.pendingQuantity w.validators = some pending ∧
    s.value ≤ cfg.limits.getLimit .maxSingleOrderValue s.market ∧
    confirmed + pending + s.quantity ≤
      truncated (cfg.limits.getLimit .maxPositionPerSymbol s.market) ∧
    ((confirmed + pending + s.quantity : ℤ) : ℚ) * s.priceAtSignal /
      cfg.limits.portfolioValue * 100 ≤ cfg.limits.getLimit .maxPositionSizePct s.market
  exposure : ∃ current, ExposureCheck.totalExposure w.validators = some current ∧
    current + |s.value| ≤ cfg.limits.portfolioValue *
      (cfg.limits.getLimit .maxTotalExposurePct s.market / 100)
  liquidity : ∃ adv, (RiskContextBuilder.fetchAdv w.context).1 = some adv ∧ 0 < adv ∧
    s.quantity / adv * 100 ≤ cfg.maxOrderAdvPct
  spread : ∃ spread, (RiskContextBuilder.fetchLiveSpreadBps w.context).1 = some spread ∧
    spread ≤ cfg.maxSpreadBps
  nav : 0 < (RiskContextBuilder.fetchPortfolioNav w.context cfg.limits).1
  sector : ∃ sector, sector ≠ "UNKNOWN" ∧ cfg.registry s.symbol = some sector ∧
    (((RiskContextBuilder.fetchAnalyticsSnapshot w.context).1.sectorExposures sector).getD 0 +
      |s.value|) / (RiskContextBuilder.fetchPortfolioNav w.context cfg.limits).1 * 100 ≤
        cfg.limits.value .maxSectorExposurePct
  margin : ∃ a, (MarginCheck.marginSnapshot w.validators s c).1 = .ok (some a) ∧
    s.value * (1 + cfg.marginBufferPct) ≤ a.availableCash + a.collateralValue
  quoted : 0 < bid ∧ 0 < ask
  slippage : ∃ adv, Slippage.getAdv w.validators = some adv ∧ 0 < adv ∧
    Slippage.spreadCostPct bid ask ≤ cfg.maxSpreadPct ∧
    s.quantity / adv * 100 ≤ cfg.maxAdvPct ∧
    Slippage.spreadCostPct bid ask + Slippage.impactCostPct s adv ≤ cfg.maxTotalCostPct
  dailyLoss : ∃ realized unrealized,
    (DailyLoss.realizedPnl w.validators c).1 = some realized ∧
    DailyLoss.unrealizedPnl w.validators = some unrealized ∧
    -(cfg.limits.portfolioValue * (cfg.limits.getLimit .maxDailyLossPct s.market / 100)) <
      min (realized + unrealized) 0

end Limits

section Passing
variable {bid ask : ℚ} {cfg : RiskConfig} {w : Reads} {s : Signal} {c : Caches}

theorem SignalAge.approved_of {v : ValidatorReads} (hfuture : s.generatedAt ≤ v.now + 2)
    (hage : v.now - s.generatedAt ≤ maxAgeSeconds cfg) : (validate cfg v s).approved = true := by
  unfold validate
  dsimp only
  split
  · next hneg =>
    rw [if_neg]
    rw [abs_of_neg hneg]
    linarith
  · rw [if_neg hage.not_gt]

theorem FlagsClear.entry_approved (h : FlagsClear w c) (hd : w.validators.dynamo = true) :
    (EntryBlock.validate cfg w.validators s c).1.approved = true := by
  have hentry : (EntryBlock.refreshIfStale w.validators c.entry).readOk = true ∧
      (EntryBlock.refreshIfStale w.validators c.entry).blocked = false := by
    rw [EntryBlock.refreshIfStale, ValidatorReads.getItem_eq hd]
    split
    · exact h.entryCached
    · obtain hmissing | hitem := h.entryStored
      · rw [hmissing]
        exact ⟨rfl, rfl⟩
      · rw [hitem]
        exact ⟨rfl, rfl⟩
  unfold EntryBlock.validate
  dsimp only
  rw [hentry.1, hentry.2]
  split_ifs <;> first | rfl | contradiction

theorem FlagsClear.recon_approved (h : FlagsClear w c) (hd : w.validators.dynamo = true) :
    (ReconciliationCheck.validate w.validators s c).1.approved = true := by
  have hrecon : (ReconciliationCheck.refreshIfStale w.validators c.recon).required = false := by
    rw [ReconciliationCheck.refreshIfStale, ValidatorReads.getItem_eq hd]
    split
    · exact h.reconCached
    · obtain hmissing | hitem := h.reconStored
      · rw [hmissing]
      · rw [hitem]
  unfold ReconciliationCheck.validate
  dsimp only
  rw [hrecon]
  split_ifs <;> first | rfl | contradiction

theorem WithinLimits.position_approved (h : WithinLimits bid ask cfg w s c) :
    (PositionCheck.validate cfg w.validators s).approved = true := by
  obtain ⟨confirmed, pending, hc, hp, hvalue, hsymbol, hpct⟩ := h.position
  simp only [PositionCheck.validate, hc, hp, PositionCheck.withinLimits]
  rw [if_neg hvalue.not_gt, if_neg hsymbol.not_gt, if_neg h.portfolioValue.ne', if_neg hpct.not_gt]

theorem WithinLimits.exposure_approved (h : WithinLimits bid ask cfg w s c) :
    (ExposureCheck.validate cfg w.validators s).approved = true := by
  obtain ⟨current, hcurrent, hmax⟩ := h.exposure
  simp only [ExposureCheck.validate, hcurrent, ExposureCheck.withinLimits]
  rw [if_neg h.portfolioValue.ne', if_neg hmax.not_gt]

theorem WithinLimits.liquidity_approved (h : WithinLimits bid ask cfg w s c) :
    (LiquidityCheck.validate cfg s (RiskContextBuilder.fetchAdv w.context).1).approved =
      true := by
  obtain ⟨adv, hadv, hpos, hpct⟩ := h.liquidity
  simp only [LiquidityCheck.validate, hadv]
  rw [if_neg hpos.not_ge]
  split
  · rfl
  · rw [if_neg hpct.not_gt]

theorem WithinLimits.spread_approved (h : WithinLimits bid ask cfg w s c) :
    (SpreadGate.validate cfg s (RiskContextBuilder.fetchLiveSpreadBps w.context).1).approved =
      true := by
  obtain ⟨spread, hspread, hmax⟩ := h.spread
  simp only [SpreadGate.validate, hspread]
  rw [if_neg hmax.not_gt]

theorem WithinLimits.sector_approved (h : WithinLimits bid ask cfg w s c) :
    (SectorCheck.validate cfg s
      (RiskContextBuilder.fetchAnalyticsSnapshot w.context).1.sectorExposures
      (RiskContextBuilder.fetchPortfolioNav w.context cfg.limits).1).approved = true := by
  obtain ⟨sector, hknown, hsector, hpct⟩ := h.sector
  have hget : SectorCheck.getSector cfg s = sector := by
    rw [SectorCheck.getSector, hsector, Option.getD_some]
  simp only [SectorCheck.validate, hget]
  rw [if_neg hknown, if_neg h.nav.not_ge, if_neg hpct.not_gt]

theorem WithinLimits.margin_approved (h : WithinLimits bid ask cfg w s c) :
    (MarginCheck.validate cfg w.validators s c).1.approved = true := by
  obtain ⟨a, ha, hmargin⟩ := h.margin
  unfold MarginCheck.validate
  rw [← Prod.mk.eta (p := MarginCheck.marginSnapshot w.validators s c), ha]
  simp only [MarginCheck.withinLimits]
  rw [if_neg hmargin.not_gt]

theorem WithinLimits.slippage_approved (h : WithinLimits bid ask cfg w s c) :
    (Slippage.validate cfg w.validators s bid ask).approved = true := by
  obtain ⟨adv, hadv, hpos, hspread, hpct, htotal⟩ := h.slippage
  have hquoted : ¬(bid ≤ 0 ∨ ask ≤ 0) :=
    not_or.mpr ⟨h.quoted.1.not_ge, h.quoted.2.not_ge⟩
  simp only [Slippage.validate, if_neg hquoted, hadv, if_neg hpos.not_ge, Slippage.withinLimits]
  rw [if_neg hspread.not_gt, if_neg hpct.not_gt, if_neg htotal.not_gt]

theorem WithinLimits.dailyLoss_approved (h : WithinLimits bid ask cfg w s c) :
    (DailyLoss.validate cfg w.validators s c).1.approved = true := by
  obtain ⟨realized, unrealized, hr, hu, hloss⟩ := h.dailyLoss
  have hlimit : ¬(realized + unrealized < 0 ∧ cfg.limits.portfolioValue *
      (cfg.limits.getLimit .maxDailyLossPct s.market / 100) ≤ |realized + unrealized|) := by
    intro ⟨hneg, habs⟩
    rw [abs_of_neg hneg] at habs
    rw [min_eq_left hneg.le] at hloss
    linarith
  unfold DailyLoss.validate
  rw [← Prod.mk.eta (p := DailyLoss.realizedPnl w.validators c), hr]
  simp only [hu, DailyLoss.withinLimits]
  rw [if_neg h.portfolioValue.ne', if_neg hlimit]

theorem WithinLimits.cleared (h : WithinLimits bid ask cfg w s c) : Cleared bid ask cfg w s c where
  age := SignalAge.approved_of h.notFuture h.age
  killSwitch := h.flags.killSwitch
  entry := h.flags.entry_approved h.dynamo
  recon := h.flags.recon_approved h.dynamo
  context := Or.inr h.context
  position := h.position_approved
  exposure := h.exposure_approved
  liquidity := h.liquidity_approved
  spread := h.spread_approved
  sector := h.sector_approved
  margin := h.margin_approved
  slippage := h.slippage_approved
  dailyLoss := h.dailyLoss_approved

theorem Slippage.unquoted_rejected (v : ValidatorReads) (hlive : s.paperTrade = false) :
    (validate cfg v s s.bid s.ask).approved = false := by
  have hunquoted : s.bid ≤ 0 ∨ s.ask ≤ 0 := Or.inl le_rfl
  rw [validate, if_pos hunquoted, riskDataUnavailableResult_approved, hlive]

/-- Whatever the world, a live signal ends at the slippage check at the latest. -/
theorem not_cleared_of_live (hlive : s.paperTrade = false) : ¬Cleared s.bid s.ask cfg w s c := by
  intro h
  have hslippage := h.slippage
  rw [Slippage.unquoted_rejected w.validators hlive] at hslippage
  cases hslippage

end Passing

/-- No live signal within all limits is approved, though its steps approve the quote. -/
theorem live_within_limits_rejected (bid ask : ℚ) (cfg : RiskConfig) (w : Reads) (s : Signal)
    (c : Caches) (id : String) (hlive : s.paperTrade = false)
    (h : WithinLimits bid ask cfg w s c) :
    (validateSignal cfg w s id c).1.status = .REJECTED ∧
      (validateQuoted bid ask cfg w s id c).1.status = .APPROVED := by
  refine ⟨?_, (validateQuoted_approved_iff bid ask cfg w s id c).mpr h.cleared⟩
  cases hstatus : (validateSignal cfg w s id c).1.status with
  | APPROVED =>
    have hcleared := (validateQuoted_approved_iff s.bid s.ask cfg w s id c).mp hstatus
    exact absurd hcleared (not_cleared_of_live hlive)
  | REJECTED => rfl

section Quiet

def tinyLive : RiskConfig where
  limits :=
    { value := fun
        | .maxPositionSizePct => 5
        | .maxTotalExposurePct => 20
        | .maxDailyLossPct => 1 / 2
        | .maxSingleOrderValue => 5000
        | .maxPositionPerSymbol => 100
        | .maxSectorExposurePct => 25
      portfolioValue := 1000000 }
  riskProfile := "tiny-live"
  registry := fun _ => some "IT"

def quietReads : Reads where
  validators :=
    { now := 101, mono := 1000, today := 1, entryBlock := .missing, reconciliation := .missing
      confirmed := .missing, inFlight := fun _ => some [], exposureScan := [some []]
      margin := fun _ => .item { availableCash := some 100000 }
      adv30d := .item (some 2000000), pnlDay := .item (some 0), filledOrders := []
      unrealizedScan := [some []] }
  context :=
    { now := 101, position := .missing, pending := fun _ => some []
      adv := .item { adv20d := some 2000000 }
      quote := .item { spreadBps := some 5, capturedAt := .parsed 100 }
      nav := .item (some 1000000), snapshot := .item { computedAt := .parsed 90 }
      exposureScan := [some []] }

def smallBuy : Signal where
  signalId := "S1"
  symbol := "INFY"
  market := "NSE"
  direction := .buy
  quantity := 2
  confidence := 1
  strategyName := "momentum"
  generatedAt := 100
  priceAtSignal := 1500

private theorem smallBuy_withinLimits :
    WithinLimits 1499 1501 tinyLive quietReads smallBuy {} where
  dynamo := rfl
  flags := ⟨rfl, ⟨rfl, rfl⟩, Or.inl rfl, rfl, Or.inl rfl⟩
  context := (RiskContextBuilder.build_errors_eq_nil_iff _ tinyLive.limits).mp (by decide +kernel)
  portfolioValue := by decide +kernel
  notFuture := by decide +kernel
  age := by decide +kernel
  position := ⟨0, 0, rfl, rfl, by decide +kernel, by decide +kernel, by decide +kernel⟩
  exposure := ⟨0, rfl, by decide +kernel⟩
  liquidity := ⟨2000000, rfl, by decide +kernel, by decide +kernel⟩
  spread := ⟨5, by decide +kernel, by decide +kernel⟩
  nav := by decide +kernel
  sector := ⟨"IT", by decide, rfl, by decide +kernel⟩
  margin := ⟨⟨100000, 0, 1000⟩, rfl, by decide +kernel⟩
  quoted := by decide +kernel
  slippage := ⟨2000000, rfl, by decide +kernel, by decide +kernel, by decide +kernel,
    by decide +kernel⟩
  dailyLoss := ⟨0, 0, by decide +kernel, by decide +kernel, by decide +kernel⟩

theorem live_within_limits_rejected_small_buy :
    (validateSignal tinyLive quietReads smallBuy "R1" {}).1.status = .REJECTED ∧
      (validateQuoted 1499 1501 tinyLive quietReads smallBuy "R1" {}).1.status = .APPROVED :=
  live_within_limits_rejected 1499 1501 tinyLive quietReads smallBuy {} "R1" rfl
    smallBuy_withinLimits

/-- Two shares, with everything in order: rejected for want of a bid and an ask. -/
theorem small_live_buy_rejected :
    ¬∀ (bid ask : ℚ) (cfg : RiskConfig) (w : Reads) (s : Signal) (c : Caches) (id : String),
      s.paperTrade = false → WithinLimits bid ask cfg w s c →
        (validateSignal cfg w s id c).1.status = .APPROVED := by
  intro h
  have happroved := h 1499 1501 tinyLive quietReads smallBuy {} "R1" rfl smallBuy_withinLimits
  revert happroved
  decide +kernel

end Quiet

end QuantEmbrace.RiskCheck
