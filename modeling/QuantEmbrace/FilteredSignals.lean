import QuantEmbrace.LiveApproval

/-! The quality flag of an enriched signal in the risk engine: `_signal_from_enriched` copies
it into the metadata, and no step asks for it there. -/
namespace QuantEmbrace.RiskCheck
open GuardedRun ApprovalWorld

/-- The fields of an `EnrichedSignal` that the risk engine carries over. -/
structure EnrichedSignal where
  signalId : String
  strategyName : String
  symbol : String
  market : String
  direction : OrderSide
  quantity : ℤ
  confidence : ℚ
  priceAtSignal : ℚ
  generatedAt : ℚ
  expiresAt : ℚ
  stopLoss : Option ℚ := none
  takeProfit : Option ℚ := none
  paperTrade : Bool
  strategyId : String
  productType : String := "MIS"
  metadata : String → Option MetaValue := fun _ => none
  regime : String := "unknown"
  regimeConfidence : ℚ := 0
  qualityScore : ℚ := 1 / 2
  filtered : Bool := false
  enrichmentLatencyMs : ℚ := 0
  schemaVersion : String := "4.0"

/-- `str` of a float and `isoformat` of a time. -/
structure Texts where
  str : ℚ → String
  isoformat : ℚ → String

def strBool : Bool → String
  | true => "True"
  | false => "False"

namespace EnrichedSignal
variable (t : Texts) (e : EnrichedSignal)

/-- What the update of the metadata puts over the entries of the strategy. -/
def annotations : List (String × String) :=
  [("strategy_id", e.strategyId), ("product_type", e.productType),
    ("expires_at", t.isoformat e.expiresAt), ("regime", e.regime),
    ("regime_confidence", t.str e.regimeConfidence), ("quality_score", t.str e.qualityScore),
    ("filtered", strBool e.filtered), ("schema_version", e.schemaVersion),
    ("enrichment_latency_ms", t.str e.enrichmentLatencyMs)]

def carriedMetadata : String → Option MetaValue := fun key =>
  match (e.annotations t).lookup key with
  | some text => some (.text text)
  | none => e.metadata key

/-- `_signal_from_enriched` -/
def toSignal : Signal where
  signalId := e.signalId
  symbol := e.symbol
  market := e.market
  direction := e.direction
  quantity := e.quantity
  confidence := e.confidence
  strategyName := e.strategyName
  generatedAt := e.generatedAt
  priceAtSignal := e.priceAtSignal
  stopLoss := e.stopLoss
  takeProfit := e.takeProfit
  paperTrade := e.paperTrade
  metadata := e.carriedMetadata t

end EnrichedSignal

section Blind
variable {cfg : RiskConfig} {w : Reads} {s : Signal} {m : String → Option MetaValue}

/-- Of the metadata, the steps see whether the signal closes a position, and nothing else. -/
theorem validateSignal_metadata (h : ({ s with metadata := m } : Signal).isCloseout = s.isCloseout)
    (id : String) (c : Caches) :
    validateSignal cfg w { s with metadata := m } id c = validateSignal cfg w s id c := by
  have hentry (c : Caches) : EntryBlock.validate cfg w.validators { s with metadata := m } c =
      EntryBlock.validate cfg w.validators s c := by
    unfold EntryBlock.validate
    rw [h]
  have hrecon (c : Caches) : ReconciliationCheck.validate w.validators { s with metadata := m } c =
      ReconciliationCheck.validate w.validators s c := by
    unfold ReconciliationCheck.validate
    rw [h]
  unfold validateSignal validateQuoted
  simp only [hentry, hrecon]
  rfl

/-- The decision on an enriched signal does not depend on its flag. -/
theorem validateSignal_filtered (t : Texts) (e : EnrichedSignal) (b : Bool) (id : String)
    (c : Caches) :
    validateSignal cfg w ({ e with filtered := b }.toSignal t) id c =
      validateSignal cfg w (e.toSignal t) id c :=
  validateSignal_metadata (s := e.toSignal t) rfl id c

end Blind

/-- The deliveries of one signal. Those of the enriched loop carry `enriched`, in every
redelivery and replay, those of the fallback loop `pending`. -/
structure Deliveries (ι : Type*) where
  cfg : RiskConfig
  texts : Texts
  enriched : EnrichedSignal
  pending : Signal
  loop : ι → RiskLoop

/-- The steps of the deliveries; `decide` is a call of `validate_signal`. -/
inductive DeliveryEvent (ι : Type*) where
  | start (d : ι)
  | read (d : ι) (response : Option Reservation)
  | check (d : ι) (active : Bool)
  | decide (d : ι) (w : Reads) (c : Caches) (riskDecisionId : String)
  | reserve (d : ι) (outcome : WriteOutcome)
  | produce (d : ι)
  | append (d : ι) (riskDecisionId : String)
  | acknowledge (d : ι)
  | mark (d : ι) (outcome : WriteOutcome)
  | stop (d : ι)

namespace Deliveries
variable {ι : Type*} (D : Deliveries ι)

def signal (d : ι) : Signal :=
  match D.loop d with
  | .enriched => D.enriched.toSignal D.texts
  | .fallback => D.pending

def decision (d : ι) (w : Reads) (c : Caches) (id : String) : RiskDecision :=
  (validateSignal D.cfg w (D.signal d) id c).1.toRiskDecision

/-- The step of the reservation world that an event is. -/
def event : DeliveryEvent ι → ApprovalEvent ι
  | .start d => .start d (D.loop d)
  | .read d response => .read d response
  | .check d active => .check d active
  | .decide d w c id => .decide d (D.decision d w c id)
  | .reserve d outcome => .reserve d outcome
  | .produce d => .produce d
  | .append d id => .append d id
  | .acknowledge d => .acknowledge d
  | .mark d outcome => .mark d outcome
  | .stop d => .stop d

variable [DecidableEq ι]

def next (w : ApprovalWorld ι) (e : DeliveryEvent ι) : ApprovalWorld ι :=
  ApprovalWorld.next w (D.event e)

omit [DecidableEq ι]

/-- Nothing has been published by the enriched loop. -/
def NoneEnriched (w : ApprovalWorld ι) : Prop :=
  ∀ d i, D.loop d = .enriched → .published d i ∉ w.journal

/-- Some step of the pipeline has something against each delivery of the enriched loop, and
none of these finds a reservation that waits to be published. -/
def Stopped (_ : ApprovalWorld ι) : DeliveryEvent ι → Prop
  | .read d (some r) => D.loop d = .enriched → r.publishStatus ≠ .PENDING
  | .decide d w c _ => D.loop d = .enriched →
      ¬Cleared (D.signal d).bid (D.signal d).ask D.cfg w (D.signal d) c
  | _ => True

/-- A delivery of the enriched loop has nothing that it could publish. -/
structure Silent (w : ApprovalWorld ι) (d : ι) : Prop where
  reserves : ∀ l a, w.phase d ≠ .reserving l a
  carries : ∀ i, ¬(w.phase d).Carries i
  sent : ∀ i, (d, i) ∉ w.sent
  published : ∀ i, .published d i ∉ w.journal

theorem start_silent (legacy : Option String) (d : ι) :
    Silent (ApprovalWorld.start legacy) d where
  reserves := nofun
  carries _ := id
  sent _ := List.not_mem_nil
  published _ := List.not_mem_nil

end Deliveries

section Reserving
variable {ι : Type*} [DecidableEq ι] {w : ApprovalWorld ι} {d : ι} {l : RiskLoop}
  {a : RiskDecision}

theorem phase_setPhase {d' : ι} {p : ApprovalPhase} :
    (w.setPhase d' p).phase = Function.update w.phase d' p := rfl

theorem reserving_setPhase {d' : ι} {p : ApprovalPhase} (hp : ∀ l a, p ≠ .reserving l a)
    (h : (w.setPhase d' p).phase d = .reserving l a) : w.phase d = .reserving l a := by
  by_cases hd : d = d'
  · subst hd
    rw [phase_setPhase, Function.update_self] at h
    exact absurd h (hp l a)
  · rwa [phase_setPhase, Function.update_of_ne hd] at h

theorem reserving_replay {d' : ι} {r : Replay}
    (h : (w.replay d' r).phase d = .reserving l a) : w.phase d = .reserving l a := by
  cases r with
  | republish | suppress | raise => exact reserving_setPhase (by simp) h

theorem reserving_getRiskDecisionReservation {d' : ι} {response : Option Reservation}
    (h : (w.getRiskDecisionReservation d' response).phase d = .reserving l a) :
    w.phase d = .reserving l a := by
  unfold getRiskDecisionReservation at h
  split at h
  · exact reserving_setPhase (by simp) h
  · exact reserving_replay h
  · exact reserving_setPhase (by simp) h
  · exact reserving_replay h
  · exact h

theorem reserving_reserveRiskDecision {d' : ι} {l' : RiskLoop} {decision : RiskDecision}
    {outcome : WriteOutcome}
    (h : (w.reserveRiskDecision d' l' decision outcome).phase d = .reserving l a) :
    w.phase d = .reserving l a := by
  unfold reserveRiskDecision at h
  dsimp only at h
  split at h
  all_goals exact reserving_setPhase (by simp) h

theorem reserving_markRiskDecisionPublished {d' : ι} {i : String} {outcome : WriteOutcome}
    (h : (w.markRiskDecisionPublished d' i outcome).phase d = .reserving l a) :
    w.phase d = .reserving l a := by
  unfold markRiskDecisionPublished at h
  split at h
  · exact reserving_setPhase (by simp) h
  · split at h
    all_goals exact reserving_setPhase (by simp) h

/-- Only an approval by the pipeline leads to a reservation. -/
theorem reserving_next {e : ApprovalEvent ι}
    (h : (ApprovalWorld.next w e).phase d = .reserving l a) :
    w.phase d = .reserving l a ∨ (e = .decide d a ∧ a.status = .APPROVED) := by
  have hend {d' : ι} {p : ApprovalPhase} (hp : ∀ l a, p ≠ .reserving l a) {v : ApprovalWorld ι}
      (hv : v.phase = w.phase) (h : (v.setPhase d' p).phase d = .reserving l a) :
      w.phase d = .reserving l a := hv ▸ reserving_setPhase hp h
  cases e with
  | decide d' decision =>
    simp only [ApprovalWorld.next] at h
    split at h
    · split at h
      · next happ =>
        by_cases hd : d = d'
        · subst hd
          rw [phase_setPhase, Function.update_self] at h
          cases h
          exact Or.inr ⟨rfl, happ⟩
        · rw [phase_setPhase, Function.update_of_ne hd] at h
          exact Or.inl h
      · exact Or.inl (hend (by simp) rfl h)
    · exact Or.inl h
  | start d' l' =>
    simp only [ApprovalWorld.next] at h
    split at h
    · exact Or.inl (hend (by simp) rfl h)
    · exact Or.inl h
  | read d' response =>
    simp only [ApprovalWorld.next] at h
    split at h
    · exact Or.inl (reserving_getRiskDecisionReservation h)
    · exact Or.inl h
  | check d' active =>
    simp only [ApprovalWorld.next] at h
    split at h
    · split at h
      · exact Or.inl (hend (by simp) rfl h)
      · exact Or.inl (hend (by simp) rfl h)
    · exact Or.inl h
  | reserve d' outcome =>
    simp only [ApprovalWorld.next] at h
    split at h
    · exact Or.inl (reserving_reserveRiskDecision h)
    · exact Or.inl h
  | produce d' =>
    simp only [ApprovalWorld.next] at h
    split at h
    · exact Or.inl (hend (by simp) rfl h)
    · exact Or.inl h
  | append d' i =>
    simp only [ApprovalWorld.next] at h
    split at h
    · exact Or.inl h
    · exact Or.inl h
  | acknowledge d' =>
    simp only [ApprovalWorld.next] at h
    split at h
    · split at h
      · exact Or.inl (hend (by simp) rfl h)
      · exact Or.inl h
    · exact Or.inl h
  | mark d' outcome =>
    simp only [ApprovalWorld.next] at h
    split at h
    · exact Or.inl (reserving_markRiskDecisionPublished h)
    · exact Or.inl h
  | stop d' => exact Or.inl (hend (by simp) rfl h)

end Reserving

namespace Deliveries
variable {ι : Type*} [DecidableEq ι] {D : Deliveries ι} {w v : ApprovalWorld ι} {d : ι}
  {K C : ι → Prop}

theorem not_carries_setPhase {d' : ι} {p : ApprovalPhase} (hp : d = d' → ∀ i, ¬p.Carries i)
    (h : ∀ i, ¬(w.phase d).Carries i) : ∀ i, ¬((w.setPhase d' p).phase d).Carries i := by
  intro i
  by_cases hd : d = d'
  · rw [phase_setPhase, hd, Function.update_self]
    exact hp hd i
  · rw [phase_setPhase, Function.update_of_ne hd]
    exact h i

/-- A step in which a silent delivery takes up no pending reservation leaves it so. -/
theorem Silent.move (hs : Silent w d) (hk : ¬K d) (h : Move K C w v) :
    (∀ i, ¬(v.phase d).Carries i) ∧ (∀ i, (d, i) ∉ v.sent) ∧ ∀ i, .published d i ∉ v.journal := by
  have hjournal {e : ApprovalEntry ι} (he : ∀ i, .published d i ≠ e) :
      ∀ i, .published d i ∉ e :: w.journal := by
    intro i hi
    obtain heq | hi := List.mem_cons.mp hi
    · exact he i heq
    · exact hs.published i hi
  cases h with
  | rest => exact ⟨hs.carries, hs.sent, hs.published⟩
  | start d' l _ =>
    exact ⟨not_carries_setPhase (fun _ _ => id) hs.carries, hs.sent, hjournal nofun⟩
  | pass d' l _ =>
    exact ⟨not_carries_setPhase (fun _ _ => id) hs.carries, hs.sent, hjournal nofun⟩
  | advance d' p _ hcar _ _ =>
    refine ⟨not_carries_setPhase (fun hd i hi => ?_) hs.carries, hs.sent, hs.published⟩
    exact hs.carries i (hd ▸ hcar i hi)
  | found d' r _ _ hK =>
    refine ⟨not_carries_setPhase (fun hd => ?_) hs.carries, hs.sent, hs.published⟩
    exact absurd (hd ▸ hK) hk
  | reserve d' l a p _ hphase _ =>
    refine ⟨not_carries_setPhase (fun hd => ?_) hs.carries, hs.sent, hjournal nofun⟩
    exact absurd (hd ▸ hphase) (hs.reserves l a)
  | produce d' i hphase =>
    have hne : d ≠ d' := fun hd => hs.carries i (by rw [hd, hphase]; exact rfl)
    refine ⟨not_carries_setPhase (fun hd => absurd hd hne) hs.carries, ?_, hs.published⟩
    intro k hk
    obtain heq | hk := List.mem_cons.mp hk
    · exact hne (congrArg Prod.fst heq)
    · exact hs.sent k hk
  | append d' i hsent =>
    refine ⟨hs.carries, fun k hk => hs.sent k (List.mem_of_mem_erase hk), hjournal ?_⟩
    intro k heq
    cases heq
    exact hs.sent _ hsent
  | mark d' r _ =>
    exact ⟨not_carries_setPhase (fun _ _ => id) hs.carries, hs.sent, hjournal nofun⟩

theorem Silent.next {e : DeliveryEvent ι} (hs : Silent w d) (hd : D.loop d = .enriched)
    (he : D.Stopped w e) : Silent (D.next w e) d := by
  have hmove : Move (fun d => D.loop d ≠ .enriched) (fun _ => True) w (D.next w e) := by
    refine w.next_move (e := D.event e) (fun d' r hread hpending henriched => ?_) fun _ _ => trivial
    cases e with
    | read d'' response =>
      cases hread
      exact he henriched hpending
    | _ => cases hread
  obtain ⟨hcarries, hsent, hpublished⟩ := hs.move (fun h => h hd) hmove
  refine ⟨fun l a h => ?_, hcarries, hsent, hpublished⟩
  obtain hold | ⟨hdecide, happroved⟩ := reserving_next h
  · exact hs.reserves l a hold
  · cases e with
    | decide d' r c id =>
      cases hdecide
      exact he hd ((validateQuoted_approved_iff _ _ _ _ _ id c).mp happroved)
    | _ => cases hdecide

/-- Runs in which something else than the flag stops each delivery of the enriched loop
publish nothing there; and the flag makes no difference to any run. -/
theorem filtered_signals_unpublished (D : Deliveries ι) (legacy : Option String)
    (es : List (DeliveryEvent ι)) :
    (StepsMeet D.next D.Stopped (.start legacy) es →
      AlongRun D.next D.NoneEnriched (.start legacy) es) ∧
    ∀ (b : Bool) (w : ApprovalWorld ι),
      es.foldl ({ D with enriched := { D.enriched with filtered := b } } : Deliveries ι).next w =
        es.foldl D.next w := by
  constructor
  · intro h pre hpre d i hd
    have hsilent := h.invariant (I := fun w => ∀ d, D.loop d = .enriched → Silent w d)
      (fun w e hw he d hd => (hw d hd).next hd he) (fun d _ => start_silent legacy d) pre hpre
    exact (hsilent d hd).published i
  · intro b w
    have hsignal (d : ι) (r : Reads) (c : Caches) (id : String) :
        ({ D with enriched := { D.enriched with filtered := b } } : Deliveries ι).decision d r c
          id = D.decision d r c id := by
      unfold decision signal
      cases D.loop d with
      | enriched => rw [validateSignal_filtered]
      | fallback => rfl
    congr 1
    funext w e
    cases e with
    | decide d r c id =>
      exact congrArg (fun a => ApprovalWorld.next w (.decide d a)) (hsignal d r c id)
    | _ => rfl

omit [DecidableEq ι] in
/-- A live signal never gets past the pipeline, so that only a pending reservation that the
fallback loop left can have it published. -/
theorem stopped_decide_of_live (h : D.enriched.paperTrade = false) (r : Reads) (c : Caches)
    (id : String) : D.Stopped w (.decide d r c id) := by
  intro hd
  have hsignal : D.signal d = D.enriched.toSignal D.texts := by rw [signal, hd]
  rw [hsignal]
  exact not_cleared_of_live h

section PaperSignal

private def paperDelivery : Deliveries (Fin 1) where
  cfg := tinyLive
  texts := ⟨fun _ => "1.0", fun _ => "2026-01-05T09:15:00+00:00"⟩
  enriched :=
    { signalId := "S1", strategyName := "momentum", symbol := "INFY", market := "NSE"
      direction := .buy, quantity := 2, confidence := 1, priceAtSignal := 1500
      generatedAt := 100, expiresAt := 130, paperTrade := true, strategyId := "momentum"
      qualityScore := 1 / 10, filtered := true }
  pending := smallBuy
  loop := fun _ => .enriched

/-- A paper signal with the flag set, its first delivery, nothing else going on. -/
theorem filtered_paper_signal_published :
    ¬∀ (D : Deliveries (Fin 1)) (es : List (DeliveryEvent (Fin 1))),
      D.enriched.filtered = true → AlongRun D.next D.NoneEnriched (.start none) es := by
  intro h
  have hrun := h paperDelivery [.start 0, .read 0 none, .check 0 false,
    .decide 0 quietReads {} "R1", .reserve 0 .written, .produce 0, .append 0 "R1"] rfl
  exact hrun.last 0 "R1" rfl (by decide +kernel)

end PaperSignal

end Deliveries

end QuantEmbrace.RiskCheck
