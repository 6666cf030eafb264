import QuantEmbrace.Lib.Ratchet
import QuantEmbrace.TradeExitEngine
import Mathlib.Tactic.FieldSimp
import Mathlib.Tactic.Linarith

/-! The stop of one position under the evaluations of the trade exit engine: a ratchet over
the prices, for a LONG position from below and for a SHORT one from above. -/
namespace QuantEmbrace
open GuardedRun Ratchet

/-- One evaluation at a price, its write going through. -/
def EnginePass.evaluate (pass : EnginePass) (row : ManagedRow) (price : ℚ) : ManagedRow :=
  ({ pass with lastPrice := some price } : EnginePass).run row

/-- The evaluation asks for an exit. -/
def EnginePass.Fires (pass : EnginePass) (row : ManagedRow) (price : ℚ) : Prop :=
  row.notFlat = true ∧ ∃ position trigger exitPrice, row.parsePosition = some position ∧
    evaluateExitConditions pass.trailing position (some price) = .fire trigger exitPrice

/-- An open position of the engine with its entry price, its target and its stop. -/
structure ManagedRow.Watched (row : ManagedRow) (d : Direction) (entry : ℚ)
    (target : Option ℚ) (active : Bool) (stop : ℚ) : Prop where
  direction : row.direction = some d
  notFlat : d ≠ .flat
  quantity : ∃ quantity, row.quantity = some quantity ∧ flatTolerance ≤ |quantity|
  avgPrice : (row.avgPrice.or row.avgEntryPrice).getD 0 = entry
  takeProfit : row.takeProfit = target
  unlocked : row.exitOrderId = none
  stopPrice : row.stopPrice = some stop
  exitState : row.exitState = some "TRAILING_ACTIVE" ↔ active = true

/-- The price reaches the stop, or the target while trailing is not active. -/
def Triggered (d : Direction) (target : Option ℚ) (active : Bool) (stop price : ℚ) : Prop :=
  stopLossTriggered (some d) price stop = true ∨
    (active = false ∧ ∃ x ∈ target, takeProfitTriggered (some d) price x = true)

section Evaluate
variable {pass : EnginePass} {row : ManagedRow} {d : Direction} {entry stop price : ℚ}
  {target : Option ℚ} {active : Bool}

/-- The dict that the scan makes of a watched row. -/
def ManagedRow.watchedPosition (row : ManagedRow) (d : Direction) (entry : ℚ)
    (target : Option ℚ) (stop : ℚ) : ManagedPosition where
  symbol := row.symbol.getD "UNKNOWN"
  direction := some d
  quantity := row.quantity.getD 0
  avgPrice := entry
  stopPrice := stop
  takeProfit := target
  lastPrice := row.lastPrice
  exitOrderId := none
  exitState := row.exitState

namespace ManagedRow.Watched

theorem parsed (h : row.Watched d entry target active stop) :
    row.parsePosition = some (row.watchedPosition d entry target stop) := by
  obtain ⟨q, hq, htol⟩ := h.quantity
  rw [parsePosition, hq, h.stopPrice]
  simp only [if_neg (not_lt.mpr htol), h.direction, h.avgPrice, h.takeProfit, h.unlocked,
    watchedPosition, hq, Option.getD_some]

theorem row_notFlat (h : row.Watched d entry target active stop) : row.notFlat = true := by
  have hopen := h.notFlat
  simpa [ManagedRow.notFlat, h.direction] using hopen

/-- What the engine decides on a watched row. -/
theorem decides (h : row.Watched d entry target active stop) (hon : pass.trailing.enabled = true)
    (price : ℚ) :
    (Triggered d target active stop price ∧ ∃ trigger exitPrice,
      evaluateExitConditions pass.trailing (row.watchedPosition d entry target stop)
        (some price) = .fire trigger exitPrice) ∨
    (¬ Triggered d target active stop price ∧
      evaluateExitConditions pass.trailing (row.watchedPosition d entry target stop)
        (some price) = manageTrailingStop pass.trailing
          (row.watchedPosition d entry target stop) price) := by
  have hstate : row.exitState ≠ some "TRAILING_ACTIVE" ↔ active = false := by
    rw [ne_eq, h.exitState, Bool.not_eq_true]
  by_cases hs : stopLossTriggered (some d) price stop = true
  · refine Or.inl ⟨Or.inl hs,
      if row.exitState = some "TRAILING_ACTIVE" then .trailing else .stopLoss, price, ?_⟩
    simp only [evaluateExitConditions, watchedPosition, ne_eq, not_true, if_false, hs, if_true]
    congr
  · cases htp : target with
    | none =>
      refine Or.inr ⟨?_, ?_⟩
      · rintro (h | ⟨_, x, hx, _⟩)
        · exact hs h
        · exact nomatch hx
      · simp only [evaluateExitConditions, watchedPosition, ne_eq, not_true, if_false, hs, hon,
          if_true]
        rfl
    | some x =>
      by_cases ht : active = false ∧ takeProfitTriggered (some d) price x = true
      · refine Or.inl ⟨Or.inr ⟨ht.1, x, rfl, ht.2⟩, .takeProfit, x, ?_⟩
        simp only [evaluateExitConditions, watchedPosition, ne_eq, not_true, if_false, hs,
          Bool.false_eq_true]
        exact if_pos ⟨hstate.mpr ht.1, ht.2⟩
      · refine Or.inr ⟨?_, ?_⟩
        · rintro (h | ⟨ha, y, hy, hty⟩)
          · exact hs h
          · obtain rfl := Option.some.inj hy
            exact ht ⟨ha, hty⟩
        · simp only [evaluateExitConditions, watchedPosition, ne_eq, not_true, if_false, hs, hon,
            if_true, Bool.false_eq_true]
          exact if_neg fun h => ht ⟨hstate.mp h.1, h.2⟩

theorem fires_iff (h : row.Watched d entry target active stop)
    (hon : pass.trailing.enabled = true) (price : ℚ) :
    pass.Fires row price ↔ Triggered d target active stop price := by
  obtain ⟨ht, trigger, exitPrice, hfire⟩ | ⟨ht, hmanage⟩ := h.decides hon price
  · exact iff_of_true ⟨h.row_notFlat, _, trigger, exitPrice, h.parsed, hfire⟩ ht
  · refine iff_of_false ?_ ht
    rintro ⟨_, position, trigger, exitPrice, hp, hfire⟩
    obtain rfl := Option.some.inj (h.parsed.symm.trans hp)
    rw [hmanage, manageTrailingStop] at hfire
    split_ifs at hfire

theorem written (h : row.Watched d entry target active stop) (newStop : ℚ) :
    (row.writeTrailingStop newStop).Watched d entry target true newStop := by
  have hrow : row.writeTrailingStop newStop =
      { row with stopPrice := some newStop, exitState := some "TRAILING_ACTIVE" } :=
    if_pos h.row_notFlat
  rw [hrow]
  exact ⟨h.direction, h.notFlat, h.quantity, h.avgPrice, h.takeProfit, h.unlocked, rfl,
    iff_of_true rfl rfl⟩

/-- What an evaluation without an exit does to a watched row. -/
theorem evaluate_eq (h : row.Watched d entry target active stop)
    (hon : pass.trailing.enabled = true) {price : ℚ}
    (hquiet : ¬ Triggered d target active stop price) :
    pass.evaluate row price = row ∧
        manageTrailingStop pass.trailing (row.watchedPosition d entry target stop) price =
          .nothing ∨
      ∃ newStop, pass.evaluate row price = row.writeTrailingStop newStop ∧
        manageTrailingStop pass.trailing (row.watchedPosition d entry target stop) price =
          .trail newStop := by
  have hmanage := ((h.decides hon price).resolve_left fun hf => hquiet hf.1).2
  rw [EnginePass.evaluate, EnginePass.run, h.parsed]
  simp only [h.row_notFlat, if_true, hmanage]
  cases hm : manageTrailingStop pass.trailing (row.watchedPosition d entry target stop) price with
  | nothing => exact Or.inl ⟨rfl, rfl⟩
  | trail newStop => exact Or.inr ⟨newStop, rfl, rfl⟩
  | fire trigger exitPrice =>
    rw [manageTrailingStop] at hm
    split_ifs at hm

/-- A row that is not sold stays watched: the stop is trailed once the activation price was
reached, and stands until then. -/
theorem evaluated (h : row.Watched d entry target active stop)
    (hon : pass.trailing.enabled = true) {price : ℚ}
    (hquiet : ¬ Triggered d target active stop price) :
    (¬ (active = true ∨ trailingActivationTriggered (some d) price entry
          pass.trailing.activationPct = true) →
        (pass.evaluate row price).Watched d entry target false stop) ∧
      (active = true ∨ trailingActivationTriggered (some d) price entry
          pass.trailing.activationPct = true →
        (pass.evaluate row price).Watched d entry target true
          (computeTrailingStop (some d) price stop pass.trailing.stopPct)) := by
  have hrun := h.evaluate_eq hon hquiet
  cases hactive : active with
  | true =>
    have hx : row.exitState = some "TRAILING_ACTIVE" := h.exitState.mpr hactive
    refine ⟨fun hno => absurd (Or.inl rfl) hno, fun _ => ?_⟩
    simp only [manageTrailingStop, ManagedRow.watchedPosition, hx, if_true] at hrun
    by_cases hsame : computeTrailingStop (some d) price stop pass.trailing.stopPct = stop
    · obtain ⟨hrow, _⟩ | ⟨newStop, _, hm⟩ := hrun
      · rw [hrow, hsame, ← hactive]
        exact h
      · rw [if_pos hsame] at hm
        exact nomatch hm
    · obtain ⟨_, hm⟩ | ⟨newStop, hrow, hm⟩ := hrun
      · rw [if_neg hsame] at hm
        exact nomatch hm
      · rw [if_neg hsame] at hm
        obtain rfl := ExitDecision.trail.inj hm
        rw [hrow]
        exact h.written _
  | false =>
    have hx : ¬ row.exitState = some "TRAILING_ACTIVE" := fun hx =>
      Bool.false_ne_true (hactive.symm.trans (h.exitState.mp hx))
    simp only [manageTrailingStop, ManagedRow.watchedPosition, hx, if_false] at hrun
    by_cases ht : trailingActivationTriggered (some d) price entry
        pass.trailing.activationPct = true
    · refine ⟨fun hno => absurd (Or.inr ht) hno, fun _ => ?_⟩
      simp only [ht, if_true] at hrun
      obtain ⟨_, hm⟩ | ⟨newStop, hrow, hm⟩ := hrun
      · exact nomatch hm
      · obtain rfl := ExitDecision.trail.inj hm
        rw [hrow]
        exact h.written _
    · refine ⟨fun _ => ?_, fun hyes => absurd hyes (by simp [ht])⟩
      simp only [ht, Bool.false_eq_true, if_false] at hrun
      obtain ⟨hrow, _⟩ | ⟨newStop, _, hm⟩ := hrun
      · rw [hrow, ← hactive]
        exact h
      · exact nomatch hm

end ManagedRow.Watched

end Evaluate

section Rules
variable (T : TrailingSettings) (entry : ℚ) (target : Option ℚ)

/-- A LONG stop follows the price from below. -/
def longRule : Rule ℚ where
  on price := entry * (1 + T.activationPct / 100) ≤ price
  decidable_on := fun _ => inferInstance
  trail price := price * (1 - T.stopPct / 100)
  target := target

/-- A SHORT stop follows it from above. -/
def shortRule : Rule ℚᵒᵈ where
  on price := OrderDual.ofDual price ≤ entry * (1 - T.activationPct / 100)
  decidable_on := fun _ => inferInstanceAs (Decidable ((_ : ℚ) ≤ _))
  trail price := OrderDual.toDual (OrderDual.ofDual price * (1 + T.stopPct / 100))
  target := target.map OrderDual.toDual

variable {T}

theorem longRule_monotone (h : T.stopPct < 100) : Monotone (longRule T entry target).trail := by
  intro a b hab
  have hfactor : 0 ≤ 1 - T.stopPct / 100 := by linarith
  exact mul_le_mul_of_nonneg_right hab hfactor

theorem shortRule_monotone (h : 0 < T.stopPct) : Monotone (shortRule T entry target).trail := by
  intro a b hab
  have hfactor : 0 ≤ 1 + T.stopPct / 100 := by positivity
  have hprice : OrderDual.ofDual b ≤ OrderDual.ofDual a := hab
  have hmul : OrderDual.ofDual b * (1 + T.stopPct / 100) ≤
      OrderDual.ofDual a * (1 + T.stopPct / 100) := mul_le_mul_of_nonneg_right hprice hfactor
  exact hmul

end Rules

section Runs
variable {pass : EnginePass} {row : ManagedRow} {entry stop : ℚ} {target : Option ℚ}

theorem long_triggered_iff (s : Stop ℚ) (price : ℚ) :
    Triggered .long target s.active s.bound price ↔
      (longRule pass.trailing entry target).Hit s price := by
  simp [Triggered, Rule.Hit, longRule, stopLossTriggered, takeProfitTriggered]

theorem short_triggered_iff (s : Stop ℚᵒᵈ) (price : ℚ) :
    Triggered .short target s.active (OrderDual.ofDual s.bound) price ↔
      (shortRule pass.trailing entry target).Hit s (OrderDual.toDual price) := by
  simp [Triggered, Rule.Hit, shortRule, stopLossTriggered, takeProfitTriggered]
  exact Iff.rfl

theorem long_evaluated {s : Stop ℚ} (h : row.Watched .long entry target s.active s.bound)
    (hon : pass.trailing.enabled = true) {price : ℚ}
    (hquiet : ¬ (longRule pass.trailing entry target).Hit s price) :
    (pass.evaluate row price).Watched .long entry target
      ((longRule pass.trailing entry target).advance s price).active
      ((longRule pass.trailing entry target).advance s price).bound := by
  have hstep := h.evaluated hon ((long_triggered_iff s price).not.mpr hquiet)
  have hact : trailingActivationTriggered (some .long) price entry pass.trailing.activationPct
      = true ↔ (longRule pass.trailing entry target).on price := decide_eq_true_iff
  rw [hact] at hstep
  unfold Rule.advance
  split
  · exact hstep.2 ‹_›
  · rename_i hno
    have hoff : s.active = false := by
      by_contra hon'
      exact hno (Or.inl (by simpa using hon'))
    rw [hoff]
    exact hstep.1 hno

theorem short_evaluated {s : Stop ℚᵒᵈ}
    (h : row.Watched .short entry target s.active (OrderDual.ofDual s.bound))
    (hon : pass.trailing.enabled = true) {price : ℚ}
    (hquiet : ¬ (shortRule pass.trailing entry target).Hit s (OrderDual.toDual price)) :
    (pass.evaluate row price).Watched .short entry target
      ((shortRule pass.trailing entry target).advance s (OrderDual.toDual price)).active
      (OrderDual.ofDual
        ((shortRule pass.trailing entry target).advance s (OrderDual.toDual price)).bound) := by
  have hstep := h.evaluated hon ((short_triggered_iff s price).not.mpr hquiet)
  have hact : trailingActivationTriggered (some .short) price entry pass.trailing.activationPct
      = true ↔ (shortRule pass.trailing entry target).on (OrderDual.toDual price) :=
    decide_eq_true_iff
  rw [hact] at hstep
  unfold Rule.advance
  split
  · exact hstep.2 ‹_›
  · rename_i hno
    have hoff : s.active = false := by
      by_contra hon'
      exact hno (Or.inl (by simpa using hon'))
    rw [hoff]
    exact hstep.1 hno

end Runs

/-- `a` is at `b`, or further on the losing side of the position. -/
def Direction.AtOrWorse (d : Direction) (a b : ℚ) : Prop :=
  match d with
  | .long => a ≤ b
  | _ => b ≤ a

section ClosedForm
variable (d : Direction) (T : TrailingSettings) (entry : ℚ) (target : Option ℚ) (initial : ℚ)

/-- The price has moved far enough from the entry. -/
def Activates (price : ℚ) : Prop :=
  match d with
  | .long => entry * (1 + T.activationPct / 100) ≤ price
  | _ => price ≤ entry * (1 - T.activationPct / 100)

instance (price : ℚ) : Decidable (Activates d T entry price) :=
  match d with
  | .long => inferInstanceAs (Decidable (_ ≤ _))
  | .short => inferInstanceAs (Decidable (_ ≤ _))
  | .flat => inferInstanceAs (Decidable (_ ≤ _))

/-- The initial stop until a price activates; from then on the best price so far less the
trailing distance, if that is better than the initial stop. -/
def trailedStop (prices : List ℚ) : ℚ :=
  match prices.dropWhile fun price => ¬ Activates d T entry price with
  | [] => initial
  | price :: rest =>
    match d with
    | .long => max initial (rest.foldl max price * (1 - T.stopPct / 100))
    | _ => min initial (rest.foldl min price * (1 + T.stopPct / 100))

/-- After `prices`, the next one is at or beyond the stop, or has reached the target without
any of them activating the trailing. -/
def ExitsAt (prices : List ℚ) (price : ℚ) : Prop :=
  d.AtOrWorse price (trailedStop d T entry initial prices) ∨
    ((∀ y ∈ prices, ¬ Activates d T entry y) ∧ ∃ x ∈ target, d.AtOrWorse x price)

end ClosedForm

section ClosedForm
variable {T : TrailingSettings} {entry initial : ℚ} {target : Option ℚ}

theorem trailedStop_long (prices : List ℚ) :
    trailedStop .long T entry initial prices =
      (longRule T entry target).boundAfter initial prices := by
  unfold trailedStop Rule.boundAfter
  have hsame : (prices.dropWhile fun price => ¬ Activates .long T entry price) =
      prices.dropWhile fun price => ¬ (longRule T entry target).on price := rfl
  rw [← hsame]
  cases prices.dropWhile fun price => ¬ Activates .long T entry price <;> rfl

theorem foldl_toDual (price : ℚ) (rest : List ℚ) :
    (rest.map OrderDual.toDual).foldl max (OrderDual.toDual price) =
      OrderDual.toDual (rest.foldl min price) := by
  induction rest generalizing price with
  | nil => rfl
  | cons x xs ih => exact ih (min price x)

theorem trailedStop_short (prices : List ℚ) :
    OrderDual.toDual (trailedStop .short T entry initial prices) =
      (shortRule T entry target).boundAfter (OrderDual.toDual initial)
        (prices.map OrderDual.toDual) := by
  unfold trailedStop Rule.boundAfter
  rw [List.dropWhile_map]
  have hsame : (prices.dropWhile fun price => ¬ Activates .short T entry price) =
      prices.dropWhile ((fun x => decide ¬ (shortRule T entry target).on x) ∘ OrderDual.toDual) :=
    rfl
  rw [← hsame]
  cases prices.dropWhile fun price => ¬ Activates .short T entry price with
  | nil => rfl
  | cons price rest =>
    simp only [List.map_cons, foldl_toDual]
    rfl

theorem exitsAt_long (prices : List ℚ) (price : ℚ) :
    ExitsAt .long T entry target initial prices price ↔
      (longRule T entry target).HitAfter initial prices price := by
  unfold ExitsAt Rule.HitAfter
  rw [← trailedStop_long]
  exact Iff.rfl

theorem exitsAt_short (prices : List ℚ) (price : ℚ) :
    ExitsAt .short T entry target initial prices price ↔
      (shortRule T entry target).HitAfter (OrderDual.toDual initial)
        (prices.map OrderDual.toDual) (OrderDual.toDual price) := by
  unfold ExitsAt Rule.HitAfter
  rw [← trailedStop_short]
  refine or_congr Iff.rfl (and_congr ?_ ?_)
  · simp only [List.forall_mem_map]
    rfl
  · simp [shortRule]
    rfl

end ClosedForm
/-- No evaluation at the prices asks for an exit. -/
def EnginePass.Holds (pass : EnginePass) (row : ManagedRow) (prices : List ℚ) : Prop :=
  StepsMeet pass.evaluate (fun row price => ¬ pass.Fires row price) row prices

section Ratchets
variable {pass : EnginePass} {row : ManagedRow} {entry initial : ℚ} {target : Option ℚ}

/-- What the evaluations of a position keep in step with its closed form. -/
structure RatchetLaw (d : Direction) (pass : EnginePass) (row : ManagedRow) (entry : ℚ)
    (target : Option ℚ) (initial : ℚ) (prices : List ℚ) : Prop where
  -- an exit comes with the first price that calls for it in the closed form
  holds_iff : pass.Holds row prices ↔ ∀ pre price, pre ++ [price] <+: prices →
    ¬ ExitsAt d pass.trailing entry target initial pre price
  fires_iff : pass.Holds row prices → ∀ price, pass.Fires (prices.foldl pass.evaluate row) price ↔
    ExitsAt d pass.trailing entry target initial prices price
  stop : pass.Holds row prices → (prices.foldl pass.evaluate row).stopPrice =
    some (trailedStop d pass.trailing entry initial prices)
  -- the stop never loosens
  tightens : ∀ pre, pre <+: prices → d.AtOrWorse (trailedStop d pass.trailing entry initial pre)
    (trailedStop d pass.trailing entry initial prices)
  -- the last price does not touch the stop it leaves, and does not fire again
  beyond : pass.Holds row prices → ∀ pre price, prices = pre ++ [price] →
    ¬ d.AtOrWorse price (trailedStop d pass.trailing entry initial prices) ∧
      ¬ pass.Fires (prices.foldl pass.evaluate row) price

variable (hon : pass.trailing.enabled = true) (h0 : 0 < pass.trailing.stopPct)
  (h100 : pass.trailing.stopPct < 100)
include hon h0 h100

theorem long_ratchet (h : row.Watched .long entry target false initial) (prices : List ℚ)
    (hpos : ∀ price ∈ prices, 0 < price) :
    RatchetLaw .long pass row entry target initial prices := by
  have hmono := longRule_monotone entry target h100
  have hagree (row : ManagedRow) (s : Stop ℚ) (price : ℚ)
      (hw : row.Watched .long entry target s.active s.bound) :
      pass.Fires row price ↔ (longRule pass.trailing entry target).Hit s price :=
    (hw.fires_iff hon price).trans (long_triggered_iff s price)
  have hkeep (row : ManagedRow) (s : Stop ℚ) (price : ℚ)
      (hw : row.Watched .long entry target s.active s.bound) (hquiet : ¬ pass.Fires row price) :=
    long_evaluated hw hon ((hagree row s price hw).not.mp hquiet)
  have hsim := (longRule pass.trailing entry target).simulated (f := id) hagree hkeep hmono h
    prices
  simp only [List.map_id, id_eq, ← exitsAt_long, ← trailedStop_long] at hsim
  refine ⟨hsim.1, fun hq => (hsim.2 hq).2, fun hq => (hsim.2 hq).1.stopPrice, fun pre hpre => ?_,
    fun hq pre price hprices => ?_⟩
  · have hle := (longRule pass.trailing entry target).boundAfter_mono hmono initial hpre
    rw [← trailedStop_long, ← trailedStop_long] at hle
    exact hle
  · have hprice : 0 < price := hpos price (by simp [hprices])
    have htrail : price * (1 - pass.trailing.stopPct / 100) < price := by
      have hcut : 0 < price * (pass.trailing.stopPct / 100) := by positivity
      linarith
    subst hprices
    obtain ⟨hlt, hagain⟩ := (longRule pass.trailing entry target).simulated_last (f := id) hagree
      hkeep hmono h htrail hq
    rw [List.map_id, ← trailedStop_long] at hlt
    exact ⟨not_le.mpr hlt, hagain⟩

omit h100 in
theorem short_ratchet (h : row.Watched .short entry target false initial) (prices : List ℚ)
    (hpos : ∀ price ∈ prices, 0 < price) :
    RatchetLaw .short pass row entry target initial prices := by
  have hmono := shortRule_monotone entry target h0
  have hagree (row : ManagedRow) (s : Stop ℚᵒᵈ) (price : ℚ)
      (hw : row.Watched .short entry target s.active (OrderDual.ofDual s.bound)) :
      pass.Fires row price ↔
        (shortRule pass.trailing entry target).Hit s (OrderDual.toDual price) :=
    (hw.fires_iff hon price).trans (short_triggered_iff s price)
  have hkeep (row : ManagedRow) (s : Stop ℚᵒᵈ) (price : ℚ)
      (hw : row.Watched .short entry target s.active (OrderDual.ofDual s.bound))
      (hquiet : ¬ pass.Fires row price) :=
    short_evaluated hw hon ((hagree row s price hw).not.mp hquiet)
  have hsim := (shortRule pass.trailing entry target).simulated (f := OrderDual.toDual) hagree
    hkeep hmono (b := OrderDual.toDual initial) h prices
  simp only [← exitsAt_short, ← trailedStop_short] at hsim
  refine ⟨hsim.1, fun hq => (hsim.2 hq).2, fun hq => (hsim.2 hq).1.stopPrice, fun pre hpre => ?_,
    fun hq pre price hprices => ?_⟩
  · have hle := (shortRule pass.trailing entry target).boundAfter_mono hmono
      (OrderDual.toDual initial) (hpre.map OrderDual.toDual)
    rw [← trailedStop_short, ← trailedStop_short] at hle
    exact hle
  · have hprice : 0 < price := hpos price (by simp [hprices])
    have htrail : price < price * (1 + pass.trailing.stopPct / 100) := by
      have hadd : 0 < price * (pass.trailing.stopPct / 100) := by positivity
      linarith
    subst hprices
    obtain ⟨hlt, hagain⟩ := (shortRule pass.trailing entry target).simulated_last
      (f := OrderDual.toDual) hagree hkeep hmono (b := OrderDual.toDual initial) h htrail hq
    rw [← trailedStop_short] at hlt
    exact ⟨not_le.mpr hlt, hagain⟩

end Ratchets

/-- Ten shares bought at 100, with a stop at 95 and a target at 120. -/
def boughtAtHundred : ManagedRow where
  direction := some .long
  quantity := some 10
  avgPrice := some 100
  stopPrice := some 95
  takeProfit := some 120

theorem boughtAtHundred_watched : boughtAtHundred.Watched .long 100 (some 120) false 95 where
  direction := rfl
  notFlat := nofun
  quantity := ⟨10, rfl, by norm_num [flatTolerance]⟩
  avgPrice := rfl
  takeProfit := rfl
  unlocked := rfl
  stopPrice := rfl
  exitState := iff_of_false nofun nofun

def defaultPass : EnginePass where
  trailing := ⟨true, 5 / 4, 3 / 5⟩
  router := ⟨.paper, false, true, none⟩
  lastPrice := none
  sessionDateIst := "2026-01-05"
  now := "t1"
  answers := ⟨.answered, .returned true true, .accepted, .answered⟩

end QuantEmbrace
