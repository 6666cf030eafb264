import QuantEmbrace.ProtectiveLevels

/-! The bias before the close: what the two sides of a window would score if they were counted
alike, and where the score that is computed is that one. -/
namespace QuantEmbrace.Strategies
open Indicators RiskCheck Candles

/-- Two bars or more, the oldest first. -/
structure BiasWindow where
  first : Bar
  middle : List Bar
  last : Bar
  deriving DecidableEq, Repr

namespace BiasWindow
variable (w : BiasWindow)

def bars : List Bar := w.first :: (w.middle ++ [w.last])

def closes : List ℚ := w.bars.map Bar.closePrice

def opens : List ℚ := w.bars.map Bar.openPrice

def countAbove : ℕ := w.bars.countP fun b => b.openPrice < b.closePrice

def countBelow : ℕ := w.bars.countP fun b => b.closePrice < b.openPrice

/-- The bars that close at their open. -/
def countLevel : ℕ := w.bars.countP fun b => b.closePrice = b.openPrice

def netReturn : ℚ := (w.last.closePrice - w.first.closePrice) / w.first.closePrice

/-- What so many bars of the window are worth together with the net return. -/
def score (count : ℕ) : ℚ :=
  min 1 (7 / 10 * (count / w.bars.length) + min (3 / 10) (100 * |w.netReturn|))

/-- The side of the net move, if the last bar is on it too. -/
def side : Option OrderSide :=
  if w.first.closePrice < w.last.closePrice ∧ w.last.openPrice < w.last.closePrice then
    some .buy
  else if w.last.closePrice < w.first.closePrice ∧ w.last.closePrice < w.last.openPrice then
    some .sell
  else none

def countOf : OrderSide → ℕ
  | .buy => w.countAbove
  | .sell => w.countBelow

/-- The bias that counts for each side the bars that closed on it. -/
def evenBias : Option (OrderSide × ℚ) :=
  w.side.map fun side => (side, w.score (w.countOf side))

/-- A window that starts above zero and fell has a last bar that rose, or no bar that closed at
its open. One that does not start above zero has no side. -/
def EvenHanded : Prop :=
  if 0 < w.first.closePrice then
    w.last.closePrice < w.first.closePrice →
      w.last.openPrice < w.last.closePrice ∨ ∀ b ∈ w.bars, b.closePrice ≠ b.openPrice
  else w.side = none

theorem counts_add (bars : List Bar) :
    bars.countP (fun b => b.openPrice < b.closePrice) +
      (bars.countP (fun b => b.closePrice < b.openPrice) +
        bars.countP (fun b => b.closePrice = b.openPrice)) = bars.length := by
  induction bars with
  | nil => rfl
  | cons b bars ih =>
    simp only [List.countP_cons, List.length_cons, decide_eq_true_eq]
    obtain hlt | heq | hgt := lt_trichotomy b.openPrice b.closePrice
    · rw [if_pos hlt, if_neg hlt.not_gt, if_neg hlt.ne']
      omega
    · rw [if_neg heq.not_lt, if_neg heq.not_gt, if_pos heq.symm]
      omega
    · rw [if_neg hgt.not_gt, if_pos hgt, if_neg hgt.ne]
      omega

variable {w}

theorem countAbove_add : w.countAbove + (w.countBelow + w.countLevel) = w.bars.length :=
  counts_add w.bars

theorem countLevel_eq_zero : w.countLevel = 0 ↔ ∀ b ∈ w.bars, b.closePrice ≠ b.openPrice := by
  simp [countLevel, List.countP_eq_zero]

theorem length_pos : (0 : ℚ) < w.bars.length := by
  rw [bars, List.length_cons]
  exact Nat.cast_pos.mpr (Nat.succ_pos _)

theorem getLast?_bars : w.bars.getLast? = some w.last := by
  rw [bars, ← List.cons_append]
  exact List.getLast?_concat

/-- The cap of the score is never reached by more than what it is. -/
theorem score_eq {count : ℕ} (h : count ≤ w.bars.length) :
    w.score count = 7 / 10 * (count / w.bars.length) + min (3 / 10) (100 * |w.netReturn|) := by
  have hratio : (count : ℚ) / w.bars.length ≤ 1 :=
    (div_le_one length_pos).mpr (Nat.cast_le.mpr h)
  have hcap : min (3 / 10) (100 * |w.netReturn|) ≤ 3 / 10 := min_le_left _ _
  exact min_eq_right (by linarith)

/-- A bar more that is counted is worth as much as any other. -/
theorem score_inj {a b : ℕ} (ha : a ≤ w.bars.length) (hb : b ≤ w.bars.length) :
    w.score a = w.score b ↔ a = b := by
  refine ⟨fun h => ?_, congrArg w.score⟩
  rw [score_eq ha, score_eq hb] at h
  have hratio : (a : ℚ) / w.bars.length = b / w.bars.length := by linarith
  exact Nat.cast_injective ((div_left_inj' length_pos.ne').mp hratio)

/-- What is computed counts a bar that closed at its open as one that fell. -/
theorem computeBias_eq : PreCloseMomentumStrategy.computeBias w.closes w.opens =
    if 0 < w.first.closePrice then
      if w.first.closePrice < w.last.closePrice then
        if w.last.openPrice < w.last.closePrice then some (.buy, w.score w.countAbove) else none
      else if w.last.closePrice < w.first.closePrice then
        if w.last.openPrice < w.last.closePrice then none
        else some (.sell, w.score (w.countBelow + w.countLevel))
      else none
    else none := by
  have hhead : w.closes.head? = some w.first.closePrice := rfl
  have hlast : w.closes.getLast? = some w.last.closePrice := by
    rw [closes, List.getLast?_map, getLast?_bars]
    rfl
  have hopen : w.opens.getLast? = some w.last.openPrice := by
    rw [opens, List.getLast?_map, getLast?_bars]
    rfl
  have hlength : w.closes.length = w.bars.length := List.length_map _
  have htwo : ¬ w.bars.length < 2 := by simp [bars]
  have hbull : (List.zip w.closes w.opens).countP (fun b => b.2 < b.1) = w.countAbove := by
    rw [closes, opens, List.zip_map', List.countP_map]
    rfl
  have hrest : (w.bars.length : ℚ) - w.countAbove = (w.countBelow + w.countLevel : ℕ) := by
    rw [← w.countAbove_add]
    push_cast
    ring
  rw [PreCloseMomentumStrategy.computeBias, hhead, hlast, hopen]
  dsimp only
  rw [hlength, if_neg htwo, hbull, hrest]
  by_cases hfirst : 0 < w.first.closePrice
  · rw [if_pos hfirst, if_pos hfirst]
    have hup : 0 < w.netReturn ↔ w.first.closePrice < w.last.closePrice := by
      rw [netReturn, lt_div_iff₀ hfirst, zero_mul, sub_pos]
    have hdown : w.netReturn < 0 ↔ w.last.closePrice < w.first.closePrice := by
      rw [netReturn, div_lt_iff₀ hfirst, zero_mul, sub_neg]
    have hreturn : (w.last.closePrice - w.first.closePrice) / w.first.closePrice = w.netReturn :=
      rfl
    have hscore : ∀ count : ℕ, min 1 ((count : ℚ) / w.bars.length * (7 / 10) +
        min (3 / 10) (|w.netReturn| * 100)) = w.score count := by
      intro count
      rw [score, mul_comm (7 / 10 : ℚ), mul_comm (100 : ℚ)]
    rw [hreturn, hscore, hscore]
    simp only [hup, hdown]
    by_cases hrose : w.last.openPrice < w.last.closePrice
    · simp only [if_pos hrose, if_neg (not_le.mpr hrose)]
    · simp only [if_neg hrose, if_pos (not_lt.mp hrose)]
  · rw [if_neg hfirst, if_neg hfirst, if_neg (lt_irrefl 0), if_neg (lt_irrefl 0)]

theorem side_up (h : w.first.closePrice < w.last.closePrice) :
    w.side = if w.last.openPrice < w.last.closePrice then some .buy else none := by
  simp [side, h, h.not_gt]

theorem side_down (h : w.last.closePrice < w.first.closePrice) :
    w.side = if w.last.closePrice < w.last.openPrice then some .sell else none := by
  simp [side, h, h.not_gt]

/-- The bias is that of two sides counted alike exactly where no bar that closed at its open is
taken for one that fell. -/
theorem computeBias_eq_evenBias_iff (w : BiasWindow) :
    PreCloseMomentumStrategy.computeBias w.closes w.opens = w.evenBias ↔ w.EvenHanded := by
  rw [computeBias_eq, evenBias, EvenHanded]
  by_cases hfirst : 0 < w.first.closePrice
  · rw [if_pos hfirst, if_pos hfirst]
    obtain hup | hflat | hdown := lt_trichotomy w.first.closePrice w.last.closePrice
    · rw [if_pos hup, side_up hup]
      refine iff_of_true ?_ fun hdown => absurd hdown hup.not_gt
      split <;> rfl
    · rw [if_neg hflat.not_lt, if_neg hflat.not_gt]
      refine iff_of_true ?_ fun hdown => absurd hdown hflat.not_gt
      simp [side, hflat]
    · rw [if_neg hdown.not_gt, if_pos hdown, side_down hdown]
      obtain hrose | hlevel | hfell := lt_trichotomy w.last.openPrice w.last.closePrice
      · rw [if_pos hrose, if_neg hrose.not_gt]
        exact iff_of_true rfl fun _ => .inl hrose
      · rw [if_neg hlevel.not_lt, if_neg hlevel.not_gt]
        refine iff_of_false (fun h => by cases h) fun h => ?_
        have hlast : w.last ∈ w.bars := by simp [bars]
        obtain hrose | hnone := h hdown
        · exact hlevel.not_lt hrose
        · exact hnone w.last hlast hlevel.symm
      · rw [if_neg hfell.not_gt, if_pos hfell]
        have hsum := w.countAbove_add
        have hscores := score_inj (w := w) (a := w.countBelow + w.countLevel)
          (b := w.countBelow) (by omega) (by omega)
        simp [hscores, countOf, countLevel_eq_zero, hdown, hfell.not_gt]
  · rw [if_neg hfirst, if_neg hfirst, eq_comm, Option.map_eq_none_iff]

/-- Bars enough are a window. -/
theorem exists_bars {bars : List Bar} (h : 2 ≤ bars.length) :
    ∃ w : BiasWindow, w.bars = bars := by
  cases bars with
  | nil => exact absurd h (by decide)
  | cons first rest =>
    obtain rfl | ⟨middle, last, rfl⟩ := rest.eq_nil_or_concat'
    · exact absurd h (by simp)
    · exact ⟨⟨first, middle, last⟩, rfl⟩

end BiasWindow

theorem lastN_lastN {α : Type*} {n m : ℕ} (h : n ≤ m) (values : List α) :
    lastN n (lastN m values) = lastN n values := by
  simp only [lastN, List.length_drop, List.drop_drop]
  congr 1
  omega

theorem lastN_map {α β : Type*} (f : α → β) (n : ℕ) (values : List α) :
    lastN n (values.map f) = (lastN n values).map f := by
  rw [lastN, lastN, List.length_map, List.map_drop]

namespace PreCloseMomentumStrategy
variable (p : PreCloseMomentumStrategy)

/-- Closes and opens are kept of the same bars. -/
structure Aligned (r : PreCloseRolling) (bars : List Bar) : Prop where
  closes_eq : r.closes = lastN p.bufferSize (bars.map Bar.closePrice)
  opens_eq : r.opens = lastN p.bufferSize (bars.map Bar.openPrice)

variable {p}

theorem Aligned.append {r : PreCloseRolling} {bars : List Bar} (h : p.Aligned r bars)
    (bar : Bar) : p.Aligned (p.append bar r) (bars ++ [bar]) where
  closes_eq := by
    rw [List.map_append, List.map_singleton, ← push_lastN, ← h.closes_eq]
    rfl
  opens_eq := by
    rw [List.map_append, List.map_singleton, ← push_lastN, ← h.opens_eq]
    rfl

theorem Aligned.session {x : Session PreCloseDaily PreCloseRolling} {bars : List Bar}
    (h : p.Aligned x.rolling bars) (es : List Dispatch) :
    p.Aligned (p.strategy.session es x).rolling (bars ++ es.map Dispatch.bar) := by
  induction es generalizing x bars with
  | nil => simpa using h
  | cons e es ih =>
    have hrolling : (p.strategy.onBar e x).1.rolling = p.append e.bar x.rolling :=
      p.onBar_rolling e x
    have hnext := h.append e.bar
    rw [← hrolling] at hnext
    simpa using ih hnext

theorem two_le_of_bias {closes opens : List ℚ} {bias : OrderSide × ℚ}
    (h : computeBias closes opens = some bias) : 2 ≤ closes.length := by
  rw [computeBias] at h
  split at h
  · split at h
    · cases h
    · next hlong => exact not_lt.mp hlong
  · cases h

/-- A signal is on the side of the bias over the last bars, in any run from the start. -/
theorem signal_window {es : List Dispatch} {e : Dispatch} {signal : Signal}
    (h : Outcome.signal (p.onBar e (p.strategy.session es p.strategy.fresh)).2 = some signal) :
    ∃ w : BiasWindow, w.bars = lastN p.lookback ((es ++ [e]).map Dispatch.bar) ∧
      ∃ score, computeBias w.closes w.opens = some (signal.direction, score) ∧
        p.minBias ≤ score := by
  have hfresh : p.Aligned p.strategy.fresh.rolling [] :=
    ⟨List.drop_nil.symm, List.drop_nil.symm⟩
  have haligned := (hfresh.session es).append e.bar
  have hbars : [] ++ es.map Dispatch.bar ++ [e.bar] = (es ++ [e]).map Dispatch.bar := by
    rw [List.nil_append, List.map_append, List.map_singleton]
  rw [hbars] at haligned
  have hfits : p.lookback ≤ p.bufferSize :=
    (Nat.le_add_right _ 2).trans (le_max_left _ _)
  obtain ⟨_, _, score, _, -, hbias, hscore, hbuilt⟩ := preClose_built (onBar_preClose h)
  rw [← hbuilt.direction] at hbias
  rw [haligned.closes_eq, haligned.opens_eq, lastN_lastN hfits, lastN_lastN hfits,
    lastN_map Bar.closePrice, lastN_map Bar.openPrice] at hbias
  have hlong := two_le_of_bias hbias
  rw [List.length_map] at hlong
  obtain ⟨w, hw⟩ := BiasWindow.exists_bars hlong
  refine ⟨w, hw, score, ?_, hscore⟩
  rw [BiasWindow.closes, BiasWindow.opens, hw]
  exact hbias

end PreCloseMomentumStrategy

/-- A bar of INFY that opens and closes at these prices. -/
def openClose (openPrice closePrice : ℚ) : Bar :=
  { (infyBar 0 885 (max openPrice closePrice) (min openPrice closePrice) closePrice 1000).bar with
    openPrice := openPrice }

/-- The last bar closed at its open, a step below the first. -/
def levelAtTheEnd : BiasWindow := ⟨openClose 101 100, [], openClose 99 99⟩

/-- It gives a side to sell although the last bar did not fall, and both bars are counted. -/
theorem level_bar_sells :
    ¬ ∀ w : BiasWindow, PreCloseMomentumStrategy.computeBias w.closes w.opens = w.evenBias := by
  intro h
  have hsells : PreCloseMomentumStrategy.computeBias levelAtTheEnd.closes levelAtTheEnd.opens =
      some (.sell, 1) := by decide +kernel
  have heven : levelAtTheEnd.evenBias = none := by decide +kernel
  exact absurd (hsells.symm.trans ((h levelAtTheEnd).trans heven)) (by decide)

end QuantEmbrace.Strategies
