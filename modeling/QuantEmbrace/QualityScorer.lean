import QuantEmbrace.SignalRoutes
import QuantEmbrace.Lib.ConfigValue
import Mathlib.Logic.Function.Basic

/-! The quality score of a signal and the soft filter on it, with every place where the score can
fail to be computed. Where an exception matters only as such, its result is `none`. -/
namespace QuantEmbrace.QualityScorer
open IsoFormat PythonValue SignalFlow Strategies

/-- A loaded object, by the attributes that the helper looks for. A call gives the first row of
its result, or raises. -/
structure QualityModel where
  hasPredict : Bool
  predictProba : Option (List JsonFloat → Option (List JsonFloat))
  predict : List JsonFloat → Option JsonFloat

structure ModelMetadata where
  features : List String
  isStub : Bool
  deriving DecidableEq, Repr

structure ModelEntry where
  model : QualityModel
  metadata : ModelMetadata

/-- The attributes of a `FeatureSet`. -/
abbrev FeatureReading : Type := String → Option JsonFloat

def qualityFeatures : List String :=
  ["rsi_14", "ema_9", "ema_21", "vwap", "atr_14", "adx_14", "macd", "macd_signal", "macd_hist",
    "volume_ratio"]

def modelFeatures : List String :=
  ["rsi_14", "ema_9", "ema_21", "vwap", "atr_14", "adx_14", "macd", "macd_signal", "macd_hist",
    "volume_ratio"]

def degradedScore : JsonFloat := .finite (1 / 2)

/-- `_feature_set_to_dict` -/
def featureSetToDict (reading : FeatureReading) : FeatureReading := fun name =>
  if name ∈ modelFeatures then reading name else none

/-- `get_features`; what the reader raises is no reading. -/
def getFeatures (read : Option (Option FeatureReading)) : Option FeatureReading :=
  read.join.map featureSetToDict

def toFeatureVector (features : FeatureReading) (names : List String) : List JsonFloat :=
  names.map fun name => (features name).getD (.finite 0)

/-- `np.clip(x, 0.0, 1.0)` -/
def clip : JsonFloat → JsonFloat
  | .finite q => .finite (max 0 (min q 1))
  | .infinity negative => .finite (if negative then 0 else 1)
  | .nan => .nan

/-- `max(row)`, which raises an error on an empty row. -/
def maxOf : List JsonFloat → Option JsonFloat
  | [] => none
  | x :: xs => some (xs.foldl (fun best y => if best.less y then y else best) x)

/-- What the helper tries: `predict_proba` where there is one, else `predict`. -/
def infer (model : QualityModel) (vector : List JsonFloat) : Option JsonFloat :=
  match model.predictProba with
  | some predictProba => do
    match ← predictProba vector with
    | [_, good] => return clip good
    | proba => return clip (← maxOf proba)
  | none => (model.predict vector).map clip

/-- `_run_quality_inference`; the import of numpy stands before the `try`. -/
def runQualityInference (numpy : Bool) (model : QualityModel) (vector : List JsonFloat)
    (isStub : Bool) : Option JsonFloat :=
  if numpy = false then none
  else if isStub = true ∨ model.hasPredict = false then some degradedScore
  else some ((infer model vector).getD degradedScore)

/-- What a call meets: how loading ends and what the registry has then, what the feature reader
answers, and whether numpy can be imported. -/
structure ScorerWorld where
  load : Option (Option ModelEntry)
  features : Option (Option FeatureReading)
  numpy : Bool

def directionEncoded : OrderSide → JsonFloat
  | .buy => .finite 1
  | .sell => .finite (-1)

/-- The vector that is handed to the model. -/
def vectorOf (entry : ModelEntry) (features : FeatureReading) (direction : OrderSide) :
    List JsonFloat :=
  let withDirection := Function.update features "direction" (some (directionEncoded direction))
  toFeatureVector withDirection
    (if entry.metadata.features = [] then qualityFeatures else entry.metadata.features)

/-- `_score` -/
def innerScore (w : ScorerWorld) (direction : OrderSide) (threshold : ℚ) :
    Option (JsonFloat × Bool) := do
  match ← w.load with
  | none => return (degradedScore, false)
  | some entry =>
    match getFeatures w.features with
    | none => return (degradedScore, false)
    | some features =>
      let qualityScore ← runQualityInference w.numpy entry.model
        (vectorOf entry features direction) entry.metadata.isStub
      return (qualityScore, qualityScore.lt threshold)

def score (w : ScorerWorld) (direction : OrderSide) (threshold : ℚ) : JsonFloat × Bool :=
  (innerScore w direction threshold).getD (degradedScore, false)

/-- A threshold as the enricher holds it. -/
structure Threshold where
  value : ℚ
  nonneg : 0 ≤ value
  le_one : value ≤ 1

def defaultQualityThreshold : Threshold := ⟨0, le_rfl, by decide⟩

/-- `max(0.0, min(1.0, value))`; of NaN this is one. -/
def clampThreshold : JsonFloat → Threshold
  | .finite q => ⟨max 0 (min 1 q), le_max_left _ _, max_le (by decide) (min_le_left _ _)⟩
  | .infinity true => ⟨0, le_rfl, by decide⟩
  | .infinity false | .nan => ⟨1, by decide, le_rfl⟩

/-- `_read_threshold_from_dynamo`: there is no table or its read fails, the item has no threshold,
or it has one. -/
def readThreshold (read : Option (Option JsonFloat)) : Threshold :=
  read.join.elim defaultQualityThreshold clampThreshold

abbrev ThresholdCache : Type := String → Option Threshold

def getThreshold (strategyName : String) (read : Option (Option JsonFloat))
    (cache : ThresholdCache) : Threshold × ThresholdCache :=
  match cache strategyName with
  | some threshold => (threshold, cache)
  | none =>
    let threshold := readThreshold read
    (threshold, Function.update cache strategyName (some threshold))

structure RegimeOutput where
  regime : String
  confidence : JsonFloat
  deriving DecidableEq, Repr

/-- What a call of `enrich` meets. -/
structure EnricherWorld extends ScorerWorld where
  classified : Option RegimeOutput
  threshold : Option (Option JsonFloat)
  modelVersions : List (Text × Json)
  latencyMs : JsonFloat

/-- The rest of the `try` after the scorer has returned or raised. -/
def pipeline (w : EnricherWorld) (regime : RegimeOutput) :
    Option (JsonFloat × Bool) → EnrichmentOutcome
  | some (qualityScore, filtered) => .computed {
      regime := regime.regime
      regimeConfidence := regime.confidence
      qualityScore := qualityScore
      filtered := filtered
      latencyMs := w.latencyMs
      modelVersions := w.modelVersions }
  | none => .failed w.latencyMs

/-- `enrich` with any scorer, one that raises included. The threshold is not looked up when the
classifier raises. -/
def enrichWith (now : DateTime) (event : SignalEvent) (w : EnricherWorld)
    (scorer : ℚ → Option (JsonFloat × Bool)) (cache : ThresholdCache) :
    EnrichedSignal × ThresholdCache :=
  match w.classified with
  | none => (SignalFlow.enrich now event (.failed w.latencyMs), cache)
  | some regime =>
    let (threshold, cache') := getThreshold event.signal.strategyName w.threshold cache
    (SignalFlow.enrich now event (pipeline w regime (scorer threshold.value)), cache')

def enrich (now : DateTime) (event : SignalEvent) (w : EnricherWorld) (cache : ThresholdCache) :
    EnrichedSignal × ThresholdCache :=
  enrichWith now event w (fun threshold => some (score w.toScorerWorld event.signal.direction
    threshold)) cache

/-- The threshold of the signal's strategy. -/
def thresholdOf (event : SignalEvent) (w : EnricherWorld) (cache : ThresholdCache) : ℚ :=
  (getThreshold event.signal.strategyName w.threshold cache).1.value

/-- The score that a real model computes, if it comes to that. -/
def realScore (w : ScorerWorld) (direction : OrderSide) : Option JsonFloat :=
  match w.load.join, getFeatures w.features with
  | some entry, some features =>
    if w.numpy = true ∧ entry.metadata.isStub = false ∧ entry.model.hasPredict = true then
      infer entry.model (vectorOf entry features direction)
    else none
  | _, _ => none

/-- The helper runs, and has no score from a real model: the model is a stub or cannot predict, or
its inference raises an error. -/
def FailsInHelper (w : ScorerWorld) (direction : OrderSide) : Prop :=
  w.load.join.isSome ∧ (getFeatures w.features).isSome ∧ w.numpy = true ∧
    realScore w direction = none

def Degraded (e : EnrichedSignal) : Prop :=
  e.qualityScore = .finite (1 / 2) ∧ e.filtered = false

/-- The signal goes on unfiltered where there is no score, and where there is one the filter
compares it with the threshold. -/
structure FiltersByScore (w : EnricherWorld) (direction : OrderSide) (threshold : ℚ)
    (e : EnrichedSignal) : Prop where
  degraded : w.classified = none ∨ realScore w.toScorerWorld direction = none → Degraded e
  compared : ∀ q, w.classified ≠ none → realScore w.toScorerWorld direction = some (.finite q) →
    e.qualityScore = .finite q ∧ (e.filtered = true ↔ q < threshold)

theorem lt_mono {x : JsonFloat} {p q : ℚ} (hle : p ≤ q) (h : x.lt p = true) : x.lt q = true := by
  cases x with
  | finite r => exact decide_eq_true (lt_of_lt_of_le (of_decide_eq_true h) hle)
  | infinity negative => exact h
  | nan => exact h

section Scoring
variable {w : ScorerWorld} {direction : OrderSide} {threshold : ℚ}

theorem score_early (h : w.load.join = none ∨ getFeatures w.features = none ∨ w.numpy = false) :
    score w direction threshold = (degradedScore, false) := by
  rw [score, innerScore]
  cases hload : w.load with
  | none => rfl
  | some entry? =>
    cases entry? with
    | none => rfl
    | some entry =>
      have hentry : w.load.join ≠ none := by simp [hload]
      cases hfeatures : getFeatures w.features with
      | none => rfl
      | some features =>
        have hnumpy : w.numpy = false := by
          obtain h | h | h := h
          · exact absurd h hentry
          · rw [hfeatures] at h
            cases h
          · exact h
        have hraises : runQualityInference w.numpy entry.model
            (vectorOf entry features direction) entry.metadata.isStub = none := if_pos hnumpy
        change (Option.bind (runQualityInference w.numpy entry.model
          (vectorOf entry features direction) entry.metadata.isStub) _).getD _ = _
        rw [hraises]
        rfl

theorem not_runs (h : ¬ (w.load.join.isSome ∧ (getFeatures w.features).isSome ∧ w.numpy = true)) :
    w.load.join = none ∨ getFeatures w.features = none ∨ w.numpy = false := by
  simpa [Classical.or_iff_not_imp_left, Option.isSome_iff_ne_none] using h

theorem realScore_early
    (h : w.load.join = none ∨ getFeatures w.features = none ∨ w.numpy = false) :
    realScore w direction = none := by
  rw [realScore]
  cases hload : w.load.join with
  | none => rfl
  | some entry =>
    cases hfeatures : getFeatures w.features with
    | none => rfl
    | some features =>
      have hnumpy : w.numpy = false := by simpa [hload, hfeatures] using h
      exact if_neg fun hreal => by simp [hnumpy] at hreal

/-- Once the helper runs, its number is compared with the threshold, whatever it stands for. -/
theorem score_helper (hload : w.load.join.isSome) (hfeatures : (getFeatures w.features).isSome)
    (hnumpy : w.numpy = true) : score w direction threshold =
      ((realScore w direction).getD degradedScore,
        ((realScore w direction).getD degradedScore).lt threshold) := by
  obtain ⟨entry, hentry⟩ := Option.isSome_iff_exists.mp hload
  obtain ⟨features, hread⟩ := Option.isSome_iff_exists.mp hfeatures
  have hwhole : w.load = some (some entry) := Option.join_eq_some_iff.mp hentry
  have hnumpy' : ¬ w.numpy = false := by rw [hnumpy]; decide
  have hhelper : runQualityInference w.numpy entry.model (vectorOf entry features direction)
      entry.metadata.isStub = some ((realScore w direction).getD degradedScore) := by
    rw [runQualityInference, if_neg hnumpy', realScore, hentry, hread]
    by_cases hstub : entry.metadata.isStub = true ∨ entry.model.hasPredict = false
    · have hunreal : ¬ (w.numpy = true ∧ entry.metadata.isStub = false ∧
          entry.model.hasPredict = true) := by
        rintro ⟨-, hs, hp⟩
        rw [hs, hp] at hstub
        simp at hstub
      dsimp only
      rw [if_pos hstub, if_neg hunreal]
      rfl
    · have hreal : w.numpy = true ∧ entry.metadata.isStub = false ∧
          entry.model.hasPredict = true := by
        simpa [hnumpy] using hstub
      dsimp only
      rw [if_neg hstub, if_pos hreal]
  rw [score, innerScore, hwhole]
  change ((match getFeatures w.features with
    | none => _
    | some features => _ : Option (JsonFloat × Bool))).getD _ = _
  rw [hread]
  change (Option.bind (runQualityInference w.numpy entry.model
    (vectorOf entry features direction) entry.metadata.isStub) _).getD _ = _
  rw [hhelper]
  rfl

theorem score_real {s : JsonFloat} (h : realScore w direction = some s) :
    score w direction threshold = (s, s.lt threshold) := by
  have hrun : w.load.join.isSome ∧ (getFeatures w.features).isSome ∧ w.numpy = true := by
    by_contra hno
    have hnone : realScore w direction = none := realScore_early (not_runs hno)
    rw [hnone] at h
    cases h
  obtain ⟨hload, hfeatures, hnumpy⟩ := hrun
  rw [score_helper hload hfeatures hnumpy, h]
  rfl

/-- Filtering is monotone in the threshold, at every score. -/
theorem score_monotone {threshold' : ℚ} (hle : threshold ≤ threshold')
    (h : (score w direction threshold).2 = true) : (score w direction threshold').2 = true := by
  by_cases hrun : w.load.join.isSome ∧ (getFeatures w.features).isSome ∧ w.numpy = true
  · obtain ⟨hload, hfeatures, hnumpy⟩ := hrun
    rw [score_helper hload hfeatures hnumpy] at h ⊢
    exact lt_mono hle h
  · rw [score_early (not_runs hrun)] at h
    cases h

end Scoring

section Enriching
variable {now : DateTime} {event : SignalEvent} {w : EnricherWorld} {cache : ThresholdCache}

theorem enrich_failed (h : w.classified = none) : Degraded (enrich now event w cache).1 := by
  rw [enrich, enrichWith, h]
  exact ⟨rfl, rfl⟩

variable (now event cache) in
theorem enrich_scored (h : w.classified ≠ none) :
    ((enrich now event w cache).1.qualityScore, (enrich now event w cache).1.filtered) =
      score w.toScorerWorld event.signal.direction (thresholdOf event w cache) := by
  obtain ⟨regime, hregime⟩ := Option.ne_none_iff_exists'.mp h
  rw [enrich, enrichWith, hregime]
  rfl

/-- Only a failure inside the helper can be filtered: its 0.5 is compared with the threshold like
a score. -/
theorem enrich_degraded (hreal : realScore w.toScorerWorld event.signal.direction = none)
    (hclassified : w.classified ≠ none) :
    Degraded (enrich now event w cache).1 ↔
      (FailsInHelper w.toScorerWorld event.signal.direction →
        thresholdOf event w cache ≤ 1 / 2) := by
  have hscored := enrich_scored now event cache hclassified
  by_cases hrun : w.load.join.isSome ∧ (getFeatures w.features).isSome ∧ w.numpy = true
  · obtain ⟨hload, hfeatures, hnumpy⟩ := hrun
    have hfails : FailsInHelper w.toScorerWorld event.signal.direction :=
      ⟨hload, hfeatures, hnumpy, hreal⟩
    rw [score_helper hload hfeatures hnumpy, hreal, Prod.mk.injEq] at hscored
    obtain ⟨hvalue, hfiltered⟩ := hscored
    rw [Degraded, hvalue, hfiltered]
    simp [degradedScore, Option.getD_none, JsonFloat.lt, hfails]
  · rw [score_early (not_runs hrun), Prod.mk.injEq] at hscored
    have hnot : ¬ FailsInHelper w.toScorerWorld event.signal.direction :=
      fun hfails => hrun ⟨hfails.1, hfails.2.1, hfails.2.2.1⟩
    exact iff_of_true hscored fun hfails => absurd hfails hnot

theorem enrich_compared {q : ℚ} (hclassified : w.classified ≠ none)
    (hreal : realScore w.toScorerWorld event.signal.direction = some (.finite q)) :
    (enrich now event w cache).1.qualityScore = .finite q ∧
      ((enrich now event w cache).1.filtered = true ↔ q < thresholdOf event w cache) := by
  have hscored := enrich_scored now event cache hclassified
  rw [score_real hreal, Prod.mk.injEq] at hscored
  obtain ⟨hvalue, hfiltered⟩ := hscored
  refine ⟨hvalue, ?_⟩
  rw [hfiltered]
  exact decide_eq_true_iff

theorem enrich_monotone (read : Option (Option JsonFloat)) (cache' : ThresholdCache)
    (hle : thresholdOf event w cache ≤ thresholdOf event { w with threshold := read } cache')
    (h : (enrich now event w cache).1.filtered = true) :
    (enrich now event { w with threshold := read } cache').1.filtered = true := by
  by_cases hclassified : w.classified = none
  · rw [(enrich_failed hclassified).2] at h
    cases h
  · have hbefore := congrArg Prod.snd (enrich_scored now event cache hclassified)
    have hafter := congrArg Prod.snd
      (@enrich_scored now event { w with threshold := read } cache' hclassified)
    exact hafter.trans (score_monotone hle (hbefore.symm.trans h))

variable (now event w cache)

theorem filters_by_score_iff :
    (FiltersByScore w event.signal.direction (thresholdOf event w cache)
        (enrich now event w cache).1 ↔
      (w.classified ≠ none → FailsInHelper w.toScorerWorld event.signal.direction →
        thresholdOf event w cache ≤ 1 / 2)) ∧
    (∀ scorer : ℚ → Option (JsonFloat × Bool), (∀ threshold, scorer threshold = none) →
      Degraded (enrichWith now event w scorer cache).1) ∧
    ∀ read cache', thresholdOf event w cache ≤
        thresholdOf event { w with threshold := read } cache' →
      (enrich now event w cache).1.filtered = true →
      (enrich now event { w with threshold := read } cache').1.filtered = true := by
  refine ⟨⟨fun h hclassified hfails => ?_, fun h => ⟨?_, fun q => enrich_compared⟩⟩,
    fun scorer hraises => ?_, enrich_monotone⟩
  · exact (enrich_degraded hfails.2.2.2 hclassified).mp (h.degraded (.inr hfails.2.2.2)) hfails
  · intro hfails
    by_cases hclassified : w.classified = none
    · exact enrich_failed hclassified
    · exact (enrich_degraded (hfails.resolve_left hclassified) hclassified).mpr (h hclassified)
  · rw [enrichWith]
    cases w.classified with
    | none => exact ⟨rfl, rfl⟩
    | some regime =>
      dsimp only
      rw [hraises]
      exact ⟨rfl, rfl⟩

end Enriching

/-- The stub of paper mode, whose features are there, under a threshold of 0.6. -/
def stubWorld : EnricherWorld where
  load := some (some ⟨⟨true, some fun _ => some [.finite 1, .finite 0], fun _ => some (.finite 0)⟩,
    ⟨[], true⟩⟩)
  features := some (some fun _ => some (.finite 1))
  numpy := true
  classified := some ⟨"ranging", .finite (4 / 5)⟩
  threshold := some (some (.finite (3 / 5)))
  modelVersions := []
  latencyMs := .finite 3

def stubEvent : SignalEvent where
  signal := sellInfy 10
  traceId := "t-1"
  strategyId := "momentum"
  productType := "MIS"
  expiresAt := emitted

theorem stub_filtered :
    (enrich emitted stubEvent stubWorld fun _ => none).1.filtered = true ∧
      ¬ ∀ now event w cache, FiltersByScore w event.signal.direction (thresholdOf event w cache)
        (enrich now event w cache).1 := by
  have hfiltered : (enrich emitted stubEvent stubWorld fun _ => none).1.filtered = true := by
    decide +kernel
  refine ⟨hfiltered, fun h => ?_⟩
  have hkept : (enrich emitted stubEvent stubWorld fun _ => none).1.filtered = false :=
    ((h emitted stubEvent stubWorld fun _ => none).degraded (.inr rfl)).2
  rw [hfiltered] at hkept
  cases hkept

end QuantEmbrace.QualityScorer
