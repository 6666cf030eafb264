import QuantEmbrace.LiveUniverseSafety
import QuantEmbrace.Lib.Grouping

/-! The decisions of a snapshot beside its approved set, and the reports that are made from them. -/
namespace QuantEmbrace.Universe
open PythonValue UniverseBuilder
variable {S : Type}

/-- What a decision gives to the exclusion report: nothing if it approves or has no code. -/
def UniverseDecision.coded (d : UniverseDecision S) : Option (ExclusionReason × S) :=
  if d.approved then none else d.exclusionCodes.head?.map fun code => (code, d.symbol)

namespace UniverseSnapshot

/-- `excluded_symbols()` -/
def excludedSymbols [DecidableEq S] (snapshot : UniverseSnapshot S) : Finset S :=
  ((snapshot.decisions.filter fun d => !d.approved).map UniverseDecision.symbol).toFinset

/-- `exclusion_summary()` -/
def exclusionSummary (snapshot : UniverseSnapshot S) : List (ExclusionReason × List S) :=
  Grouping.group (snapshot.decisions.filterMap UniverseDecision.coded)

end UniverseSnapshot

/-- A symbol past the cap gets a decision of its own. -/
def capped (sym : S) : UniverseDecision S := ⟨sym, false, [.manualExclusion]⟩

theorem capAt_int (cap : ℕ) (approved : List S) :
    capAt (.int cap) approved = .ok (approved.take cap, approved.drop cap) := by
  rw [capAt, Json.compare_eq (x := .finite approved.length) (y := .finite cap) rfl rfl]
  by_cases hexceeds : cap < approved.length
  · have hless : JsonFloat.less (.finite (cap : ℚ)) (.finite (approved.length : ℚ)) = true := by
      simpa [JsonFloat.less] using hexceeds
    rw [hless]
    simp [cutAt, bind, Except.bind, pure, Except.pure]
  · have hless : JsonFloat.less (.finite (cap : ℚ)) (.finite (approved.length : ℚ)) = false := by
      simpa [JsonFloat.less] using hexceeds
    rw [hless, List.take_of_length_le (not_lt.mp hexceeds),
      List.drop_of_length_le (not_lt.mp hexceeds)]
    rfl

theorem coded_symbols {decisions : List (UniverseDecision S)}
    (h : ∀ d ∈ decisions, d.approved = false → d.exclusionCodes ≠ []) :
    (decisions.filterMap UniverseDecision.coded).map Prod.snd =
      (decisions.filter fun d => !d.approved).map UniverseDecision.symbol := by
  induction decisions with
  | nil => rfl
  | cons d rest ih =>
    have hrest := ih fun d hd => h d (List.mem_cons_of_mem _ hd)
    cases happroved : d.approved with
    | true =>
      have hcoded : d.coded = none := by rw [UniverseDecision.coded, if_pos happroved]
      rw [List.filterMap_cons_none hcoded, hrest, List.filter_cons_of_neg (by simp [happroved])]
    | false =>
      obtain ⟨code, codes, hcodes⟩ := List.exists_cons_of_ne_nil (h d List.mem_cons_self happroved)
      have hcoded : d.coded = some (code, d.symbol) := by
        rw [UniverseDecision.coded, if_neg (by simp [happroved]), hcodes]
        rfl
      rw [List.filterMap_cons_some hcoded, List.map_cons, hrest,
        List.filter_cons_of_pos (by simp [happroved]), List.map_cons]

/-- A symbol of the report has a decision against it that bears the code. -/
theorem rejected_of_group {snapshot : UniverseSnapshot S} {g : ExclusionReason × List S} {sym : S}
    (hg : g ∈ snapshot.exclusionSummary) (hsym : sym ∈ g.2) :
    ∃ d ∈ snapshot.decisions,
      d.symbol = sym ∧ d.approved = false ∧ d.exclusionCodes.head? = some g.1 := by
  obtain ⟨d, hd, hcoded⟩ := List.mem_filterMap.mp (Grouping.mem_of_group hg hsym)
  rw [UniverseDecision.coded] at hcoded
  split at hcoded
  next => cases hcoded
  next happroved =>
    obtain ⟨code, hcode, heq⟩ := Option.map_eq_some_iff.mp hcoded
    cases heq
    exact ⟨d, hd, rfl, Bool.eq_false_iff.mpr happroved, hcode⟩

variable [LinearOrder S]

/-- The candidates that no filter objects to. -/
def survivors (candidates : Finset S) (verdicts : List (FilterVerdict S)) : Finset S :=
  candidates.filter fun sym => ∀ v ∈ verdicts, v.symbol ≠ sym

/-- Every candidate has its one decision, and that is the one the approved set gives. -/
structure DecisionsAgree (snapshot : UniverseSnapshot S) (candidates : Finset S) : Prop where
  one : (snapshot.decisions.map UniverseDecision.symbol).Perm (candidates.sort (· ≤ ·))
  approved_iff : ∀ d ∈ snapshot.decisions, d.approved = true ↔ d.symbol ∈ snapshot.approvedSymbols

/-- The approved set is the alphabetically first of the survivors, the other candidates are
excluded, and the exclusion report has each of them once, under a code of its own. -/
structure Partitioned (snapshot : UniverseSnapshot S) (candidates : Finset S)
    (verdicts : List (FilterVerdict S)) (cap : ℕ) : Prop where
  first : snapshot.approvedSymbols =
    (((survivors candidates verdicts).sort (· ≤ ·)).take cap).toFinset
  disjoint : Disjoint snapshot.approvedSymbols snapshot.excludedSymbols
  union : snapshot.approvedSymbols ∪ snapshot.excludedSymbols = candidates
  reported : (snapshot.exclusionSummary.flatMap Prod.snd).Perm
    (snapshot.excludedSymbols.sort (· ≤ ·))
  grouped : ∀ g ∈ snapshot.exclusionSummary, ∀ sym ∈ g.2, ∃ d ∈ snapshot.decisions,
    d.symbol = sym ∧ d.approved = false ∧ d.exclusionCodes.head? = some g.1

section Assembling
variable {candidates : Finset S} {verdicts : List (FilterVerdict S)} {sym : S} {cap : ℕ}

theorem approved_iff_clear :
    (decisionOn verdicts sym).approved = true ↔ ∀ v ∈ verdicts, v.symbol ≠ sym := by
  rw [decisionOn, List.isEmpty_iff, List.filter_eq_nil_iff]
  exact forall₂_congr fun v _ => not_congr decide_eq_true_iff

theorem sort_survivors :
    ((candidates.sort (· ≤ ·)).filter fun sym => (decisionOn verdicts sym).approved) =
      (survivors candidates verdicts).sort (· ≤ ·) := by
  refine List.Perm.eq_of_pairwise' ((candidates.pairwise_sort _).filter _)
    (Finset.pairwise_sort _ _) ?_
  refine (List.perm_ext_iff_of_nodup ((candidates.sort_nodup _).filter _)
    (Finset.sort_nodup _ _)).mpr fun sym => ?_
  rw [List.mem_filter, Finset.mem_sort, Finset.mem_sort, survivors, Finset.mem_filter,
    approved_iff_clear]

theorem codes_of_rejected (h : (decisionOn verdicts sym).approved = false) :
    (decisionOn verdicts sym).exclusionCodes ≠ [] := by
  intro hcodes
  rw [decisionOn, List.map_eq_nil_iff] at hcodes
  rw [decisionOn, hcodes] at h
  cases h

variable {mode : UniverseMode} {date : Date} {sourceName : String}
  {modeCfg : List (Text × Json)} {snapshot : UniverseSnapshot S}

/-- The cap cuts the approved set, and adds to the decisions. -/
theorem decisions_of_assemble
    (hcap : Json.get "max_symbols" (.int 999) modeCfg = .int cap)
    (h : assemble mode date sourceName modeCfg candidates verdicts = .ok snapshot) :
    snapshot.approvedSymbols =
        (((survivors candidates verdicts).sort (· ≤ ·)).take cap).toFinset ∧
      snapshot.decisions = (candidates.sort (· ≤ ·)).map (decisionOn verdicts) ++
        (((survivors candidates verdicts).sort (· ≤ ·)).drop cap).map capped := by
  rw [assemble, PythonValue.bind_eq_ok] at h
  obtain ⟨⟨kept, past⟩, hcut, h⟩ := h
  obtain ⟨failure, -, h⟩ := PythonValue.bind_eq_ok.mp h
  cases h
  rw [hcap, sort_survivors, capAt_int] at hcut
  cases hcut
  exact ⟨rfl, rfl⟩

theorem exists_assemble {least : ℤ} (candidates : Finset S) (verdicts : List (FilterVerdict S))
    (hcap : Json.get "max_symbols" (.int 999) modeCfg = .int cap)
    (hleast : Json.get "min_symbols_to_trade" (.int 10) modeCfg = .int least) :
    ∃ snapshot, assemble mode date sourceName modeCfg candidates verdicts = .ok snapshot := by
  have hfailure : ∀ approved : Finset S,
      ∃ failure, failureModeOf (.int least) sourceName approved = .ok failure := by
    intro approved
    rw [failureModeOf]
    split
    next => exact ⟨_, rfl⟩
    next =>
      rw [Json.compare_eq (x := .finite approved.card) (y := .finite least) rfl rfl]
      cases JsonFloat.less (.finite (approved.card : ℚ)) (.finite (least : ℚ)) with
      | true => exact ⟨_, rfl⟩
      | false =>
        by_cases hsource : sourceName = "yaml_fallback"
        · exact ⟨_, if_pos hsource⟩
        · exact ⟨_, if_neg hsource⟩
  let sorted := (survivors candidates verdicts).sort (· ≤ ·)
  obtain ⟨failure, hfailure⟩ := hfailure (sorted.take cap).toFinset
  refine ⟨_, PythonValue.bind_eq_ok.mpr ⟨(sorted.take cap, sorted.drop cap), ?_,
    PythonValue.bind_eq_ok.mpr ⟨failure, ?_, rfl⟩⟩⟩
  · rw [hcap, sort_survivors]
    exact capAt_int cap _
  · rw [hleast]
    exact hfailure

end Assembling

section Reports
variable {candidates : Finset S} {verdicts : List (FilterVerdict S)} {cap : ℕ}
  {snapshot : UniverseSnapshot S} {sym : S}

theorem mem_rejected :
    (sym ∈ (candidates.sort (· ≤ ·)).filter fun sym => !(decisionOn verdicts sym).approved) ↔
      sym ∈ candidates ∧ sym ∉ survivors candidates verdicts := by
  rw [List.mem_filter, Finset.mem_sort, Bool.not_eq_true', Bool.eq_false_iff, ne_eq,
    approved_iff_clear, survivors, Finset.mem_filter, not_and]
  exact and_congr_right fun hsym => ⟨fun h _ => h, fun h => h hsym⟩

/-- No symbol is excluded twice: those past the cap are survivors. -/
theorem excluded_nodup :
    (((candidates.sort (· ≤ ·)).filter fun sym => !(decisionOn verdicts sym).approved) ++
      ((survivors candidates verdicts).sort (· ≤ ·)).drop cap).Nodup := by
  refine ((candidates.sort_nodup _).filter _).append
    ((Finset.sort_nodup _ _).sublist (List.drop_sublist _ _)) ?_
  intro sym hrejected hpast
  exact (mem_rejected.mp hrejected).2 ((Finset.mem_sort _).mp (List.mem_of_mem_drop hpast))

variable (hdecisions : snapshot.decisions = (candidates.sort (· ≤ ·)).map (decisionOn verdicts) ++
  (((survivors candidates verdicts).sort (· ≤ ·)).drop cap).map capped)

section Decided
include hdecisions

theorem excluded_list :
    (snapshot.decisions.filter fun d => !d.approved).map UniverseDecision.symbol =
      ((candidates.sort (· ≤ ·)).filter fun sym => !(decisionOn verdicts sym).approved) ++
        ((survivors candidates verdicts).sort (· ≤ ·)).drop cap := by
  rw [hdecisions, List.filter_append, List.map_append, List.filter_map, List.map_map,
    List.filter_map, List.map_map]
  refine congrArg₂ _ (List.map_id _) ?_
  exact (congrArg (List.map (UniverseDecision.symbol ∘ capped))
    (List.filter_eq_self.mpr fun _ _ => rfl)).trans (List.map_id _)

theorem mem_excluded : sym ∈ snapshot.excludedSymbols ↔
    (sym ∈ candidates ∧ sym ∉ survivors candidates verdicts) ∨
      sym ∈ ((survivors candidates verdicts).sort (· ≤ ·)).drop cap := by
  rw [UniverseSnapshot.excludedSymbols, List.mem_toFinset, excluded_list hdecisions,
    List.mem_append, mem_rejected]

theorem codes_ne_nil {d : UniverseDecision S} (hd : d ∈ snapshot.decisions)
    (hrejected : d.approved = false) : d.exclusionCodes ≠ [] := by
  rw [hdecisions, List.mem_append] at hd
  obtain hd | hd := hd
  · obtain ⟨sym, -, rfl⟩ := List.mem_map.mp hd
    exact codes_of_rejected hrejected
  · obtain ⟨sym, -, rfl⟩ := List.mem_map.mp hd
    exact List.cons_ne_nil _ _

theorem reported_perm : (snapshot.exclusionSummary.flatMap Prod.snd).Perm
    (snapshot.excludedSymbols.sort (· ≤ ·)) := by
  refine (Grouping.group_perm _).trans ?_
  rw [coded_symbols fun d => codes_ne_nil hdecisions]
  have hnodup := @excluded_nodup S _ candidates verdicts cap
  rw [← excluded_list hdecisions] at hnodup
  refine (List.perm_ext_iff_of_nodup hnodup (Finset.sort_nodup _ _)).mpr fun sym => ?_
  rw [Finset.mem_sort, UniverseSnapshot.excludedSymbols, List.mem_toFinset]

end Decided

variable (hfirst : snapshot.approvedSymbols =
  (((survivors candidates verdicts).sort (· ≤ ·)).take cap).toFinset)

include hfirst in
theorem mem_survivors : sym ∈ survivors candidates verdicts ↔ sym ∈ snapshot.approvedSymbols ∨
    sym ∈ ((survivors candidates verdicts).sort (· ≤ ·)).drop cap := by
  rw [hfirst, List.mem_toFinset, ← List.mem_append, List.take_append_drop, Finset.mem_sort]

include hdecisions hfirst

theorem approved_disjoint : Disjoint snapshot.approvedSymbols snapshot.excludedSymbols := by
  rw [Finset.disjoint_left]
  intro sym happroved hsym
  obtain hsym | hsym := (mem_excluded hdecisions).mp hsym
  · exact hsym.2 ((mem_survivors hfirst).mpr (.inl happroved))
  · rw [hfirst, List.mem_toFinset] at happroved
    exact List.disjoint_take_drop (Finset.sort_nodup _ _) le_rfl happroved hsym

theorem approved_union :
    snapshot.approvedSymbols ∪ snapshot.excludedSymbols = candidates := by
  ext sym
  have hcandidate : sym ∈ survivors candidates verdicts → sym ∈ candidates :=
    fun h => (Finset.mem_filter.mp h).1
  rw [Finset.mem_union, mem_excluded hdecisions]
  by_cases hsym : sym ∈ survivors candidates verdicts
  · simpa [hsym, hcandidate hsym] using (mem_survivors hfirst).mp hsym
  · have hno := (mem_survivors hfirst).not.mp hsym
    rw [not_or] at hno
    simp [hsym, hno]

theorem partitioned : Partitioned snapshot candidates verdicts cap where
  first := hfirst
  disjoint := approved_disjoint hdecisions hfirst
  union := approved_union hdecisions hfirst
  reported := reported_perm hdecisions
  grouped _ hg _ hsym := rejected_of_group hg hsym

/-- A second decision is what the cap costs, and there is one for each symbol past it. -/
theorem agree_iff :
    DecisionsAgree snapshot candidates ↔ (survivors candidates verdicts).card ≤ cap := by
  constructor
  · intro h
    have hlength := h.one.length_eq
    rw [hdecisions, List.length_map, List.length_append, List.length_map, List.length_map,
      List.length_drop, Finset.length_sort, Finset.length_sort] at hlength
    omega
  · intro hfits
    have hlength : ((survivors candidates verdicts).sort (· ≤ ·)).length ≤ cap := by
      rwa [Finset.length_sort]
    rw [List.take_of_length_le hlength, Finset.sort_toFinset] at hfirst
    rw [List.drop_of_length_le hlength, List.map_nil, List.append_nil] at hdecisions
    refine ⟨?_, fun d hd => ?_⟩
    · rw [hdecisions, List.map_map]
      exact .of_eq (List.map_id _)
    · rw [hdecisions] at hd
      obtain ⟨sym, hsym, rfl⟩ := List.mem_map.mp hd
      have hcandidate : sym ∈ candidates := (Finset.mem_sort _).mp hsym
      rw [approved_iff_clear, hfirst, survivors, Finset.mem_filter]
      exact ⟨fun h => ⟨hcandidate, h⟩, And.right⟩

end Reports

section Building
variable {host : Host S} {b : UniverseBuilder S} {mode : UniverseMode} {date : Date}
  {snapshot : UniverseSnapshot S}

/-- A snapshot always partitions the candidates. Its decisions say the same just when the cap
takes nobody out. -/
theorem decisions_agree_iff (hbuild : build host b mode date = .ok snapshot) :
    ∃ modeCfg candidates verdicts, Reads host b mode date modeCfg candidates verdicts ∧
      ∀ cap : ℕ, Json.get "max_symbols" (.int 999) modeCfg = .int cap →
        Partitioned snapshot candidates verdicts cap ∧
        (DecisionsAgree snapshot candidates ↔ (survivors candidates verdicts).card ≤ cap) := by
  obtain ⟨modeCfg, candidates, verdicts, hreads, -, hassemble⟩ := build_eq_ok.mp hbuild
  refine ⟨modeCfg, candidates, verdicts, hreads, fun cap hcap => ?_⟩
  obtain ⟨hfirst, hdecisions⟩ := decisions_of_assemble hcap hassemble
  exact ⟨partitioned hdecisions hfirst, agree_iff hdecisions hfirst⟩

end Building

section ThreeStocks

/-- A mode that leaves the last three filters out. -/
def smallMode : List (String × Json) :=
  [("max_symbols", .int 2), ("min_symbols_to_trade", .int 1),
    ("index_membership", names ["NIFTY_50"]), ("apply_liquidity_filters", .bool false),
    ("apply_risk_filters", .bool false), ("apply_corporate_action_filters", .bool false)]

def smallHost : Host String :=
  { startupHost with
    files _ := some (dict [("modes", dict [("PAPER_SAFE_START", dict smallMode)])]) }

def threeStocks : Finset String := {"INFY", "ITC", "TCS"}

/-- Nothing is held against any of the three. -/
def threeSource : DataSource String :=
  { completeSource (.ok ∅) with getIndexSymbols _ _ := .ok threeStocks }

def smallBuilder : UniverseBuilder String := .new threeSource none none none

theorem small_reads : Reads smallHost smallBuilder .paperSafeStart 0 (Json.ofPairs smallMode)
    threeStocks [] := by
  have hunion : ∀ reading, indexUnion threeSource reading [.string "NIFTY_50"] =
      .ok threeStocks := fun _ => congrArg Except.ok (Finset.union_empty _)
  have hexcluded : ExclusionListFilter.apply threeSource (smallHost.walk threeStocks) = .ok [] :=
    forEach_of_clear fun _ _ => rfl
  have houtside : IndexMembershipFilter.apply threeSource [.string "NIFTY_50"]
      (smallHost.walk threeStocks) = .ok [] := by
    rw [IndexMembershipFilter.apply, hunion]
    exact forEach_of_clear fun sym hsym =>
      congrArg Except.ok (if_pos ((smallHost.mem_walk _ _).mp hsym))
  have huntyped : EquityTypeFilter.apply threeSource (smallHost.walk threeStocks) = .ok [] :=
    forEach_of_clear fun _ _ => rfl
  have hwatched : SurveillanceFilter.apply ⟨true, true, false⟩ threeSource
      (smallHost.walk threeStocks) = .ok [] :=
    forEach_of_clear fun sym _ => congrArg Except.ok (by simp [SurveillanceFilter.check])
  refine ⟨rfl, hunion .candidates, ?_⟩
  refine Answer.bind_eq_ok.mpr ⟨_, hexcluded, ?_⟩
  refine Answer.bind_eq_ok.mpr ⟨_, rfl, ?_⟩
  refine Answer.bind_eq_ok.mpr ⟨_, houtside, ?_⟩
  refine Answer.bind_eq_ok.mpr ⟨_, huntyped, ?_⟩
  refine Answer.bind_eq_ok.mpr ⟨_, rfl, ?_⟩
  refine Answer.bind_eq_ok.mpr ⟨_, hwatched, ?_⟩
  rfl

theorem small_build : ∃ snapshot, build smallHost smallBuilder .paperSafeStart 0 = .ok snapshot ∧
    assemble .paperSafeStart 0 "nse_api" (Json.ofPairs smallMode) threeStocks [] =
      .ok snapshot := by
  obtain ⟨snapshot, h⟩ := @exists_assemble String _ 2 .paperSafeStart 0 "nse_api"
    (Json.ofPairs smallMode) 1 threeStocks [] rfl rfl
  exact ⟨snapshot, build_eq_ok.mpr ⟨_, _, _, small_reads, by decide, h⟩, h⟩

theorem survivors_three : survivors threeStocks [] = threeStocks :=
  Finset.filter_true_of_mem fun _ _ _ h => absurd h List.not_mem_nil

theorem decisions_agree_iff_three : ∃ snapshot modeCfg candidates verdicts,
    Reads smallHost smallBuilder .paperSafeStart 0 modeCfg candidates verdicts ∧
      ∀ cap : ℕ, Json.get "max_symbols" (.int 999) modeCfg = .int cap →
        Partitioned snapshot candidates verdicts cap ∧
        (DecisionsAgree snapshot candidates ↔ (survivors candidates verdicts).card ≤ cap) := by
  obtain ⟨snapshot, hbuild, -⟩ := small_build
  exact ⟨snapshot, decisions_agree_iff hbuild⟩

/-- The third of three symbols has passed every filter, and is both approved and excluded. -/
theorem capped_symbol_approved :
    ∃ snapshot, build smallHost smallBuilder .paperSafeStart 0 = .ok snapshot ∧
      (∃ d ∈ snapshot.decisions, d.symbol = "TCS" ∧ d.approved = true) ∧
      "TCS" ∈ snapshot.excludedSymbols ∧ "TCS" ∉ snapshot.approvedSymbols ∧
      ¬ DecisionsAgree snapshot threeStocks := by
  obtain ⟨snapshot, hbuild, hassemble⟩ := small_build
  have hcap : Json.get "max_symbols" (.int 999) (Json.ofPairs smallMode) = .int (2 : ℕ) := rfl
  obtain ⟨hfirst, hdecisions⟩ := decisions_of_assemble hcap hassemble
  have hsorted : (survivors threeStocks []).sort (· ≤ ·) = ["INFY", "ITC", "TCS"] := by
    rw [survivors_three]
    refine List.Perm.eq_of_pairwise' (Finset.pairwise_sort _ _) (by decide) ?_
    exact (List.perm_ext_iff_of_nodup (Finset.sort_nodup _ _) (by decide)).mpr fun sym => by
      simp [threeStocks]
  rw [hsorted] at hfirst hdecisions
  have hout : "TCS" ∉ snapshot.approvedSymbols := by
    rw [hfirst]
    decide
  have happroved : decisionOn [] "TCS" ∈ snapshot.decisions := by
    rw [hdecisions]
    exact List.mem_append_left _ (List.mem_map_of_mem ((Finset.mem_sort _).mpr (by decide)))
  have hexcluded : capped "TCS" ∈ snapshot.decisions := by
    rw [hdecisions]
    exact List.mem_append_right _ List.mem_cons_self
  refine ⟨snapshot, hbuild, ⟨_, happroved, rfl, rfl⟩, ?_, hout, fun h => ?_⟩
  · exact List.mem_toFinset.mpr (List.mem_map_of_mem (List.mem_filter.mpr ⟨hexcluded, rfl⟩))
  · exact hout ((h.approved_iff _ happroved).mp rfl)

end ThreeStocks
end QuantEmbrace.Universe
