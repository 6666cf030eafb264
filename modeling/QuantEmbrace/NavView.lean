import QuantEmbrace.ConcurrentRecord
import QuantEmbrace.NavSnapshot

/-! What `record_fill` does once the row of the day has been added to: it puts the total it
was given into the NAV item and then into the cache of the process, while other calls do the
same with theirs. -/
namespace QuantEmbrace
open GuardedRun
variable {ι : Type*}

/-- A call after its fill was added, or after it was found to be a duplicate; a total is
held with the number of ADDs it counts. -/
inductive ViewPhase where
  | idle
  | added (realizedToday : ℚ) (counted : ℕ)
  | put (realizedToday : ℚ) (counted : ℕ)
  | checking
  | fetched (fresh : ℚ) (counted : ℕ)
  | done
  deriving DecidableEq, Repr

inductive ViewStep where
  | record (s : RecordStep)
  | put
  | cache
  | hit
  | fetch
  | refresh
  deriving DecidableEq, Repr

/-- The tables with the calls, the NAV item, the cached total, the deltas of the ADDs so far,
and how many of them the NAV item and the cache count, once a call has written them. -/
structure NavView (ι : Type*) where
  record : RecordWorld ι
  nav : Option NavItem
  cached : ℚ
  view : ι → ViewPhase
  adds : List ℚ
  navCounts : Option ℕ
  cacheCounts : Option ℕ

/-- The calls of one trading day. -/
def callsOf (day : String) (fills : ι → FillEvent) (i : ι) : RecordCall := ⟨day, fills i⟩

namespace NavView

/-- Before the first of the calls; the item and the cache hold what they hold. -/
def start (t : RiskTables) (nav : Option NavItem) (cached : ℚ) : NavView ι :=
  ⟨.start t, nav, cached, fun _ => .idle, [], none, none⟩

variable [DecidableEq ι]

def setView (w : NavView ι) (i : ι) (p : ViewPhase) : NavView ι :=
  { w with view := Function.update w.view i p }

/- The steps up to the ADD are those of the concurrent calls. A duplicate reads the daily
   P&L: from the cache, or from the row of the day, which the cache then takes over. Without
   such a row the orders are added up, none of which has a `realized_pnl`. -/
inductive Step (openingNav : ℚ) (day : String) (fills : ι → FillEvent) :
    NavView ι → ι × ViewStep → NavView ι → Prop
  | early {w : NavView ι} {i : ι} {s : RecordStep} {r : RecordWorld ι} :
      RecordWorld.Step (callsOf day fills) w.record (i, s) r →
      s ≠ .add → s ≠ .duplicate → s ≠ .raise →
      Step openingNav day fills w (i, .record s) { w with record := r }
  | add {w : NavView ι} {i : ι} {realizedDelta : ℚ} {r : RecordWorld ι} :
      w.record.stage i = .applied realizedDelta →
      RecordWorld.Step (callsOf day fills) w.record (i, .add) r →
      Step openingNav day fills w (i, .record .add)
        ({ w with record := r, adds := w.adds ++ [realizedDelta] }.setView i
          (.added (r.realizedDay day) (w.adds.length + 1)))
  | put {w : NavView ι} {i : ι} {realizedToday : ℚ} {n : ℕ} :
      w.view i = .added realizedToday n →
      Step openingNav day fills w (i, .put)
        ({ w with nav := some (navPut openingNav realizedToday), navCounts := some n }.setView i
          (.put realizedToday n))
  | cache {w : NavView ι} {i : ι} {realizedToday : ℚ} {n : ℕ} :
      w.view i = .put realizedToday n →
      Step openingNav day fills w (i, .cache)
        ({ w with cached := realizedToday, cacheCounts := some n }.setView i .done)
  | duplicate {w : NavView ι} {i : ι} {r : RecordWorld ι} :
      RecordWorld.Step (callsOf day fills) w.record (i, .duplicate) r →
      Step openingNav day fills w (i, .record .duplicate)
        ({ w with record := r }.setView i .checking)
  | hit {w : NavView ι} {i : ι} : w.view i = .checking →
      Step openingNav day fills w (i, .hit) (w.setView i .done)
  | fetch {w : NavView ι} {i : ι} : w.view i = .checking →
      Step openingNav day fills w (i, .fetch)
        (w.setView i (.fetched (w.record.realizedDay day) w.adds.length))
  | refresh {w : NavView ι} {i : ι} {fresh : ℚ} {n : ℕ} : w.view i = .fetched fresh n →
      Step openingNav day fills w (i, .refresh)
        ({ w with cached := fresh, cacheCounts := some n }.setView i .done)

omit [DecidableEq ι]

/-- Every call that was made has returned. -/
def AllCompleted (w : NavView ι) : Prop :=
  ∀ i, w.record.stage i = .idle ∨ (w.record.Completed i ∧ w.view i = .done)

/-- The NAV item, its value above the opening one, and the cache show the P&L of the day. -/
def Converged (openingNav : ℚ) (day : String) (w : NavView ι) : Prop :=
  (∃ item, w.nav = some item ∧ item.realizedPnlToday = some (w.record.realizedDay day) ∧
    item.portfolioValue - openingNav = w.record.realizedDay day) ∧
  w.cached = w.record.realizedDay day

/-- What was added after the first `counts` ADDs. -/
def missed (w : NavView ι) (counts : Option ℕ) : ℚ := (w.adds.drop (counts.getD 0)).sum

end NavView

/-- Only an ADD moves the row of a day. -/
theorem RecordWorld.step_realizedDay [DecidableEq ι] {calls : ι → RecordCall}
    {w w' : RecordWorld ι} {i : ι} {s : RecordStep} (hs : RecordWorld.Step calls w (i, s) w')
    (hadd : s ≠ .add) (hraise : s ≠ .raise) : w'.realizedDay = w.realizedDay := by
  cases hs with
  | reserve | duplicate | acquire | read | put => rfl
  | add => exact absurd rfl hadd
  | raise => exact absurd rfl hraise

/-- Only an ADD takes a call to its end. -/
theorem RecordWorld.step_done [DecidableEq ι] {calls : ι → RecordCall} {w w' : RecordWorld ι}
    {i j : ι} {s : RecordStep} (hs : RecordWorld.Step calls w (i, s) w') (hadd : s ≠ .add)
    (hraise : s ≠ .raise) (hj : w'.stage j = .done) : w.stage j = .done := by
  have hold (p : RecordStage) (hw : w'.stage = Function.update w.stage i p) (hp : p ≠ .done) :
      w.stage j = .done := by
    rw [hw] at hj
    by_cases hij : j = i
    · rw [hij, Function.update_self] at hj
      exact absurd hj hp
    · rwa [Function.update_of_ne hij] at hj
  cases hs with
  | reserve | duplicate | acquire | read | put => exact hold _ rfl nofun
  | add => exact absurd rfl hadd
  | raise => exact absurd rfl hraise

theorem RecordWorld.step_add [DecidableEq ι] {calls : ι → RecordCall} {w w' : RecordWorld ι}
    {i : ι} {realizedDelta : ℚ} (hs : RecordWorld.Step calls w (i, .add) w')
    (hi : w.stage i = .applied realizedDelta) :
    w'.realizedDay (calls i).day = w.realizedDay (calls i).day + realizedDelta ∧
      w'.stage = Function.update w.stage i .done := by
  cases hs with
  | @add i realizedDelta' hi' =>
    obtain rfl := RecordStage.applied.inj (hi.symm.trans hi')
    exact ⟨Function.update_self .., rfl⟩

namespace ViewPhase

/-- The total a call holds, with the number of ADDs it counts. -/
def held : ViewPhase → Option (ℚ × ℕ)
  | added total n | put total n | fetched total n => some (total, n)
  | idle | checking | done => none

end ViewPhase

namespace NavView
variable {openingNav base : ℚ} {day : String} {fills : ι → FillEvent} {w w' : NavView ι}
  {e : ι × ViewStep}

/-- The total after the first `n` ADDs. -/
def totalAt (base : ℚ) (w : NavView ι) (n : ℕ) : ℚ := base + (w.adds.take n).sum

/-- Where a call that made its ADD stands, and what it has written by then. -/
inductive Written (w : NavView ι) (i : ι) : Prop
  | added (total : ℚ) (n : ℕ) : w.view i = .added total n → Written w i
  | put (total : ℚ) (n : ℕ) : w.view i = .put total n → w.navCounts ≠ none → Written w i
  | done : w.view i = .done → w.navCounts ≠ none → w.cacheCounts ≠ none → Written w i

/-- Whatever is held, put or cached is the total after some number of ADDs. -/
structure Sound (openingNav base : ℚ) (day : String) (w : NavView ι) : Prop where
  day : w.record.realizedDay day = base + w.adds.sum
  held : ∀ i total n, (w.view i).held = some (total, n) →
    n ≤ w.adds.length ∧ total = w.totalAt base n
  nav : ∀ n, w.navCounts = some n → n ≤ w.adds.length ∧
    w.nav = some (navPut openingNav (w.totalAt base n))
  cache : ∀ n, w.cacheCounts = some n → n ≤ w.adds.length ∧ w.cached = w.totalAt base n
  written : ∀ i, w.record.stage i = .done → w.Written i

theorem sound_start (t : RiskTables) (nav : Option NavItem) (cached : ℚ) :
    Sound openingNav (t.realizedDay day) day (start t nav cached : NavView ι) where
  day := (add_zero _).symm
  held _ _ _ h := nomatch h
  nav _ h := nomatch h
  cache _ h := nomatch h
  written _ h := nomatch h

theorem totalAt_length (h : Sound openingNav base day w) :
    w.totalAt base w.adds.length = w.record.realizedDay day := by
  rw [totalAt, List.take_length, h.day]

/-- A call that made its ADD holds its total, or has written it. -/
theorem Sound.stage_ne_done (h : Sound openingNav base day w) {i : ι} (hput : (w.view i).held = none
    ∨ ∃ fresh n, w.view i = .fetched fresh n) (hdone : w.view i ≠ .done) :
    w.record.stage i ≠ .done := by
  intro hi
  cases h.written i hi with
  | added total n hv | put total n hv =>
    obtain hp | ⟨fresh, n, hp⟩ := hput
    · rw [hv] at hp
      exact nomatch hp
    · exact nomatch hv.symm.trans hp
  | done hv => exact hdone hv

variable [DecidableEq ι]

/-- Another call's turn takes nothing back of what has been written. -/
theorem Written.other {i j : ι} (h : w.Written j) (hij : j ≠ i) {p : ViewPhase}
    (hview : w'.view = Function.update w.view i p) (hnav : w.navCounts ≠ none → w'.navCounts ≠ none)
    (hcache : w.cacheCounts ≠ none → w'.cacheCounts ≠ none) : w'.Written j := by
  have hj : w'.view j = w.view j := by
    rw [hview]
    exact Function.update_of_ne hij _ _
  cases h with
  | added total n hv => exact .added total n (hj.trans hv)
  | put total n hv hn => exact .put total n (hj.trans hv) (hnav hn)
  | done hv hn hc => exact .done (hj.trans hv) (hnav hn) (hcache hc)

/-- A turn of `i` that adds nothing to the row of the day. -/
theorem Sound.turn (h : Sound openingNav base day w) {i : ι} {p : ViewPhase}
    (hadds : w'.adds = w.adds) (hday : w'.record.realizedDay day = w.record.realizedDay day)
    (hview : w'.view = Function.update w.view i p)
    (hheld : ∀ total n, p.held = some (total, n) → n ≤ w.adds.length ∧ total = w.totalAt base n)
    (hnav : (w'.nav = w.nav ∧ w'.navCounts = w.navCounts) ∨
      ∃ n ≤ w.adds.length, w'.navCounts = some n ∧
        w'.nav = some (navPut openingNav (w.totalAt base n)))
    (hcache : (w'.cached = w.cached ∧ w'.cacheCounts = w.cacheCounts) ∨
      ∃ n ≤ w.adds.length, w'.cacheCounts = some n ∧ w'.cached = w.totalAt base n)
    (hdone : ∀ j, w'.record.stage j = .done → w.record.stage j = .done)
    (hi : w'.record.stage i = .done → w'.Written i) : Sound openingNav base day w' := by
  have htotal (n : ℕ) : w'.totalAt base n = w.totalAt base n := by rw [totalAt, totalAt, hadds]
  have hnav' : w.navCounts ≠ none → w'.navCounts ≠ none := by
    obtain ⟨_, hc⟩ | ⟨n, _, hc, _⟩ := hnav <;> rw [hc]
    · exact id
    · exact fun _ => nofun
  have hcache' : w.cacheCounts ≠ none → w'.cacheCounts ≠ none := by
    obtain ⟨_, hc⟩ | ⟨n, _, hc, _⟩ := hcache <;> rw [hc]
    · exact id
    · exact fun _ => nofun
  refine ⟨by rw [hday, hadds, h.day], fun j total n hj => ?_, fun n hn => ?_, fun n hn => ?_,
    fun j hj => ?_⟩
  · rw [htotal, hadds]
    by_cases hij : j = i
    · rw [hview, hij, Function.update_self] at hj
      exact hheld total n hj
    · rw [hview, Function.update_of_ne hij] at hj
      exact h.held j total n hj
  · rw [htotal, hadds]
    obtain ⟨hsame, hc⟩ | ⟨m, hm, hc, hitem⟩ := hnav
    · rw [hsame]
      exact h.nav n (hc ▸ hn)
    · obtain rfl := Option.some.inj (hc.symm.trans hn)
      exact ⟨hm, hitem⟩
  · rw [htotal, hadds]
    obtain ⟨hsame, hc⟩ | ⟨m, hm, hc, hitem⟩ := hcache
    · rw [hsame]
      exact h.cache n (hc ▸ hn)
    · obtain rfl := Option.some.inj (hc.symm.trans hn)
      exact ⟨hm, hitem⟩
  · by_cases hij : j = i
    · rw [hij] at hj ⊢
      exact hi hj
    · exact (h.written j (hdone j hj)).other hij hview hnav' hcache'

/-- The ADD of `i`. -/
theorem Sound.add (h : Sound openingNav base day w) {i : ι} {realizedDelta : ℚ}
    (hadds : w'.adds = w.adds ++ [realizedDelta])
    (hday : w'.record.realizedDay day = w.record.realizedDay day + realizedDelta)
    (hstage : w'.record.stage = Function.update w.record.stage i .done)
    (hview : w'.view = Function.update w.view i
      (.added (w'.record.realizedDay day) (w.adds.length + 1)))
    (hnav : w'.nav = w.nav) (hnavCounts : w'.navCounts = w.navCounts)
    (hcached : w'.cached = w.cached) (hcacheCounts : w'.cacheCounts = w.cacheCounts) :
    Sound openingNav base day w' := by
  have hsum : w'.record.realizedDay day = base + w'.adds.sum := by
    rw [hday, h.day, hadds, List.sum_append, List.sum_singleton, add_assoc]
  have hlen : w'.adds.length = w.adds.length + 1 := by rw [hadds, List.length_append]; rfl
  have hold {n : ℕ} (hn : n ≤ w.adds.length) : n ≤ w'.adds.length := hlen ▸ Nat.le_succ_of_le hn
  have htotal {n : ℕ} (hn : n ≤ w.adds.length) : w'.totalAt base n = w.totalAt base n := by
    rw [totalAt, totalAt, hadds, List.take_append_of_le_length hn]
  refine ⟨hsum, fun j total n hj => ?_, fun n hn => ?_, fun n hn => ?_, fun j hj => ?_⟩
  · by_cases hij : j = i
    · rw [hview, hij, Function.update_self] at hj
      obtain ⟨rfl, rfl⟩ := Prod.mk.inj (Option.some.inj hj)
      refine ⟨hlen.ge, ?_⟩
      rw [totalAt, ← hlen, List.take_length, hsum]
    · rw [hview, Function.update_of_ne hij] at hj
      obtain ⟨hn, ht⟩ := h.held j total n hj
      exact ⟨hold hn, ht.trans (htotal hn).symm⟩
  · obtain ⟨hle, hitem⟩ := h.nav n (hnavCounts ▸ hn)
    exact ⟨hold hle, by rw [hnav, hitem, htotal hle]⟩
  · obtain ⟨hle, hitem⟩ := h.cache n (hcacheCounts ▸ hn)
    exact ⟨hold hle, by rw [hcached, hitem, htotal hle]⟩
  · by_cases hij : j = i
    · rw [hij]
      exact .added _ _ (by rw [hview, Function.update_self])
    · rw [hstage, Function.update_of_ne hij] at hj
      exact (h.written j hj).other hij hview (hnavCounts ▸ id) (hcacheCounts ▸ id)

theorem Sound.step (h : Sound openingNav base day w) (hs : Step openingNav day fills w e w') :
    Sound openingNav base day w' := by
  cases hs with
  | @early i s r hs hadd _ hraise =>
    have hday := congrFun (RecordWorld.step_realizedDay hs hadd hraise) day
    refine h.turn (i := i) rfl hday (Function.update_eq_self i w.view).symm
      (fun total n hp => h.held i total n hp) (Or.inl ⟨rfl, rfl⟩) (Or.inl ⟨rfl, rfl⟩)
      (fun j hj => RecordWorld.step_done hs hadd hraise hj) fun hi => ?_
    cases h.written i (RecordWorld.step_done hs hadd hraise hi) with
    | added total n hv => exact .added total n hv
    | put total n hv hn => exact .put total n hv hn
    | done hv hn hc => exact .done hv hn hc
  | @add i realizedDelta r hi hs =>
    obtain ⟨hday, hstage⟩ := RecordWorld.step_add hs hi
    exact h.add rfl hday hstage rfl rfl rfl rfl rfl
  | @put i realizedToday n hi =>
    obtain ⟨hn, ht⟩ := h.held i realizedToday n (by rw [hi]; rfl)
    refine h.turn (i := i) rfl rfl rfl (fun total m hp => ?_)
      (Or.inr ⟨n, hn, rfl, by rw [← ht]; rfl⟩) (Or.inl ⟨rfl, rfl⟩) (fun _ => id)
      fun _ => .put realizedToday n (Function.update_self ..) nofun
    obtain ⟨rfl, rfl⟩ := Prod.mk.inj (Option.some.inj hp)
    exact ⟨hn, ht⟩
  | @cache i realizedToday n hi =>
    obtain ⟨hn, ht⟩ := h.held i realizedToday n (by rw [hi]; rfl)
    refine h.turn (i := i) rfl rfl rfl nofun (Or.inl ⟨rfl, rfl⟩) (Or.inr ⟨n, hn, rfl, ht⟩)
      (fun _ => id) fun hj => ?_
    have hnav : w.navCounts ≠ none := by
      cases h.written i hj with
      | added total m hv => exact nomatch hi.symm.trans hv
      | put total m _ hnav => exact hnav
      | done hv => exact nomatch hi.symm.trans hv
    exact .done (Function.update_self ..) hnav nofun
  | @duplicate i r hs =>
    have hday := congrFun (RecordWorld.step_realizedDay hs nofun nofun) day
    refine h.turn (i := i) rfl hday rfl nofun (Or.inl ⟨rfl, rfl⟩) (Or.inl ⟨rfl, rfl⟩)
      (fun j hj => RecordWorld.step_done hs nofun nofun hj) fun hj => ?_
    cases hs
    exact nomatch (Function.update_self ..).symm.trans hj
  | @hit i hi =>
    refine h.turn (i := i) rfl rfl rfl nofun (Or.inl ⟨rfl, rfl⟩) (Or.inl ⟨rfl, rfl⟩)
      (fun _ => id) fun hj => absurd hj (h.stage_ne_done (Or.inl ?_) ?_)
    · rw [hi]
      rfl
    · rw [hi]
      nofun
  | @fetch i hi =>
    refine h.turn (i := i) rfl rfl rfl (fun total n hp => ?_) (Or.inl ⟨rfl, rfl⟩)
      (Or.inl ⟨rfl, rfl⟩) (fun _ => id) fun hj => absurd hj (h.stage_ne_done (Or.inl ?_) ?_)
    · obtain ⟨rfl, rfl⟩ := Prod.mk.inj (Option.some.inj hp)
      exact ⟨le_rfl, (totalAt_length h).symm⟩
    · rw [hi]
      rfl
    · rw [hi]
      nofun
  | @refresh i fresh n hi =>
    obtain ⟨hn, ht⟩ := h.held i fresh n (by rw [hi]; rfl)
    refine h.turn (i := i) rfl rfl rfl nofun (Or.inl ⟨rfl, rfl⟩) (Or.inr ⟨n, hn, rfl, ht⟩)
      (fun _ => id) fun hj => absurd hj (h.stage_ne_done (Or.inr ⟨fresh, n, hi⟩) ?_)
    rw [hi]
    nofun

omit [DecidableEq ι]

/-- A total that misses nothing is the P&L of the day. -/
theorem Sound.totalAt_eq_iff (h : Sound openingNav base day w) (n : ℕ) :
    w.totalAt base n = w.record.realizedDay day ↔ w.missed (some n) = 0 := by
  have hsplit : w.adds.sum = (w.adds.take n).sum + (w.adds.drop n).sum := by
    rw [← List.sum_append, List.take_append_drop]
  rw [totalAt, missed, h.day, hsplit, ← add_assoc, eq_comm, add_eq_left]
  rfl

end NavView

/-- Once all calls have returned, and one of them was not a duplicate, the NAV item and the
cache show the P&L of the day exactly when what was added after the ADD of the call that put
last, and after the total that was cached last, sums to zero. -/
theorem nav_view_converges_iff [DecidableEq ι] {openingNav : ℚ} {day : String}
    {fills : ι → FillEvent} {t : RiskTables} {nav : Option NavItem} {cached : ℚ} {w : NavView ι}
    (h : Reaches (NavView.Step openingNav day fills) (fun _ _ => True) (.start t nav cached) w)
    (hw : w.AllCompleted) {i : ι} (hi : w.record.stage i = .done) :
    w.Converged openingNav day ↔ w.missed w.navCounts = 0 ∧ w.missed w.cacheCounts = 0 := by
  have hsound : w.Sound openingNav (t.realizedDay day) day :=
    h.invariant (fun _ _ _ hI _ hs => hI.step hs) (NavView.sound_start t nav cached)
  have hdone : w.view i = .done := by
    obtain hidle | ⟨_, hv⟩ := hw i
    · exact nomatch hi.symm.trans hidle
    · exact hv
  have hwritten : w.navCounts ≠ none ∧ w.cacheCounts ≠ none := by
    cases hsound.written i hi with
    | added total n hv => exact nomatch hdone.symm.trans hv
    | put total n hv => exact nomatch hdone.symm.trans hv
    | done _ hn hc => exact ⟨hn, hc⟩
  obtain ⟨n, hn⟩ := Option.ne_none_iff_exists'.mp hwritten.1
  obtain ⟨m, hm⟩ := Option.ne_none_iff_exists'.mp hwritten.2
  rw [hn, hm, ← hsound.totalAt_eq_iff, ← hsound.totalAt_eq_iff]
  refine and_congr ⟨?_, fun ht => ?_⟩ ?_
  · rintro ⟨item, hitem, hrealized, _⟩
    obtain rfl := Option.some.inj ((hsound.nav n hn).2.symm.trans hitem)
    exact Option.some.inj hrealized
  · refine ⟨_, (hsound.nav n hn).2, congrArg some ht, ?_⟩
    rw [← ht]
    exact add_sub_cancel_left openingNav _
  · rw [(hsound.cache m hm).2]

section Sample

/-- A buy of ten shares and a sale of four of them at a profit. -/
def buyAndSell (i : Bool) : FillEvent := (sampleCalls i).fill

abbrev SampleStep := NavView.Step 1000000 "2026-01-05" buyAndSell

def sampleStart : NavView Bool := .start emptyTables none 0

/-- Both fills are in the rows of their symbol and of the day, the sale last. -/
theorem bothAdded : ∃ w, Reaches SampleStep (fun _ _ => True) sampleStart w ∧
    w.record.stage = (fun _ => .done) ∧ w.record.realizedDay "2026-01-05" = 40 ∧
    w.adds = [0, 40] ∧ w.view true = .added 0 1 ∧ w.view false = .added 40 2 := by
  have h0 : Reaches SampleStep (fun _ _ => True) sampleStart sampleStart := .refl
  have h1 := h0.next trivial (.early (i := true)
    (.reserve rfl (by decide +kernel) List.not_mem_nil) nofun nofun nofun)
  have h2 := h1.next trivial (.early (i := false)
    (.reserve rfl (by decide +kernel) (by decide +kernel)) nofun nofun nofun)
  have h3 := h2.next trivial (.early (i := true) (.acquire rfl rfl) nofun nofun nofun)
  have h4 := h3.next trivial (.early (i := true) (.read rfl) nofun nofun nofun)
  have h5 := h4.next trivial (.early (i := true) (.put rfl
    (by decide +kernel : (sampleCalls true).applyTo {} = .ok (⟨some 10, some 100, some 0⟩, 0)))
    nofun nofun nofun)
  have h6 := h5.next trivial (.early (i := false) (.acquire rfl rfl) nofun nofun nofun)
  have h7 := h6.next trivial (.early (i := false) (.read rfl) nofun nofun nofun)
  have h8 := h7.next trivial (.early (i := false) (.put rfl
    (by decide +kernel : (sampleCalls false).applyTo ⟨some 10, some 100, some 0⟩ =
      .ok (⟨some 6, some 100, some 40⟩, 40))) nofun nofun nofun)
  have h9 := h8.next trivial (.add (i := true) rfl (.add rfl))
  have h10 := h9.next trivial (.add (i := false) rfl (.add rfl))
  exact ⟨_, h10, funext fun b => by cases b <;> rfl, by decide +kernel, by decide +kernel,
    by decide +kernel, by decide +kernel⟩

/-- The two calls one after the other, `i` first. -/
theorem putsInTurn (i : Bool) : ∃ w, Reaches SampleStep (fun _ _ => True) sampleStart w ∧
    w.AllCompleted ∧ w.record.stage true = .done ∧ w.adds = [0, 40] ∧
    w.record.realizedDay "2026-01-05" = 40 ∧ w.navCounts = some (if i then 2 else 1) ∧
    w.cacheCounts = some (if i then 2 else 1) ∧ w.cached = if i then 40 else 0 := by
  obtain ⟨w, h, hstage, hday, hadds, ht, hf⟩ := bothAdded
  have hdone (w' : NavView Bool) (hs : w'.record.stage = w.record.stage)
      (hv : w'.view = fun _ => .done) : w'.AllCompleted :=
    fun j => Or.inr ⟨Or.inl (by rw [hs, hstage]), by rw [hv]⟩
  cases i with
  | true =>
    have h1 := h.next trivial (.put ht)
    have h2 := h1.next trivial (.cache (i := true) rfl)
    have h3 := h2.next trivial (.put (i := false) hf)
    have h4 := h3.next trivial (.cache (i := false) rfl)
    exact ⟨_, h4, hdone _ rfl (funext fun b => by cases b <;> rfl), congrFun hstage true,
      hadds, hday, rfl, rfl, rfl⟩
  | false =>
    have h1 := h.next trivial (.put hf)
    have h2 := h1.next trivial (.cache (i := false) rfl)
    have h3 := h2.next trivial (.put (i := true) ht)
    have h4 := h3.next trivial (.cache (i := true) rfl)
    exact ⟨_, h4, hdone _ rfl (funext fun b => by cases b <;> rfl), congrFun hstage true,
      hadds, hday, rfl, rfl, rfl⟩

end Sample

/-- The call of the last ADD has the last word. -/
theorem nav_view_converges_iff_in_order :
    ∃ w, Reaches SampleStep (fun _ _ => True) sampleStart w ∧ w.AllCompleted ∧
      w.Converged 1000000 "2026-01-05" := by
  obtain ⟨w, h, hw, hi, hadds, _, hn, hc, _⟩ := putsInTurn true
  refine ⟨w, h, hw, (nav_view_converges_iff h hw hi).mpr ⟨?_, ?_⟩⟩
  · rw [NavView.missed, hn, hadds]
    rfl
  · rw [NavView.missed, hc, hadds]
    rfl

/-- The call of the first ADD puts last: the profit of the sale is gone from the NAV item and
from the cache. -/
theorem overtaken_put_diverges :
    ¬ ∀ (w : NavView Bool), Reaches SampleStep (fun _ _ => True) sampleStart w → w.AllCompleted →
      (∃ i, w.record.stage i = .done) → w.Converged 1000000 "2026-01-05" := by
  intro hall
  obtain ⟨w, h, hw, hi, _, hday, _, _, hcached⟩ := putsInTurn false
  have hsame := (hall w h hw ⟨true, hi⟩).2
  rw [hday, hcached] at hsame
  norm_num at hsame

end QuantEmbrace
