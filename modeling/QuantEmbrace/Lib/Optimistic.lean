import QuantEmbrace.Lib.GuardedRun
import QuantEmbrace.Lib.Role
import Mathlib.Data.Fintype.Card
import Mathlib.Data.List.Infix
import Mathlib.Data.List.Nodup
import Mathlib.Data.Set.Finite.List
import Mathlib.Logic.Function.Basic

/-! Optimistic updates of one stored row: read, compute, write on condition that the
stamp is still the one read, and start over a bounded number of times. -/
namespace Optimistic
open GuardedRun
variable {σ τ ι : Type*}

/-- `put i t read stored` is the row writer `i` leaves at clock reading `t`. -/
structure Protocol (σ τ ι : Type*) where
  attempts : ℕ
  clock : τ → Prop
  stamp : σ → Option τ
  admits : σ → σ → Prop
  put : ι → τ → σ → σ → σ
  attempts_pos : 0 < attempts
  stamp_put : ∀ i t r s, stamp (put i t r s) = some t
  admits_put : ∀ i t r r' s, clock t → (admits r (put i t r' s) ↔ stamp r = some t)

inductive Phase (σ τ : Type*) where
  | idle (failures : ℕ)
  | held (failures : ℕ) (seen : σ) (t : τ)
  | committed
  | failed

/-- `log` lists the writes that went through, `issued` every stamp given out. -/
structure World (σ τ ι : Type*) where
  row : σ
  phase : ι → Phase σ τ
  log : List (ι × τ)
  issued : List τ

inductive Event (τ ι : Type*) where
  | read (i : ι) (t : τ)
  | write (i : ι)

namespace Protocol
variable (P : Protocol σ τ ι)

def start (row : σ) : World σ τ ι := ⟨row, fun _ => .idle 0, [], (P.stamp row).toList⟩

/-- What a refused write leads to. -/
def refused (failures : ℕ) : Phase σ τ :=
  if failures + 1 < P.attempts then .idle (failures + 1) else .failed

/- Clock readings are distinct: `t` is not among those given out before. -/
inductive Step [DecidableEq ι] : World σ τ ι → Event τ ι → World σ τ ι → Prop
  | read {w : World σ τ ι} {i : ι} {k : ℕ} {t : τ} : w.phase i = .idle k → P.clock t →
      t ∉ w.issued →
      Step w (.read i t)
        { w with phase := Function.update w.phase i (.held k w.row t), issued := t :: w.issued }
  | commit {w : World σ τ ι} {i : ι} {k : ℕ} {seen : σ} {t : τ} : w.phase i = .held k seen t →
      P.admits seen w.row →
      Step w (.write i)
        { w with
          row := P.put i t seen w.row
          phase := Function.update w.phase i .committed
          log := w.log ++ [(i, t)] }
  | refuse {w : World σ τ ι} {i : ι} {k : ℕ} {seen : σ} {t : τ} : w.phase i = .held k seen t →
      ¬ P.admits seen w.row →
      Step w (.write i) { w with phase := Function.update w.phase i (P.refused k) }

/-- One writer undisturbed. -/
def apply (row : σ) (e : ι × τ) : σ := P.put e.1 e.2 row row

/-- The stamps the row has carried. -/
def landed (init : σ) (w : World σ τ ι) : List τ := (P.stamp init).toList ++ w.log.map Prod.snd

/-- A held row is the stored one or can no longer be written back. -/
structure HeldSound (init : σ) (w : World σ τ ι) (seen : σ) (t : τ) : Prop where
  clock : P.clock t
  issued : t ∈ w.issued
  fresh : t ∉ P.landed init w
  past : ∀ t', P.stamp seen = some t' → t' ∈ P.landed init w
  current : P.admits seen w.row → seen = w.row

def PhaseSound (init : σ) (w : World σ τ ι) : Phase σ τ → Prop
  | .held _ seen t => P.HeldSound init w seen t
  | _ => True

structure Sound (init : σ) (w : World σ τ ι) : Prop where
  replay : w.row = w.log.foldl P.apply init
  stored : ∀ t, P.stamp w.row = some t → t ∈ P.landed init w
  issued : ∀ t ∈ P.landed init w, t ∈ w.issued
  phases : ∀ i, P.PhaseSound init w (w.phase i)
  distinct : ∀ i k seen t j k' seen' t', w.phase i = .held k seen t →
    w.phase j = .held k' seen' t' → j ≠ i → t' ≠ t
  once : (w.log.map Prod.fst).Nodup
  logged : ∀ i, i ∈ w.log.map Prod.fst ↔ w.phase i = .committed

theorem start_sound (row : σ) : P.Sound row (P.start row : World σ τ ι) where
  replay := rfl
  stored t ht := by simpa [start, landed] using ht
  issued t ht := by simpa [start, landed] using ht
  phases i := trivial
  distinct i k seen t j k' seen' t' h := nomatch h
  once := List.nodup_nil
  logged i := by simp [start]

variable [DecidableEq ι]

def Reachable (row : σ) (w : World σ τ ι) : Prop :=
  Reaches P.Step (fun _ _ => True) (P.start row) w

variable {P} {init : σ} {w w' : World σ τ ι}

omit [DecidableEq ι] in
theorem Sound.held (hw : P.Sound init w) {i : ι} {k : ℕ} {seen : σ} {t : τ}
    (hi : w.phase i = .held k seen t) : P.HeldSound init w seen t := by
  have hp := hw.phases i
  rw [hi] at hp
  exact hp

omit [DecidableEq ι] in
/-- Only what is said of a held row depends on the rest of the world. -/
theorem PhaseSound.imp {p : Phase σ τ} (h : P.PhaseSound init w p)
    (held : ∀ k seen t, p = .held k seen t → P.HeldSound init w seen t →
      P.HeldSound init w' seen t) : P.PhaseSound init w' p := by
  cases p with
  | held k seen t => exact held k seen t rfl h
  | _ => trivial

theorem Sound.read (hw : P.Sound init w) {i : ι} {k : ℕ} {t : τ} (hi : w.phase i = .idle k)
    (hc : P.clock t) (ht : t ∉ w.issued) :
    P.Sound init { w with
      phase := Function.update w.phase i (.held k w.row t), issued := t :: w.issued } where
  replay := hw.replay
  stored := hw.stored
  issued t' h := List.mem_cons_of_mem _ (hw.issued t' h)
  phases j := by
    by_cases hj : j = i
    · subst hj
      simp only [Function.update_self]
      exact ⟨hc, List.mem_cons_self, fun h => ht (hw.issued t h), hw.stored, fun _ => rfl⟩
    · simp only [Function.update_of_ne hj]
      refine (hw.phases j).imp fun _ _ _ _ hp => ?_
      exact ⟨hp.clock, List.mem_cons_of_mem _ hp.issued, hp.fresh, hp.past, hp.current⟩
  distinct a ka sa ta b kb sb tb ha hb hab := by
    intro he
    subst he
    by_cases hai : a = i
    · subst hai
      simp only [Function.update_self, Function.update_of_ne hab] at ha hb
      cases ha
      exact ht (hw.held hb).issued
    · simp only [Function.update_of_ne hai] at ha
      by_cases hbi : b = i
      · subst hbi
        simp only [Function.update_self] at hb
        cases hb
        exact ht (hw.held ha).issued
      · simp only [Function.update_of_ne hbi] at hb
        exact hw.distinct a ka sa tb b kb sb tb ha hb hab rfl
  once := hw.once
  logged j := by
    by_cases hj : j = i
    · subst hj
      simp [hw.logged, hi]
    · simp [Function.update_of_ne hj, hw.logged]

omit [DecidableEq ι] in
theorem landed_append (init : σ) (w : World σ τ ι) (i : ι) (t : τ) (row : σ)
    (phase : ι → Phase σ τ) (issued : List τ) :
    P.landed init ⟨row, phase, w.log ++ [(i, t)], issued⟩ = P.landed init w ++ [t] := by
  simp [landed]

theorem Sound.commit (hw : P.Sound init w) {i : ι} {k : ℕ} {seen : σ} {t : τ}
    (hi : w.phase i = .held k seen t) (ha : P.admits seen w.row) :
    P.Sound init { w with
      row := P.put i t seen w.row
      phase := Function.update w.phase i .committed
      log := w.log ++ [(i, t)] } := by
  have hp := hw.held hi
  obtain rfl : seen = w.row := hp.current ha
  have hnot : i ∉ w.log.map Prod.fst := fun h => by
    rw [hw.logged, hi] at h
    cases h
  refine ⟨?_, ?_, ?_, ?_, ?_, ?_, ?_⟩
  · simp [List.foldl_append, ← hw.replay, apply]
  · intro t' ht'
    rw [P.stamp_put] at ht'
    cases ht'
    simp [landed_append]
  · intro t' ht'
    rw [landed_append] at ht'
    obtain h | h := List.mem_append.mp ht'
    · exact hw.issued t' h
    · rw [List.mem_singleton.mp h]
      exact hp.issued
  · intro j
    by_cases hj : j = i
    · subst hj
      simp [PhaseSound]
    · simp only [Function.update_of_ne hj]
      refine (hw.phases j).imp fun k' seen' t' hph hpj => ?_
      have hne : t' ≠ t := hw.distinct i k w.row t j k' seen' t' hi hph hj
      refine ⟨hpj.clock, hpj.issued, ?_, ?_, ?_⟩
      · simpa [landed_append, hne] using hpj.fresh
      · intro t'' ht''
        simp [landed_append, hpj.past t'' ht'']
      · -- the row now carries a stamp that no earlier row did
        intro hadm
        rw [P.admits_put _ _ _ _ _ hp.clock] at hadm
        exact absurd (hpj.past t hadm) hp.fresh
  · intro a ka sa ta b kb sb tb hpa hpb hab
    have ⟨_, hpa⟩ := Role.of_update_eq hpa nofun
    have ⟨_, hpb⟩ := Role.of_update_eq hpb nofun
    exact hw.distinct a ka sa ta b kb sb tb hpa hpb hab
  · simp only [List.map_append, List.map_cons, List.map_nil]
    exact List.nodup_append.mpr ⟨hw.once, List.nodup_singleton i, by
      intro a ha b hb
      rw [List.mem_singleton.mp hb]
      intro h
      subst h
      exact hnot ha⟩
  · intro j
    by_cases hj : j = i
    · subst hj
      simp
    · simp [hj, ← hw.logged]

omit [DecidableEq ι] in
theorem refused_ne_committed (k : ℕ) : P.refused k ≠ .committed := by
  unfold refused
  split <;> simp

omit [DecidableEq ι] in
theorem refused_ne_held (k k' : ℕ) (seen : σ) (t : τ) : P.refused k ≠ .held k' seen t := by
  unfold refused
  split <;> simp

theorem Sound.refuse (hw : P.Sound init w) {i : ι} {k : ℕ} {seen : σ} {t : τ}
    (hi : w.phase i = .held k seen t) :
    P.Sound init { w with phase := Function.update w.phase i (P.refused k) } where
  replay := hw.replay
  stored := hw.stored
  issued := hw.issued
  phases j := by
    by_cases hj : j = i
    · subst hj
      simp only [Function.update_self]
      unfold refused
      split <;> trivial
    · simp only [Function.update_of_ne hj]
      refine (hw.phases j).imp fun _ _ _ _ hp => ?_
      exact ⟨hp.clock, hp.issued, hp.fresh, hp.past, hp.current⟩
  distinct a ka sa ta b kb sb tb hpa hpb hab := by
    have ⟨_, hpa⟩ := Role.of_update_eq hpa (refused_ne_held _ _ _ _)
    have ⟨_, hpb⟩ := Role.of_update_eq hpb (refused_ne_held _ _ _ _)
    exact hw.distinct a ka sa ta b kb sb tb hpa hpb hab
  once := hw.once
  logged j := by
    by_cases hj : j = i
    · subst hj
      simp only [Function.update_self, hw.logged, hi, refused_ne_committed, reduceCtorEq]
    · simp [Function.update_of_ne hj, hw.logged]

theorem Sound.step {e : Event τ ι} (hw : P.Sound init w) (h : P.Step w e w') :
    P.Sound init w' := by
  cases h with
  | read hi hc ht => exact hw.read hi hc ht
  | commit hi ha => exact hw.commit hi ha
  | refuse hi _ => exact hw.refuse hi

theorem reachable_sound (h : P.Reachable init w) : P.Sound init w :=
  Reaches.invariant (I := P.Sound init) (fun _ _ _ hs _ hst => hs.step hst) h (P.start_sound init)

/-- A write is refused at most once for each write that went through. -/
def PhaseBudget (P : Protocol σ τ ι) (row : σ) (writes : ℕ) : Phase σ τ → Prop
  | .idle k => k ≤ writes
  | .held k seen _ => k ≤ writes ∧ (¬ P.admits seen row → k < writes)
  | .committed => True
  | .failed => P.attempts ≤ writes

structure Budget (P : Protocol σ τ ι) (init : σ) (w : World σ τ ι) : Prop where
  sound : P.Sound init w
  self : P.admits w.row w.row
  phases : ∀ i, PhaseBudget P w.row w.log.length (w.phase i)

theorem Budget.step {e : Event τ ι} (hw : Budget P init w) (h : P.Step w e w') :
    Budget P init w' := by
  have hs := hw.sound.step h
  cases h with
  | @read i k t hi _ _ =>
    refine ⟨hs, hw.self, fun j => ?_⟩
    have hk := hw.phases i
    rw [hi] at hk
    by_cases hj : j = i
    · subst hj
      simp only [Function.update_self]
      exact ⟨hk, fun h => absurd hw.self h⟩
    · simpa only [Function.update_of_ne hj] using hw.phases j
  | @commit i k seen t hi ha =>
    have hp := hw.sound.held hi
    refine ⟨hs, (P.admits_put _ _ _ _ _ hp.clock).mpr (P.stamp_put _ _ _ _), fun j => ?_⟩
    by_cases hj : j = i
    · subst hj
      simp [PhaseBudget]
    · simp only [Function.update_of_ne hj]
      have hb := hw.phases j
      have hlen : (w.log ++ [(i, t)]).length = w.log.length + 1 := by simp
      cases hph : w.phase j with
      | idle k' =>
        rw [hph, PhaseBudget] at hb
        rw [PhaseBudget, hlen]
        omega
      | held k' seen' t' =>
        rw [hph, PhaseBudget] at hb
        rw [PhaseBudget, hlen]
        exact ⟨by omega, fun _ => by omega⟩
      | committed => trivial
      | failed =>
        rw [hph, PhaseBudget] at hb
        rw [PhaseBudget, hlen]
        omega
  | @refuse i k seen t hi ha =>
    refine ⟨hs, hw.self, fun j => ?_⟩
    by_cases hj : j = i
    · subst hj
      have hb := hw.phases j
      rw [hi] at hb
      have hk : k < w.log.length := hb.2 ha
      simp only [Function.update_self]
      by_cases hr : k + 1 < P.attempts
      · rw [refused, if_pos hr]
        exact hk
      · rw [refused, if_neg hr]
        simp only [PhaseBudget]
        omega
    · simpa only [Function.update_of_ne hj] using hw.phases j

theorem reachable_budget (hself : P.admits init init) (h : P.Reachable init w) :
    Budget P init w :=
  Reaches.invariant (I := Budget P init) (fun _ _ _ hs _ hst => hs.step hst) h
    ⟨P.start_sound init, hself, fun _ => Nat.zero_le _⟩

/-- With no more writers than attempts, none gives up. -/
theorem not_failed [Fintype ι] (hself : P.admits init init)
    (hcard : Fintype.card ι ≤ P.attempts) (h : P.Reachable init w) (i : ι) :
    w.phase i ≠ .failed := by
  intro hi
  have hb := reachable_budget hself h
  have hfail := hb.phases i
  rw [hi] at hfail
  have hmem : i ∉ w.log.map Prod.fst := by
    rw [hb.sound.logged, hi]
    simp
  have hnodup : (i :: w.log.map Prod.fst).Nodup := List.nodup_cons.mpr ⟨hmem, hb.sound.once⟩
  have hlen := hnodup.length_le_card
  simp only [List.length_cons, List.length_map] at hlen
  have hle : P.attempts ≤ w.log.length := hfail
  omega

section Starvation
variable (hclock : {t | P.clock t}.Infinite)
include hclock

omit [DecidableEq ι] in
theorem exists_fresh (w : World σ τ ι) : ∃ t, P.clock t ∧ t ∉ w.issued := by
  obtain ⟨t, ht, hn⟩ := hclock.exists_notMem_finite w.issued.finite_toSet
  exact ⟨t, ht, hn⟩

/-- One write of `u` between a read and the write of `v` has `v` refused. -/
theorem starve_round (h : P.Reachable init w) (hself : P.admits w.row w.row) {u v : ι} {k m : ℕ}
    (huv : u ≠ v) (hv : w.phase v = .idle k) (hu : w.phase u = .idle m) :
    ∃ w', P.Reachable init w' ∧ P.admits w'.row w'.row ∧ w'.phase v = P.refused k ∧
      w'.phase u = .committed ∧ ∀ j, j ≠ u → j ≠ v → w'.phase j = w.phase j := by
  obtain ⟨t, ht, hnew⟩ := exists_fresh hclock w
  have h1 := h.next trivial (.read hv ht hnew)
  have hu1 : (Function.update w.phase v (.held k w.row t)) u = .idle m := by
    rw [Function.update_of_ne huv, hu]
  obtain ⟨t', ht', hnew'⟩ := exists_fresh hclock
    { w with phase := Function.update w.phase v (.held k w.row t), issued := t :: w.issued }
  have h2 := h1.next trivial (.read hu1 ht' hnew')
  have h3 := h2.next trivial (.commit (Function.update_self u _ _) hself)
  have hstale : ¬ P.admits w.row (P.put u t' w.row w.row) := by
    rw [P.admits_put _ _ _ _ _ ht']
    intro hst
    have hs := reachable_sound h
    exact hnew' (List.mem_cons_of_mem _ (hs.issued t' (hs.stored t' hst)))
  have h4 := h3.next trivial (.refuse (i := v) (k := k) (t := t)
    (by simp [Function.update_of_ne huv.symm]) hstale)
  refine ⟨_, h4, (P.admits_put _ _ _ _ _ ht').mpr (P.stamp_put _ _ _ _), by simp,
    by simp [Function.update_of_ne huv], ?_⟩
  intro j hju hjv
  simp [Function.update_of_ne hju, Function.update_of_ne hjv]

/-- As many other writers as attempts make one writer give up. -/
theorem starve (us : List ι) {v : ι} {k : ℕ} (h : P.Reachable init w)
    (hself : P.admits w.row w.row) (hv : w.phase v = .idle k) (hus : (v :: us).Nodup)
    (hidle : ∀ u ∈ us, ∃ m, w.phase u = .idle m) (hk : k < P.attempts)
    (hlen : P.attempts ≤ k + us.length) :
    ∃ w', P.Reachable init w' ∧ w'.phase v = .failed := by
  induction us generalizing w k with
  | nil =>
    simp only [List.length_nil] at hlen
    omega
  | cons u us ih =>
    obtain ⟨hvmem, hnodup⟩ := List.nodup_cons.mp hus
    obtain ⟨humem, hnodup'⟩ := List.nodup_cons.mp hnodup
    have huv : u ≠ v := fun he => hvmem (by simp [he])
    obtain ⟨m, hm⟩ := hidle u List.mem_cons_self
    obtain ⟨w', h', hself', hv', _, hothers⟩ := starve_round hclock h hself huv hv hm
    by_cases hlast : k + 1 < P.attempts
    · rw [refused, if_pos hlast] at hv'
      refine ih h' hself' hv' ?_ ?_ hlast ?_
      · exact List.nodup_cons.mpr ⟨fun hin => hvmem (List.mem_cons_of_mem u hin), hnodup'⟩
      · intro x hx
        have hxu : x ≠ u := fun he => humem (he ▸ hx)
        have hxv : x ≠ v := fun he => hvmem (he ▸ List.mem_cons_of_mem u hx)
        rw [hothers x hxu hxv]
        exact hidle x (List.mem_cons_of_mem u hx)
      · simp only [List.length_cons] at hlen
        omega
    · rw [refused, if_neg hlast] at hv'
      exact ⟨w', h', hv'⟩

/-- A row that refuses its own reader makes every writer give up. -/
theorem stuck (n : ℕ) {v : ι} {k : ℕ} (h : P.Reachable init w) (hself : ¬ P.admits w.row w.row)
    (hv : w.phase v = .idle k) (hn : k + (n + 1) = P.attempts) :
    ∃ w', P.Reachable init w' ∧ w'.phase v = .failed := by
  induction n generalizing w k with
  | zero =>
    obtain ⟨t, ht, hnew⟩ := exists_fresh hclock w
    have h1 := h.next trivial (.read hv ht hnew)
    have h2 := h1.next trivial (.refuse (Function.update_self v _ _) hself)
    refine ⟨_, h2, ?_⟩
    have hlast : ¬ k + 1 < P.attempts := by omega
    simp [refused, hlast]
  | succ n ih =>
    obtain ⟨t, ht, hnew⟩ := exists_fresh hclock w
    have h1 := h.next trivial (.read hv ht hnew)
    have h2 := h1.next trivial (.refuse (Function.update_self v _ _) hself)
    have hmore : k + 1 < P.attempts := by omega
    refine ih h2 hself (k := k + 1) ?_ (by omega)
    simp [refused, hmore]

/-- No writer ever gives up exactly when there are no more writers than attempts
and the first row can be written at all. -/
theorem never_failed_iff [Fintype ι] :
    (∀ w, P.Reachable init w → ∀ i : ι, w.phase i ≠ .failed) ↔
      Fintype.card ι = 0 ∨ (P.admits init init ∧ Fintype.card ι ≤ P.attempts) := by
  constructor
  · intro hall
    by_contra hnot
    obtain ⟨hne, hbad⟩ := not_or.mp hnot
    obtain ⟨v⟩ := Fintype.card_pos_iff.mp (Nat.pos_of_ne_zero hne)
    have hstart : P.Reachable init (P.start init : World σ τ ι) := .refl
    obtain ⟨w, hw, hfail⟩ : ∃ w', P.Reachable init w' ∧ w'.phase v = .failed := by
      by_cases hself : P.admits init init
      · have hmany : P.attempts < Fintype.card ι := by
          by_contra hle
          exact hbad ⟨hself, not_lt.mp hle⟩
        have hperm := Finset.univ.toList.perm_cons_erase (Finset.mem_toList.mpr (Finset.mem_univ v))
        have hlen := hperm.length_eq
        simp only [Finset.length_toList, Finset.card_univ, List.length_cons] at hlen
        exact starve hclock (Finset.univ.toList.erase v) hstart hself rfl
          (hperm.nodup_iff.mp (Finset.nodup_toList _)) (fun _ _ => ⟨0, rfl⟩) P.attempts_pos
          (by omega)
      · exact stuck hclock (P.attempts - 1) hstart hself rfl (by have := P.attempts_pos; omega)
    exact hall w hw v hfail
  · intro h w hw i
    obtain hzero | ⟨hself, hcard⟩ := h
    · exact ((Fintype.card_eq_zero_iff.mp hzero).false i).elim
    · exact not_failed hself hcard hw i

end Starvation
end Protocol
end Optimistic
