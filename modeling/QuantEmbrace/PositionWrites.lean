import QuantEmbrace.PositionAccounting
import QuantEmbrace.Lib.Optimistic
import Mathlib.Algebra.BigOperators.Group.Finset.Basic
import Mathlib.Data.Fintype.EquivFin
import Mathlib.Tactic.FinCases

/-! Concurrent `apply_fill_to_position` calls on one symbol: each reads the row,
computes from it and writes on condition of `updated_at`, three times at most. -/
namespace QuantEmbrace
open Optimistic GuardedRun
variable {ι : Type*}

theorem admits_iff {r s : PositionRow} :
    r.admits s = true ↔
      match r.updatedAt with
      | some ts => if ts = "" then s.updatedAt = none else s.updatedAt = some ts
      | none => s.updatedAt = none := by
  unfold PositionRow.admits
  cases r.updatedAt with
  | none => simp
  | some ts => by_cases h : ts = "" <;> simp [h]

theorem admits_self_iff (r : PositionRow) : r.admits r = true ↔ r.updatedAt ≠ some "" := by
  rw [admits_iff]
  cases h : r.updatedAt with
  | none => simp
  | some ts => by_cases ht : ts = "" <;> simp [ht]

/-- The write of one attempt, at clock reading `ts`. -/
def attemptWrite (f : Fill) (ts : String) (read stored : PositionRow) : PositionRow :=
  (positionSet read { f with now := ts }).write stored

theorem admits_attemptWrite (r r' s : PositionRow) (f : Fill) {ts : String} (hts : ts ≠ "") :
    r.admits (attemptWrite f ts r' s) = true ↔ r.updatedAt = some ts := by
  have hstamp : (attemptWrite f ts r' s).updatedAt = some ts := rfl
  rw [admits_iff, hstamp]
  cases h : r.updatedAt with
  | none => simp
  | some t =>
    by_cases ht : t = ""
    · subst ht
      simp [hts.symm]
    · simp [ht, eq_comm]

/-- `for _attempt in range(3)`: the calls `fills`, one for each writer. -/
def positionProtocol (fills : ι → Fill) : Protocol PositionRow String ι where
  attempts := 3
  clock ts := ts ≠ ""
  stamp := PositionRow.updatedAt
  admits r s := r.admits s = true
  put i := attemptWrite (fills i)
  attempts_pos := by decide
  stamp_put _ _ _ _ := rfl
  admits_put i _ r r' s hts := admits_attemptWrite r r' s (fills i) hts

theorem clock_infinite (fills : ι → Fill) : {ts | (positionProtocol fills).clock ts}.Infinite :=
  (Set.finite_singleton "").infinite_compl

/-- What call `i` adds to the position. -/
def signedFill (fills : ι → Fill) (i : ι) : ℚ := (fills i).side.signed (fills i).quantity

/-- Every quantity the fills can add up to on the row is zero or more than flat. -/
def AllClear (fills : ι → Fill) (row : PositionRow) : Prop :=
  ∀ S : Finset ι, ClearOfFlat (row.oldQty + ∑ i ∈ S, signedFill fills i)

variable [DecidableEq ι] {fills : ι → Fill} {row : PositionRow}

theorem foldl_apply_oldQty (hclear : AllClear fills row) (log : List (ι × String))
    (hnodup : (log.map Prod.fst).Nodup) :
    (log.foldl (positionProtocol fills).apply row).oldQty =
      row.oldQty + ∑ i ∈ (log.map Prod.fst).toFinset, signedFill fills i := by
  induction log using List.reverseRecOn with
  | nil => simp
  | append_singleton log e ih =>
    rw [List.map_append, List.map_singleton, List.nodup_append] at hnodup
    obtain ⟨hlog, _, hdisj⟩ := hnodup
    have he : e.1 ∉ (log.map Prod.fst).toFinset := by
      intro hmem
      exact hdisj e.1 (List.mem_toFinset.mp hmem) e.1 (List.mem_singleton_self _) rfl
    have hset : ((log ++ [e]).map Prod.fst).toFinset = insert e.1 (log.map Prod.fst).toFinset := by
      ext i
      simp
    have hsum : ∑ i ∈ ((log ++ [e]).map Prod.fst).toFinset, signedFill fills i =
        (∑ i ∈ (log.map Prod.fst).toFinset, signedFill fills i) + signedFill fills e.1 := by
      rw [hset, Finset.sum_insert he, add_comm]
    have hc := hclear ((log ++ [e]).map Prod.fst).toFinset
    rw [hsum, ← add_assoc, ← ih hlog] at hc
    rw [List.foldl_append, hsum, ← add_assoc, ← ih hlog]
    exact fillFigures_qty_clear _ _ _ _ hc

/-- No call has given up, and once all are done every fill is in the row. -/
def NothingLost (fills : ι → Fill) (row : PositionRow) [Fintype ι]
    (w : World PositionRow String ι) : Prop :=
  (∀ i, w.phase i ≠ .failed) ∧
    ((∀ i, w.phase i = .committed) → w.row.oldQty = row.oldQty + ∑ i, signedFill fills i)

/-- Concurrent fills of one symbol all reach the row, under every interleaving,
exactly when there are at most three of them; a fourth call can be the one that is
refused three times. -/
theorem no_fill_lost_iff [Fintype ι] (hclear : AllClear fills row) :
    (∀ w, (positionProtocol fills).Reachable row w → NothingLost fills row w) ↔
      Fintype.card ι = 0 ∨ (row.updatedAt ≠ some "" ∧ Fintype.card ι ≤ 3) := by
  have hiff : (∀ w, (positionProtocol fills).Reachable row w → ∀ i : ι, w.phase i ≠ .failed) ↔ _ :=
    Protocol.never_failed_iff (clock_infinite fills)
  rw [show (positionProtocol fills).admits row row ↔ row.updatedAt ≠ some "" from
    admits_self_iff row] at hiff
  rw [show (positionProtocol fills).attempts = 3 from rfl] at hiff
  rw [← hiff]
  constructor
  · intro h w hw
    exact (h w hw).1
  · intro h w hw
    refine ⟨h w hw, fun hdone => ?_⟩
    have hs := Protocol.reachable_sound hw
    have hall : (w.log.map Prod.fst).toFinset = Finset.univ := by
      ext i
      simp only [List.mem_toFinset, hs.logged, hdone i, Finset.mem_univ]
    rw [hs.replay, foldl_apply_oldQty hclear w.log hs.once, hall]

def tenBought {n : ℕ} (_ : Fin n) : Fill := sampleFill .buy 10 100

theorem tenBought_clear (n : ℕ) : AllClear (tenBought : Fin n → Fill) {} := by
  intro S
  have hsum : ∑ i ∈ S, signedFill (tenBought : Fin n → Fill) i = 10 * (S.card : ℚ) := by
    simp [signedFill, tenBought, sampleFill, OrderSide.signed, mul_comm]
  have hrow : ({} : PositionRow).oldQty = 0 := rfl
  rw [hsum, hrow, zero_add]
  have hw : IsWhole (10 * (S.card : ℚ)) := ⟨10 * (S.card : ℤ), by push_cast; ring⟩
  exact hw.zero_or_gt

theorem no_fill_lost_two_calls :
    (∀ w, (positionProtocol (tenBought : Fin 2 → Fill)).Reachable {} w →
      NothingLost tenBought {} w) ↔
    Fintype.card (Fin 2) = 0 ∨
      (({} : PositionRow).updatedAt ≠ some "" ∧ Fintype.card (Fin 2) ≤ 3) :=
  no_fill_lost_iff (tenBought_clear 2)

/-- Four buys of ten on a symbol without a row: the first call is overtaken by one of
the others in each of its three attempts, and thirty shares are stored. -/
theorem fourth_concurrent_fill_lost :
    ¬ ∀ (fills : Fin 4 → Fill) (row : PositionRow), AllClear fills row →
      ∀ w, (positionProtocol fills).Reachable row w →
      (∀ i, w.phase i = .committed ∨ w.phase i = .failed) →
      w.row.oldQty = row.oldQty + ∑ i, signedFill fills i := by
  intro hall
  have hclock := clock_infinite (tenBought : Fin 4 → Fill)
  have h0 : (positionProtocol (tenBought : Fin 4 → Fill)).Reachable {} _ := .refl
  obtain ⟨w₁, h1, hself₁, hv₁, hu₁, ho₁⟩ :=
    Protocol.starve_round hclock (u := 1) (v := 0) h0 rfl (by decide) rfl rfl
  obtain ⟨w₂, h2, hself₂, hv₂, hu₂, ho₂⟩ :=
    Protocol.starve_round hclock (u := 2) (v := 0) h1 hself₁ (by decide) hv₁
      (ho₁ 2 (by decide) (by decide))
  obtain ⟨w₃, h3, _, hv₃, hu₃, ho₃⟩ :=
    Protocol.starve_round hclock (u := 3) (v := 0) h2 hself₂ (by decide) hv₂
      ((ho₂ 3 (by decide) (by decide)).trans (ho₁ 3 (by decide) (by decide)))
  have hp₁ : w₃.phase 1 = .committed := by
    rw [ho₃ 1 (by decide) (by decide), ho₂ 1 (by decide) (by decide), hu₁]
  have hp₂ : w₃.phase 2 = .committed := by
    rw [ho₃ 2 (by decide) (by decide), hu₂]
  have hp₀ : w₃.phase 0 = .failed := hv₃
  have hs := Protocol.reachable_sound h3
  have hlog : (w₃.log.map Prod.fst).toFinset = {1, 2, 3} := by
    ext i
    rw [List.mem_toFinset, hs.logged]
    fin_cases i <;> simp [hp₀, hp₁, hp₂, hu₃]
  have hstored := foldl_apply_oldQty (tenBought_clear 4) w₃.log hs.once
  rw [← hs.replay, hlog] at hstored
  have hsum := hall tenBought {} (tenBought_clear 4) w₃ h3 (by
    intro i
    fin_cases i <;> simp [hp₀, hp₁, hp₂, hu₃])
  rw [hstored] at hsum
  revert hsum
  decide +kernel

end QuantEmbrace
