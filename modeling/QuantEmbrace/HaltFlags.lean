import QuantEmbrace.LiveApproval
import QuantEmbrace.Lib.SeenWithin

/-! The two flags that halt new entries, as the risk engine reads them: while a `validate` call
waits for its read, other calls go on, and they share the caches. -/
namespace QuantEmbrace.RiskCheck

namespace EntryBlock

/-- The end of the read in `_refresh_if_stale` -/
def settle (c : EntryBlockCache) (mono : ℚ) : ItemRead Bool → EntryBlockCache
  | .failed => { c with readOk := false }
  | .missing => ⟨false, true, mono⟩
  | .item blocked => ⟨blocked, true, mono⟩

/-- What `validate` makes of its cache. -/
def answer (cfg : RiskConfig) (c : EntryBlockCache) : RiskValidationResult :=
  let name := "entry_block_validator"
  if c.readOk = false then
    if failClosed cfg then ⟨false, name, "ENTRY_BLOCK_READ_FAILURE_FAIL_CLOSED"⟩
    else ⟨true, name, "ENTRY_BLOCK_READ_FAILURE_WARN_ALLOW"⟩
  else if c.blocked then ⟨false, name, "ENTRY_BLOCK_ACTIVE"⟩
  else ⟨true, name, "entry_block_not_active"⟩

/-- The answer to a signal that the flag does not concern. -/
def exempt (cfg : RiskConfig) (s : Signal) : Option RiskValidationResult :=
  let name := "entry_block_validator"
  if s.isCloseout then some ⟨true, name, "closeout_exempt"⟩
  else if s.paperTrade && cfg.riskProfile = "paper" then
    some ⟨true, name, "paper_signal_exempt_in_paper_profile"⟩
  else none

theorem refreshIfStale_eq (w : ValidatorReads) (c : EntryBlockCache) :
    refreshIfStale w c = if w.mono - c.cachedAt < 5 then c
      else settle c w.mono (w.getItem w.entryBlock) := by
  rw [refreshIfStale]
  split
  · rfl
  · cases w.getItem w.entryBlock <;> rfl

/-- A call during which nothing else happens. -/
theorem validate_eq (cfg : RiskConfig) (w : ValidatorReads) (s : Signal) (c : Caches) :
    (validate cfg w s c).1 = (exempt cfg s).getD (answer cfg (refreshIfStale w c.entry)) := by
  rw [validate, exempt]
  by_cases hcloseout : s.isCloseout = true
  · simp [hcloseout]
  by_cases hpaper : (s.paperTrade && decide (cfg.riskProfile = "paper")) = true
  · simp [hcloseout, hpaper]
  · simp only [hcloseout, hpaper, answer]
    generalize refreshIfStale w c.entry = entry
    cases entry.readOk <;> cases entry.blocked <;> cases failClosed cfg <;> rfl

end EntryBlock

namespace ReconciliationCheck

/-- The end of the read in `_refresh_if_stale` -/
def settle (mono : ℚ) : ItemRead Bool → ReconciliationCache
  | .failed | .missing => ⟨false, mono⟩
  | .item required => ⟨required, mono⟩

/-- What `validate` makes of its cache. -/
def answer (c : ReconciliationCache) : RiskValidationResult :=
  let name := "reconciliation_validator"
  if c.required then ⟨false, name, "RECONCILIATION_REQUIRED"⟩
  else ⟨true, name, "reconciliation_not_required"⟩

/-- The answer to a signal that the flag does not concern. -/
def exempt (s : Signal) : Option RiskValidationResult :=
  let name := "reconciliation_validator"
  if s.paperTrade then some ⟨true, name, "paper_trade_exempt"⟩
  else if s.isCloseout then some ⟨true, name, "closeout_exempt"⟩
  else none

@[simp]
theorem settle_lastRefresh (mono : ℚ) (row : ItemRead Bool) :
    (settle mono row).lastRefresh = mono := by
  cases row <;> rfl

theorem refreshIfStale_eq (w : ValidatorReads) (c : ReconciliationCache) :
    refreshIfStale w c = if w.mono - c.lastRefresh < 1 then c
      else settle w.mono (w.getItem w.reconciliation) := by
  rw [refreshIfStale]
  split
  · rfl
  · cases w.getItem w.reconciliation <;> rfl

/-- A call during which nothing else happens. -/
theorem validate_eq (w : ValidatorReads) (s : Signal) (c : Caches) :
    (validate w s c).1 = (exempt s).getD (answer (refreshIfStale w c.recon)) := by
  rw [validate, exempt]
  by_cases hpaper : s.paperTrade = true
  · simp [hpaper]
  by_cases hcloseout : s.isCloseout = true
  · simp [hpaper, hcloseout]
  · simp only [hcloseout, hpaper, answer]
    generalize refreshIfStale w c.recon = recon
    cases recon.required <;> rfl

end ReconciliationCheck

namespace HaltFlags

inductive Check where
  | entryBlock
  | reconciliation
  deriving DecidableEq, Repr

/-- The answer to a signal that the flag does not concern. -/
def Check.exempt (cfg : RiskConfig) : Check → Signal → Option RiskValidationResult
  | .entryBlock => EntryBlock.exempt cfg
  | .reconciliation => ReconciliationCheck.exempt

/-- What a validator has answered to a signal. -/
structure Verdict where
  signal : Signal
  check : Check
  time : ℚ
  result : RiskValidationResult

/-- The caches, the calls that wait for a read, the answers so far, and when a read has failed. -/
structure World where
  entry : EntryBlockCache := {}
  recon : ReconciliationCache := {}
  waiting : ℕ → Option (Signal × Check) := fun _ => none
  verdicts : List Verdict := []
  failures : List (Check × ℚ) := []

/-- A signal comes to be validated; or the read that a call waits for ends: it has failed, or
shows the row as it was at a time. -/
inductive Kind where
  | arrive (id : ℕ) (s : Signal)
  | read (id : ℕ) (shown : Option ℚ)

structure Event where
  time : ℚ
  kind : Kind

/-- The two rows as they are at a time: `none` where there is no row, and else the flag. -/
structure Rows where
  entryBlock : ℚ → Option Bool
  reconciliation : ℚ → Option Bool

def Rows.of (rows : Rows) : Check → ℚ → Option Bool
  | .entryBlock => rows.entryBlock
  | .reconciliation => rows.reconciliation

/-- The flag of a row, unset where there is no row. -/
def Rows.flag (rows : Rows) (check : Check) (t : ℚ) : Bool := (rows.of check t).getD false

def Rows.read (rows : Rows) (check : Check) : Option ℚ → ItemRead Bool
  | none => .failed
  | some r => ((rows.of check r).map .item).getD .missing

namespace World
variable (cfg : RiskConfig) (rows : Rows) (w : World)

def record (v : Verdict) : World := { w with verdicts := v :: w.verdicts }

def setWaiting (id : ℕ) (call : Option (Signal × Check)) : World :=
  { w with waiting := Function.update w.waiting id call }

/-- The read of a call has ended. -/
def failed (check : Check) (t : ℚ) (shown : Option ℚ) : World :=
  { w with failures := if shown = none then (check, t) :: w.failures else w.failures }

/-- `ReconciliationValidator.validate` up to its first wait. -/
def beginRecon (id : ℕ) (s : Signal) (t : ℚ) : World :=
  match ReconciliationCheck.exempt s with
  | some result => w.record ⟨s, .reconciliation, t, result⟩
  | none =>
    if t - w.recon.lastRefresh < 1 then
      w.record ⟨s, .reconciliation, t, ReconciliationCheck.answer w.recon⟩
    else w.setWaiting id (some (s, .reconciliation))

/-- `validate_signal` goes on to the next check when the first one passes. -/
def endEntry (id : ℕ) (s : Signal) (t : ℚ) (result : RiskValidationResult) : World :=
  let w := w.record ⟨s, .entryBlock, t, result⟩
  if result.approved then w.beginRecon id s t else w

/-- `EntryBlockValidator.validate` up to its first wait. -/
def beginEntry (id : ℕ) (s : Signal) (t : ℚ) : World :=
  match EntryBlock.exempt cfg s with
  | some result => w.endEntry id s t result
  | none =>
    if t - w.entry.cachedAt < 5 then w.endEntry id s t (EntryBlock.answer cfg w.entry)
    else w.setWaiting id (some (s, .entryBlock))

def step (e : Event) : World :=
  match e.kind with
  | .arrive id s => if (w.waiting id).isSome then w else w.beginEntry cfg id s e.time
  | .read id shown =>
    match w.waiting id with
    | none => w
    | some (s, .entryBlock) =>
      let entry := EntryBlock.settle w.entry e.time (rows.read .entryBlock shown)
      let w := ({ w with entry }.failed .entryBlock e.time shown).setWaiting id none
      w.endEntry id s e.time (EntryBlock.answer cfg entry)
    | some (s, .reconciliation) =>
      let recon := ReconciliationCheck.settle e.time (rows.read .reconciliation shown)
      let w := ({ w with recon }.failed .reconciliation e.time shown).setWaiting id none
      w.record ⟨s, .reconciliation, e.time, ReconciliationCheck.answer recon⟩

def run (events : List Event) : World := events.foldl (step cfg rows) {}

end World

/-- The row an answer shows is no older than the bound. -/
def Event.Timely (delay : ℚ) (e : Event) : Prop :=
  ∀ id r, e.kind = .read id (some r) → e.time - delay ≤ r ∧ r ≤ e.time

/-- A read of the flag has failed in the window. -/
def FailedWithin (failures : List (Check × ℚ)) (check : Check) (w t : ℚ) : Prop :=
  ∃ f, (check, f) ∈ failures ∧ t - w ≤ f ∧ f ≤ t

section Invariant
variable (cfg : RiskConfig) (rows : Rows) (delay : ℚ)

/-- An answer of the entry block: no failed read stands behind it, or it goes the way of the
profile. The first five seconds of the clock count as a read of no row. -/
def EntryJustified (failures : List (Check × ℚ)) (t : ℚ) (approved : Bool) : Prop :=
  if approved then
    t < 5 ∨ SeenWithin (rows.flag .entryBlock) (5 + delay) t false ∨
      (EntryBlock.failClosed cfg = false ∧ FailedWithin failures .entryBlock 5 t)
  else
    SeenWithin (rows.flag .entryBlock) (5 + delay) t true ∨
      (EntryBlock.failClosed cfg = true ∧ FailedWithin failures .entryBlock 5 t)

/-- An answer of the reconciliation flag, which counts as unset after a failed read. -/
def ReconJustified (failures : List (Check × ℚ)) (t : ℚ) (approved : Bool) : Prop :=
  if approved then
    t < 1 ∨ SeenWithin (rows.flag .reconciliation) (1 + delay) t false ∨
      FailedWithin failures .reconciliation 1 t
  else SeenWithin (rows.flag .reconciliation) (1 + delay) t true

/-- What stands behind an answer. -/
def Answer (failures : List (Check × ℚ)) : Check → ℚ → Bool → Prop
  | .entryBlock => EntryJustified cfg rows delay failures
  | .reconciliation => ReconJustified rows delay failures

def Verdict.Justified (failures : List (Check × ℚ)) (v : Verdict) : Prop :=
  v.check.exempt cfg v.signal = some v.result ∨
    (v.check.exempt cfg v.signal = none ∧
      Answer cfg rows delay failures v.check v.time v.result.approved)

/-- The caches come from the rows, or from a read that has failed. -/
structure World.Grounded (now : ℚ) (w : World) : Prop where
  entry : (w.entry.blocked = false ∧ w.entry.cachedAt = 0) ∨
    SeenWithin (rows.flag .entryBlock) delay w.entry.cachedAt w.entry.blocked
  entryTime : w.entry.cachedAt ≤ now
  entryFailed : w.entry.readOk = false →
    ∃ f, (Check.entryBlock, f) ∈ w.failures ∧ w.entry.cachedAt ≤ f ∧ f ≤ now
  recon : (w.recon.required = false ∧ w.recon.lastRefresh = 0) ∨
    SeenWithin (rows.flag .reconciliation) delay w.recon.lastRefresh w.recon.required ∨
    (w.recon.required = false ∧ (Check.reconciliation, w.recon.lastRefresh) ∈ w.failures)
  reconTime : w.recon.lastRefresh ≤ now
  waiting : ∀ id s check, w.waiting id = some (s, check) → check.exempt cfg s = none
  verdicts : ∀ v ∈ w.verdicts, v.Justified cfg rows delay w.failures

variable {cfg rows delay} {now t : ℚ} {w : World} {s : Signal} {id : ℕ}

theorem FailedWithin.mono {failures more : List (Check × ℚ)} {check : Check} {x : ℚ}
    (h : FailedWithin failures check x t) (hsub : failures ⊆ more) :
    FailedWithin more check x t := by
  obtain ⟨f, hf, hwindow⟩ := h
  exact ⟨f, hsub hf, hwindow⟩

theorem Answer.mono {failures more : List (Check × ℚ)} {check : Check} {approved : Bool}
    (h : Answer cfg rows delay failures check t approved) (hsub : failures ⊆ more) :
    Answer cfg rows delay more check t approved := by
  cases check with
  | entryBlock =>
    cases approved with
    | true => exact h.imp_right (Or.imp_right (And.imp_right fun hf => hf.mono hsub))
    | false => exact h.imp_right (And.imp_right fun hf => hf.mono hsub)
  | reconciliation =>
    cases approved with
    | true => exact h.imp_right (Or.imp_right fun hf => hf.mono hsub)
    | false => exact h

theorem Verdict.Justified.mono {failures more : List (Check × ℚ)} {v : Verdict}
    (h : v.Justified cfg rows delay failures) (hsub : failures ⊆ more) :
    v.Justified cfg rows delay more :=
  h.imp_right (And.imp_right fun h => h.mono hsub)

theorem Rows.settle_entryBlock (c : EntryBlockCache) (r : ℚ) :
    EntryBlock.settle c t (rows.read .entryBlock (some r)) =
      ⟨rows.flag .entryBlock r, true, t⟩ := by
  cases hrow : rows.entryBlock r <;> simp [Rows.read, Rows.flag, Rows.of, hrow, EntryBlock.settle]

theorem Rows.settle_reconciliation (r : ℚ) :
    ReconciliationCheck.settle t (rows.read .reconciliation (some r)) =
      ⟨rows.flag .reconciliation r, t⟩ := by
  cases hrow : rows.reconciliation r <;>
    simp [Rows.read, Rows.flag, Rows.of, hrow, ReconciliationCheck.settle]

namespace World.Grounded

theorem later (h : w.Grounded cfg rows delay now) (hle : now ≤ t) :
    w.Grounded cfg rows delay t where
  entry := h.entry
  entryTime := h.entryTime.trans hle
  entryFailed := fun hf => by
    obtain ⟨f, hmem, hlow, hhigh⟩ := h.entryFailed hf
    exact ⟨f, hmem, hlow, hhigh.trans hle⟩
  recon := h.recon
  reconTime := h.reconTime.trans hle
  waiting := h.waiting
  verdicts := h.verdicts

theorem record (h : w.Grounded cfg rows delay now) {v : Verdict}
    (hv : v.Justified cfg rows delay w.failures) : (w.record v).Grounded cfg rows delay now :=
  { h with verdicts := List.forall_mem_cons.mpr ⟨hv, h.verdicts⟩ }

theorem setWaiting (h : w.Grounded cfg rows delay now) (id : ℕ) (call : Option (Signal × Check))
    (hcall : ∀ s check, call = some (s, check) → check.exempt cfg s = none) :
    (w.setWaiting id call).Grounded cfg rows delay now :=
  { h with
    waiting := fun other s check hother => by
      change Function.update w.waiting id call other = some (s, check) at hother
      by_cases heq : other = id
      · rw [heq, Function.update_self] at hother
        exact hcall s check hother
      · rw [Function.update_of_ne heq] at hother
        exact h.waiting other s check hother }

theorem failedWithin (h : w.Grounded cfg rows delay t) (hfresh : t - w.entry.cachedAt < 5)
    (hok : w.entry.readOk = false) : FailedWithin w.failures .entryBlock 5 t := by
  obtain ⟨f, hmem, hlow, hhigh⟩ := h.entryFailed hok
  exact ⟨f, hmem, by linarith, hhigh⟩

/-- What the cache of the entry block says while it is used. -/
theorem answer_entry (h : w.Grounded cfg rows delay t)
    (hfresh : w.entry.readOk = true → t - w.entry.cachedAt < 5)
    (hfailed : w.entry.readOk = false → FailedWithin w.failures .entryBlock 5 t) :
    Answer cfg rows delay w.failures .entryBlock t (EntryBlock.answer cfg w.entry).approved := by
  rw [EntryBlock.answer, Answer]
  cases hok : w.entry.readOk with
  | false => cases hclosed : EntryBlock.failClosed cfg <;> simp [EntryJustified, hclosed, hfailed hok]
  | true =>
    have hage := hfresh hok
    have hseen : (w.entry.blocked = false ∧ t < 5) ∨
        SeenWithin (rows.flag .entryBlock) (5 + delay) t w.entry.blocked := by
      obtain ⟨hblocked, hzero⟩ | hseen := h.entry
      · exact .inl ⟨hblocked, by linarith⟩
      · exact .inr (hseen.later h.entryTime hage.le)
    cases hblocked : w.entry.blocked <;> rw [hblocked] at hseen <;>
      simp only [reduceCtorEq, false_and, false_or, true_and] at hseen
    · simpa [EntryJustified, ← or_assoc] using .inl hseen
    · simpa [EntryJustified] using .inl hseen

/-- What the cache of the reconciliation flag says while it is used. -/
theorem answer_recon (h : w.Grounded cfg rows delay t) (hfresh : t - w.recon.lastRefresh < 1) :
    Answer cfg rows delay w.failures .reconciliation t
      (ReconciliationCheck.answer w.recon).approved := by
  rw [ReconciliationCheck.answer, Answer]
  obtain ⟨hrequired, hzero⟩ | hseen | ⟨hrequired, hmem⟩ := h.recon
  · have hearly : t < 1 := by linarith
    simp [ReconJustified, hrequired, hearly]
  · have hseen := hseen.later h.reconTime hfresh.le
    cases hrequired : w.recon.required <;> rw [hrequired] at hseen <;>
      simp [ReconJustified, hseen]
  · have hfailed : FailedWithin w.failures .reconciliation 1 t :=
      ⟨_, hmem, by linarith, h.reconTime⟩
    simp [ReconJustified, hrequired, hfailed]

theorem beginRecon (h : w.Grounded cfg rows delay t) :
    (w.beginRecon id s t).Grounded cfg rows delay t := by
  rw [World.beginRecon]
  cases hexempt : ReconciliationCheck.exempt s with
  | some result => exact h.record (.inl hexempt)
  | none =>
    by_cases hfresh : t - w.recon.lastRefresh < 1
    · simp only [hfresh, if_true]
      exact h.record (.inr ⟨hexempt, h.answer_recon hfresh⟩)
    · simp only [hfresh, if_false]
      refine h.setWaiting _ _ fun s check heq => ?_
      cases heq
      exact hexempt

theorem endEntry (h : w.Grounded cfg rows delay t) {result : RiskValidationResult}
    (hresult : (Verdict.mk s .entryBlock t result).Justified cfg rows delay w.failures) :
    (w.endEntry id s t result).Grounded cfg rows delay t := by
  rw [World.endEntry]
  split
  · exact (h.record hresult).beginRecon
  · exact h.record hresult

theorem beginEntry (h : w.Grounded cfg rows delay t) :
    (w.beginEntry cfg id s t).Grounded cfg rows delay t := by
  rw [World.beginEntry]
  cases hexempt : EntryBlock.exempt cfg s with
  | some result => exact h.endEntry (.inl hexempt)
  | none =>
    by_cases hfresh : t - w.entry.cachedAt < 5
    · simp only [hfresh, if_true]
      exact h.endEntry (.inr ⟨hexempt, h.answer_entry (fun _ => hfresh) (h.failedWithin hfresh)⟩)
    · simp only [hfresh, if_false]
      refine h.setWaiting _ _ fun s check heq => ?_
      cases heq
      exact hexempt

/-- The read of an entry block ends, well or not. -/
theorem settleEntry (h : w.Grounded cfg rows delay t) {shown : Option ℚ}
    (hshown : ∀ r, shown = some r → t - delay ≤ r ∧ r ≤ t) :
    ({ w with entry := EntryBlock.settle w.entry t (rows.read .entryBlock shown) }.failed
      .entryBlock t shown).Grounded cfg rows delay t := by
  cases shown with
  | none =>
    have hsub : w.failures ⊆ (Check.entryBlock, t) :: w.failures := List.subset_cons_self _ _
    exact
      { h with
        entryFailed := fun _ => ⟨t, List.mem_cons_self, h.entryTime, le_rfl⟩
        recon := h.recon.imp_right (Or.imp_right (And.imp_right fun hmem => hsub hmem))
        verdicts := fun v hv => (h.verdicts v hv).mono hsub }
  | some r =>
    obtain ⟨hage, hle⟩ := hshown r rfl
    rw [Rows.settle_entryBlock]
    exact
      { h with
        entry := .inr (SeenWithin.of_read hle hage)
        entryTime := le_rfl
        entryFailed := fun hok => absurd hok (by simp [World.failed]) }

/-- The read of a reconciliation flag ends, well or not. -/
theorem settleRecon (h : w.Grounded cfg rows delay t) {shown : Option ℚ}
    (hshown : ∀ r, shown = some r → t - delay ≤ r ∧ r ≤ t) :
    ({ w with recon := ReconciliationCheck.settle t (rows.read .reconciliation shown) }.failed
      .reconciliation t shown).Grounded cfg rows delay t := by
  cases shown with
  | none =>
    have hsub : w.failures ⊆ (Check.reconciliation, t) :: w.failures := List.subset_cons_self _ _
    exact
      { h with
        entryFailed := fun hok => by
          obtain ⟨f, hmem, hwindow⟩ := h.entryFailed hok
          exact ⟨f, hsub hmem, hwindow⟩
        recon := .inr (.inr ⟨rfl, List.mem_cons_self⟩)
        reconTime := le_rfl
        verdicts := fun v hv => (h.verdicts v hv).mono hsub }
  | some r =>
    obtain ⟨hage, hle⟩ := hshown r rfl
    rw [Rows.settle_reconciliation]
    exact
      { h with
        recon := .inr (.inl (SeenWithin.of_read hle hage))
        reconTime := le_rfl }

theorem step (h : w.Grounded cfg rows delay now) {e : Event} (hle : now ≤ e.time)
    (htimely : e.Timely delay) : (w.step cfg rows e).Grounded cfg rows delay e.time := by
  obtain ⟨t, kind⟩ := e
  have h := h.later hle
  cases kind with
  | arrive id s =>
    simp only [World.step]
    split
    · exact h
    · exact h.beginEntry
  | read id shown =>
    have hshown : ∀ r, shown = some r → t - delay ≤ r ∧ r ≤ t := fun r heq =>
      htimely id r (by rw [heq])
    simp only [World.step]
    cases hcall : w.waiting id with
    | none => exact h
    | some call =>
      obtain ⟨s, check⟩ := call
      have hexempt := h.waiting id s check hcall
      cases check with
      | entryBlock =>
        have hdone := (h.settleEntry hshown).setWaiting id none (by simp)
        refine hdone.endEntry (.inr ⟨hexempt, hdone.answer_entry (fun hok => ?_) fun hok => ?_⟩)
        · cases shown with
          | none => cases hok
          | some r =>
            change t - (EntryBlock.settle w.entry t (rows.read .entryBlock (some r))).cachedAt < 5
            rw [Rows.settle_entryBlock, sub_self]
            norm_num
        · cases shown with
          | none => exact ⟨t, List.mem_cons_self, by linarith, le_rfl⟩
          | some r =>
            change (EntryBlock.settle w.entry t (rows.read .entryBlock (some r))).readOk = false
              at hok
            rw [Rows.settle_entryBlock] at hok
            cases hok
      | reconciliation =>
        have hdone := (h.settleRecon hshown).setWaiting id none (by simp)
        refine hdone.record (.inr ⟨hexempt, hdone.answer_recon ?_⟩)
        change t - (ReconciliationCheck.settle t (rows.read .reconciliation shown)).lastRefresh < 1
        rw [ReconciliationCheck.settle_lastRefresh, sub_self]
        norm_num

theorem foldl (h : w.Grounded cfg rows delay now) {events : List Event}
    (hsorted : events.Pairwise fun e e' => e.time ≤ e'.time) (hle : ∀ e ∈ events, now ≤ e.time)
    (htimely : ∀ e ∈ events, e.Timely delay) :
    ∃ now', (events.foldl (World.step cfg rows) w).Grounded cfg rows delay now' := by
  induction events generalizing w now with
  | nil => exact ⟨now, h⟩
  | cons e events ih =>
    obtain ⟨hfirst, hsorted⟩ := List.pairwise_cons.mp hsorted
    obtain ⟨hle, -⟩ := List.forall_mem_cons.mp hle
    obtain ⟨hone, htimely⟩ := List.forall_mem_cons.mp htimely
    exact ih (h.step hle hone) hsorted hfirst htimely

theorem start : ({} : World).Grounded cfg rows delay 0 where
  entry := .inl ⟨rfl, rfl⟩
  entryTime := le_rfl
  entryFailed := by simp
  recon := .inl ⟨rfl, rfl⟩
  reconTime := le_rfl
  waiting := by simp
  verdicts := by simp

end World.Grounded

namespace Verdict.Justified
variable {failures : List (Check × ℚ)} {v : Verdict} {set : Bool}

theorem answer (h : v.Justified cfg rows delay failures)
    (hexempt : v.check.exempt cfg v.signal = none) :
    Answer cfg rows delay failures v.check v.time v.result.approved := by
  obtain hsome | ⟨-, h⟩ := h
  · simp [hexempt] at hsome
  · exact h

/-- Where a failed read stops the entries, a block that has been in place for long enough does
so whether it can be read or not. -/
theorem not_approved_of_blocked (h : v.Justified cfg rows delay failures)
    (hcheck : v.check = .entryBlock) (hexempt : v.check.exempt cfg v.signal = none)
    (hclosed : EntryBlock.failClosed cfg = true) (hclock : 5 ≤ v.time)
    (hset : ∀ r, v.time - (5 + delay) ≤ r → r ≤ v.time → rows.flag .entryBlock r = true) :
    v.result.approved = false := by
  have h := h.answer hexempt
  rw [hcheck] at h
  cases happroved : v.result.approved with
  | false => rfl
  | true =>
    rw [happroved] at h
    obtain hearly | hseen | ⟨hopen, -⟩ := h
    · exact absurd hclock (not_le.mpr hearly)
    · exact (hseen.eq_of_constant hset).symm
    · exact absurd (hclosed.symm.trans hopen) (by simp)

/-- A reconciliation flag does so only while its reads succeed. -/
theorem not_approved_of_required (h : v.Justified cfg rows delay failures)
    (hcheck : v.check = .reconciliation) (hexempt : v.check.exempt cfg v.signal = none)
    (hclock : 1 ≤ v.time) (hread : ¬FailedWithin failures .reconciliation 1 v.time)
    (hset : ∀ r, v.time - (1 + delay) ≤ r → r ≤ v.time → rows.flag .reconciliation r = true) :
    v.result.approved = false := by
  have h := h.answer hexempt
  rw [hcheck] at h
  cases happroved : v.result.approved with
  | false => rfl
  | true =>
    rw [happroved] at h
    obtain hearly | hseen | hfailed := h
    · exact absurd hclock (not_le.mpr hearly)
    · exact (hseen.eq_of_constant hset).symm
    · exact absurd hfailed hread

end Verdict.Justified
end Invariant

section Runs

/-- Whatever calls overlap, no answer rests on a flag older than the cache's lifetime and one
read; a failed read lets a live entry pass only at the reconciliation flag. -/
theorem World.verdicts_justified (cfg : RiskConfig) (rows : Rows) (delay : ℚ)
    (events : List Event) (hsorted : events.Pairwise fun e e' => e.time ≤ e'.time)
    (hclock : ∀ e ∈ events, 0 ≤ e.time) (htimely : ∀ e ∈ events, e.Timely delay) :
    ∀ v ∈ (World.run cfg rows events).verdicts,
      v.Justified cfg rows delay (World.run cfg rows events).failures := by
  obtain ⟨now, h⟩ := World.Grounded.start.foldl hsorted hclock htimely
  exact h.verdicts

/-- Two overlapping entries while the flag is raised between their reads: the later read is the
one that ends first. -/
def overlapping : List Event :=
  [⟨10, .arrive 0 smallBuy⟩, ⟨10, .arrive 1 smallBuy⟩, ⟨11, .read 1 (some 11)⟩,
    ⟨12, .read 0 (some 10)⟩, ⟨13, .read 0 none⟩, ⟨20, .arrive 2 smallBuy⟩, ⟨20, .read 2 none⟩]

def raisedAtEleven : Rows where
  entryBlock := fun t => if t < 11 then none else some true
  reconciliation := fun _ => none

theorem World.verdicts_justified_overlapping :
    (overlapping.Pairwise fun e e' => e.time ≤ e'.time) ∧
      (∀ e ∈ overlapping, 0 ≤ e.time) ∧ (∀ e ∈ overlapping, e.Timely 2) ∧
      ((World.run tinyLive raisedAtEleven overlapping).verdicts.map fun v =>
        (v.check, v.time, v.result.approved)) =
          [(.entryBlock, 20, false), (.reconciliation, 13, true), (.entryBlock, 12, true),
            (.entryBlock, 11, false)] ∧
      ∀ v ∈ (World.run tinyLive raisedAtEleven overlapping).verdicts,
        v.Justified tinyLive raisedAtEleven 2
          (World.run tinyLive raisedAtEleven overlapping).failures := by
  have hsorted : overlapping.Pairwise fun e e' => e.time ≤ e'.time := by decide +kernel
  have hclock : ∀ e ∈ overlapping, 0 ≤ e.time := by decide +kernel
  have htimely : ∀ e ∈ overlapping, e.Timely 2 := by
    simp only [overlapping, List.forall_mem_cons, Event.Timely, Kind.read.injEq, reduceCtorEq]
    norm_num
  exact ⟨hsorted, hclock, htimely, by decide +kernel,
    World.verdicts_justified tinyLive raisedAtEleven 2 overlapping hsorted hclock htimely⟩

end Runs

end HaltFlags
end QuantEmbrace.RiskCheck
