import QuantEmbrace.SafeActions
import QuantEmbrace.Lib.GuardedRun

/-! Runs of safe actions: how often the row is written under one key, and what an answer says
about the row. -/
namespace QuantEmbrace.SafeActions
open GuardedRun

def Effect.isPutUnder (key : String) : Effect → Bool
  | .put _ k _ => k = key
  | .activate _ | .clear _ => false

abbrev Call.key (c : Call) : String := c.action.idempotencyKey

/-- A write action past its lookup that has not put its row. -/
def Call.AtDoor (c : Call) : Prop :=
  c.action.actionType.row.isSome ∧ (c.stage = .gate ∨ c.stage = .put)

namespace World
variable (w : World)

/-- How often the risk-state write was performed under a key. -/
def puts (key : String) : ℕ := w.effects.countP (Effect.isPutUnder key)

def AtMostOnce : Prop := ∀ key, w.puts key ≤ 1

instance (key : String) : Decidable (w.puts key ≤ 1) := Nat.decLe _ _

/-- A lookup of a key that was written finds its mark, or the executor remembers the key; and no
other call with this key is between its own lookup and its write. -/
def LookupSound (w : World) : Event → Prop
  | .lookup id sees => ∀ c, w.calls id = some c → c.stage = .lookup →
      (w.puts c.key ≠ 0 → (sees ∧ c.key ∈ w.keys) ∨ c.key ∈ w.memory c.executor) ∧
      ∀ id' c', w.calls id' = some c' → c'.AtDoor → c'.key ≠ c.key
  | _ => True

/-- Under each key there was one put at most; a call at the door has a key without a put, or one
the executor remembers, and is the only one with its key there. -/
structure Once : Prop where
  once : w.AtMostOnce
  fresh : ∀ id c, w.calls id = some c → c.AtDoor →
    w.puts c.key = 0 ∨ (c.stage = .gate ∧ c.key ∈ w.memory c.executor)
  alone : ∀ id id' c c', w.calls id = some c → w.calls id' = some c' → c.AtDoor → c'.AtDoor →
    c.key = c'.key → id = id'

variable {w} {w' : World} {id : ℕ}

@[simp] theorem setCall_keys (c : Option Call) : (w.setCall id c).keys = w.keys := rfl
@[simp] theorem setCall_memory (c : Option Call) : (w.setCall id c).memory = w.memory := rfl
@[simp] theorem setCall_effects (c : Option Call) : (w.setCall id c).effects = w.effects := rfl
@[simp] theorem setCall_returned (c : Option Call) : (w.setCall id c).returned = w.returned := rfl

theorem setCall_some {c : Option Call} {i : ℕ} {d : Call} (h : (w.setCall id c).calls i = some d) :
    (i = id ∧ c = some d) ∨ w.calls i = some d := by
  by_cases hi : i = id
  · subst hi
    simp only [setCall, Function.update_self] at h
    exact .inl ⟨rfl, h⟩
  · simp only [setCall, Function.update_of_ne hi] at h
    exact .inr h

theorem endCall_some {a : SafeAction} {result : ExecutionResult} {i : ℕ} {d : Call}
    (h : (w.endCall id a result).calls i = some d) : w.calls i = some d := by
  obtain ⟨-, hd⟩ | h := setCall_some h
  · cases hd
  · exact h

/-- A step that puts nothing, brings no call to the door and forgets no key of one there. -/
theorem Once.frame (h : w.Once) (hputs : ∀ key, w'.puts key = w.puts key)
    (hcalls : ∀ i c, w'.calls i = some c → c.AtDoor → w.calls i = some c)
    (hmemory : ∀ i c, w'.calls i = some c → c.key ∈ w.memory c.executor →
      c.key ∈ w'.memory c.executor) : w'.Once where
  once key := (hputs key).symm ▸ h.once key
  fresh i c hc hdoor := by
    rw [hputs]
    exact (h.fresh i c (hcalls i c hc hdoor) hdoor).imp_right fun hm =>
      ⟨hm.1, hmemory i c hc hm.2⟩
  alone i i' c c' hc hc' hdoor hdoor' :=
    h.alone i i' c c' (hcalls i c hc hdoor) (hcalls i' c' hc' hdoor') hdoor hdoor'

/-- A call that is put at a stage away from the door. -/
theorem Once.setCall (h : w.Once) {c : Option Call} (hc : ∀ d, c = some d → ¬ d.AtDoor) :
    (w.setCall id c).Once := by
  refine h.frame (fun _ => rfl) (fun i d hd hdoor => ?_) fun _ _ _ hm => hm
  obtain ⟨-, hd⟩ | hd := setCall_some hd
  · exact absurd hdoor (hc d hd)
  · exact hd

theorem Once.endCall (h : w.Once) (a : SafeAction) (result : ExecutionResult) :
    (w.endCall id a result).Once :=
  h.frame (fun _ => rfl) (fun _ _ hd _ => endCall_some hd) fun _ _ _ hm => hm

/-- A call comes to the door, or goes from its gate to its write. -/
theorem Once.toDoor (h : w.Once) {c : Call}
    (hfresh : w.puts c.key = 0 ∨ (c.stage = .gate ∧ c.key ∈ w.memory c.executor))
    (halone : ∀ i d, w.calls i = some d → d.AtDoor → d.key = c.key → i = id) :
    (w.setCall id (some c)).Once where
  once := h.once
  fresh i d hd hdoor := by
    obtain ⟨-, hnew⟩ | hd := setCall_some hd
    · rw [← Option.some.inj hnew]
      exact hfresh
    · exact h.fresh i d hd hdoor
  alone i i' d d' hd hd' hdoor hdoor' hkey := by
    obtain ⟨hi, hnew⟩ | hd := setCall_some hd
    · obtain ⟨hi', -⟩ | hd' := setCall_some hd'
      · exact hi.trans hi'.symm
      · rw [← Option.some.inj hnew] at hkey
        exact hi.trans (halone i' d' hd' hdoor' hkey.symm).symm
    · obtain ⟨hi', hnew⟩ | hd' := setCall_some hd'
      · rw [← Option.some.inj hnew] at hkey
        exact (halone i d hd hdoor hkey).trans hi'.symm
      · exact h.alone i i' d d' hd hd' hdoor hdoor' hkey

variable (mode : ℕ → TradingMode)

theorem Once.start (h : w.Once) (executor : ℕ) (a : SafeAction) (met : Bool)
    (description : String) : (w.start mode id executor a met description).Once := by
  rw [World.start]
  split
  · exact h
  split
  · exact h.frame (fun _ => rfl) (fun _ _ hd _ => hd) fun _ _ _ hm => hm
  · refine h.setCall fun d hd hdoor => ?_
    obtain rfl := Option.some.inj hd
    obtain ⟨hrow, hstage⟩ := hdoor
    simp only [hrow, if_true, reduceCtorEq, or_self] at hstage

theorem Once.lookup (h : w.Once) {sees : Bool} (hsound : w.LookupSound (.lookup id sees)) :
    (w.lookup id sees).Once := by
  rw [World.lookup]
  split
  · next c hc =>
    split
    · next hstage =>
      obtain ⟨hfound, halone⟩ := hsound c hc hstage
      split
      · exact h.endCall _ _
      · next hmiss =>
        refine h.toDoor ?_ fun i d hd hdoor hkey => absurd hkey (halone i d hd hdoor)
        by_cases hputs : w.puts c.key = 0
        · exact .inl hputs
        · exact .inr ⟨rfl, (hfound hputs).resolve_left hmiss⟩
    · exact h
  · exact h

theorem Once.gate (h : w.Once) : (w.gate id).Once := by
  rw [World.gate]
  split
  · next c hc =>
    split
    · next hstage =>
      split
      · exact h.endCall _ _
      next hmemory =>
      split
      · exact h.endCall _ _
      split
      · next hrow =>
        have hdoor : c.AtDoor := ⟨hrow, .inl hstage⟩
        refine h.toDoor ?_ fun i d hd hd' hkey => h.alone i id d c hd hc hd' hdoor hkey
        exact .inl ((h.fresh id c hc hdoor).resolve_right fun hm => hmemory hm.2)
      · refine h.setCall fun d hd hdoor => ?_
        obtain rfl := Option.some.inj hd
        obtain ⟨-, hd | hd⟩ := hdoor <;> cases hd
    · exact h
  · exact h

/-- The put itself: the count of its key goes from zero to one, and no other call with this key
is at the door. -/
theorem Once.putRow (h : w.Once) {c d : Call} {row : RiskRow} (hc : w.calls id = some c)
    (hdoor : c.AtDoor) (hput : c.stage = .put) (hd : ¬ d.AtDoor) :
    (({ w with effects := .put row c.key c.action.actionId :: w.effects } : World).setCall id
      (some d)).Once := by
  have hzero : w.puts c.key = 0 := by
    refine (h.fresh id c hc hdoor).resolve_right fun hm => ?_
    rw [hput] at hm
    cases hm.1
  set w' := ({ w with effects := .put row c.key c.action.actionId :: w.effects } : World).setCall
    id (some d) with hw'
  have hself : w'.puts c.key = 1 := by
    simp [hw', puts, Effect.isPutUnder, ← hzero]
  have hother : ∀ key, key ≠ c.key → w'.puts key = w.puts key := by
    intro key hkey
    simp [hw', puts, Effect.isPutUnder, Ne.symm hkey]
  have hold : ∀ i e, w'.calls i = some e → e.AtDoor → i ≠ id ∧ w.calls i = some e := by
    intro i e he hedoor
    simp only [hw', World.setCall, Function.update_apply] at he
    split at he
    · exact absurd (Option.some.inj he ▸ hedoor) hd
    · next hi => exact ⟨hi, he⟩
  refine ⟨fun key => ?_, fun i e he hedoor => ?_, fun i i' e e' he he' hedoor hedoor' => ?_⟩
  · by_cases hkey : key = c.key
    · rw [hkey, hself]
    · rw [hother key hkey]
      exact h.once key
  · obtain ⟨hi, he⟩ := hold i e he hedoor
    rw [hother e.key fun hkey => hi (h.alone i id e c he hc hedoor hdoor hkey)]
    exact h.fresh i e he hedoor
  · exact h.alone i i' e e' (hold i e he hedoor).2 (hold i' e' he' hedoor').2 hedoor hedoor'

theorem Once.put (h : w.Once) {outcome : WriteOutcome} : (w.put id outcome).Once := by
  rw [World.put]
  split
  · next c hc =>
    split
    · next row hstage hrow =>
      have hdoor : c.AtDoor := ⟨by rw [hrow]; rfl, .inr hstage⟩
      cases outcome with
      | done => exact h.putRow hc hdoor hstage (by simp [Call.AtDoor])
      | raised applied errorType =>
        cases applied with
        | true => exact h.putRow hc hdoor hstage (by simp [Call.AtDoor])
        | false => exact h.setCall (by simp [Call.AtDoor])
    · exact h
  · exact h

theorem Once.mark (h : w.Once) {outcome : WriteOutcome} : (w.mark id outcome).Once := by
  rw [World.mark]
  split
  · next c hc =>
    split
    · refine Once.setCall ?_ (by simp [Call.AtDoor])
      split
      · exact h.frame (fun _ => rfl) (fun _ _ hd _ => hd) fun _ _ _ hm => hm
      · exact h
    · exact h
  · exact h

theorem Once.finish (h : w.Once) : (w.finish id).Once := by
  rw [World.finish]
  split
  · next c hc =>
    split
    · next result hstage =>
      refine Once.endCall ?_ _ _
      refine h.frame (fun _ => rfl) (fun _ _ hd _ => hd) fun i d hd hm => ?_
      dsimp only
      split
      · simp only [Function.update_apply]
        split
        · next he => exact List.mem_cons_of_mem _ (he ▸ hm)
        · exact hm
      · exact hm
    · exact h
  · exact h

theorem Once.restart (h : w.Once) (executor : ℕ) : (w.restart executor).Once := by
  have hcalls : ∀ i c, (w.restart executor).calls i = some c →
      w.calls i = some c ∧ c.executor ≠ executor := by
    intro i c hc
    simpa [World.restart, Option.filter_eq_some_iff] using hc
  refine h.frame (fun _ => rfl) (fun i c hc _ => (hcalls i c hc).1) fun i c hc hm => ?_
  simpa only [World.restart, Function.update_of_ne (hcalls i c hc).2] using hm

theorem Once.step (h : w.Once) {e : Event} (hsound : w.LookupSound e) :
    (w.step mode e).Once := by
  cases e with
  | start id executor a met description => exact h.start mode executor a met description
  | lookup id sees => exact h.lookup hsound
  | gate id => exact h.gate
  | put id outcome => exact h.put
  | mark id outcome => exact h.mark
  | finish id => exact h.finish
  | restart executor => exact h.restart executor
  | activate row | clear row =>
    exact h.frame (fun _ => rfl) (fun _ _ hd _ => hd) fun _ _ _ hm => hm

/-- Nothing done yet. -/
def init : World := {}

theorem once_init : init.Once :=
  ⟨fun _ => Nat.zero_le _, fun _ _ hc => (nomatch hc), fun _ _ _ _ hc => (nomatch hc)⟩

end World

/-- In a run whose lookups are sound the row is written at most once under each key. -/
theorem safe_action_at_most_once (mode : ℕ → TradingMode) (es : List Event)
    (h : StepsMeet (World.step mode) World.LookupSound World.init es) :
    AlongRun (World.step mode) World.AtMostOnce World.init es := by
  intro pre hpre
  exact (h.invariant (fun w e hw he => hw.step mode he) World.once_init pre hpre).once

def blockFeed (actionId : String) : SafeAction where
  actionId := actionId
  actionType := .blockNewEntries
  idempotencyKey := "block_new_entries-feed-20260531"

def inPaper : ℕ → TradingMode := fun _ => .paper

/-- A call executed to its end, by an executor that is then restarted. -/
def blockedThenRestarted : List Event :=
  [.start 0 0 (blockFeed "a") true "", .lookup 0 true, .gate 0, .put 0 .done, .mark 0 .done,
    .finish 0, .restart 0]

/-- The lookup after the restart fails, and the row is written again. -/
theorem failed_lookup_writes_twice :
    ¬ ∀ (mode : ℕ → TradingMode) (es : List Event),
      AlongRun (World.step mode) World.AtMostOnce World.init es := by
  intro h
  have htwice := (h inPaper (blockedThenRestarted ++ [.start 1 0 (blockFeed "b") true "",
    .lookup 1 false, .gate 1, .put 1 .done])).last "block_new_entries-feed-20260531"
  revert htwice
  decide +kernel

theorem safe_action_at_most_once_block :
    AlongRun (World.step inPaper) World.AtMostOnce World.init
      [.start 0 0 (blockFeed "a") true "", .lookup 0 true, .gate 0, .put 0 .done] := by
  refine safe_action_at_most_once inPaper _ ⟨trivial, fun c hc hstage => ⟨?_, ?_⟩, trivial, trivial,
    trivial⟩
  · exact fun hputs => absurd rfl hputs
  · intro id c' hc' hdoor
    obtain ⟨-, hnew⟩ | hold := World.setCall_some hc'
    · obtain rfl := Option.some.inj hnew
      simp [Call.AtDoor, blockFeed, ActionType.row] at hdoor
    · cases hold

/-- A put of the row under the key, and the row is active still or was cleared after it. -/
def PutStands (row : RiskRow) (key actionId : String) (effects : List Effect) : Prop :=
  ∃ newer older, effects = newer ++ .put row key actionId :: older ∧
    (rowActive row effects = true ∨ .clear row ∈ newer)

theorem putStands_of_mem {row : RiskRow} {key actionId : String} {effects : List Effect}
    (h : .put row key actionId ∈ effects) : PutStands row key actionId effects := by
  induction effects with
  | nil => cases h
  | cons e es ih =>
    obtain rfl | h := List.mem_cons.mp h
    · exact ⟨[], es, rfl, .inl (by simp [rowActive])⟩
    obtain ⟨newer, older, rfl, hstands⟩ := ih h
    refine ⟨e :: newer, older, rfl, ?_⟩
    obtain hactive | hclear := hstands
    · cases e with
      | clear r =>
        by_cases hr : r = row
        · exact .inr (hr ▸ List.mem_cons_self)
        · exact .inl (by simpa [rowActive, hr] using hactive)
      | put r k i => exact .inl (by simp [rowActive, hactive])
      | activate r => exact .inl (by simp [rowActive, hactive])
    · exact .inr (List.mem_cons_of_mem e hclear)

/-- What was executed has put its row itself; what was skipped, a call with the same key. -/
def Returned.Secured (r : Returned) : Prop :=
  ∀ row, r.action.actionType.row = some row →
    (r.result.executed → PutStands row r.action.idempotencyKey r.action.actionId r.effects) ∧
    (r.result.idempotencySkipped →
      ∃ actionId, PutStands row r.action.idempotencyKey actionId r.effects)

/-- The row is active, respectively blocked, when the action is said to be executed or skipped. -/
def Returned.InEffect (r : Returned) : Prop :=
  ∀ row, r.action.actionType.row = some row →
    r.result.executed ∨ r.result.idempotencySkipped → rowActive row r.effects = true

section Named
variable (typeOf : String → ActionType)

/-- Every key belongs to one action type. -/
def Event.Named : Event → Prop
  | .start _ _ a _ _ => a.actionType = typeOf a.idempotencyKey
  | _ => True

/-- Somebody has put the row of the key's action type. -/
def Wrote (effects : List Effect) (key : String) : Prop :=
  ∀ row, (typeOf key).row = some row → ∃ actionId, .put row key actionId ∈ effects

/-- A call that has put its row, or says so, did. -/
structure Call.Honest (effects : List Effect) (c : Call) : Prop where
  named : c.action.actionType = typeOf c.key
  performed : (c.stage = .mark ∨ ∃ r, c.stage = .finish r ∧ r.executed = true) →
    ∀ row, c.action.actionType.row = some row → .put row c.key c.action.actionId ∈ effects
  unskipped : ∀ r, c.stage = .finish r → r.idempotencySkipped = false

/-- Keys in the store and in the memories stand for puts. -/
structure World.Honest (w : World) : Prop where
  keys : ∀ key ∈ w.keys, Wrote typeOf w.effects key
  memory : ∀ executor, ∀ key ∈ w.memory executor, Wrote typeOf w.effects key
  calls : ∀ id c, w.calls id = some c → c.Honest typeOf w.effects
  returned : ∀ r ∈ w.returned, r.Secured

variable {typeOf} {w : World} {id : ℕ} {effects : List Effect}

theorem Wrote.cons {key : String} (h : Wrote typeOf effects key) (e : Effect) :
    Wrote typeOf (e :: effects) key := by
  intro row hrow
  obtain ⟨actionId, hmem⟩ := h row hrow
  exact ⟨actionId, List.mem_cons_of_mem e hmem⟩

theorem Call.Honest.cons {c : Call} (h : c.Honest typeOf effects) (e : Effect) :
    c.Honest typeOf (e :: effects) :=
  ⟨h.named, fun hs row hrow => List.mem_cons_of_mem e (h.performed hs row hrow), h.unskipped⟩

/-- At any other stage nothing is said about the row. -/
theorem Call.Honest.of_stage {c : Call} (h : c.action.actionType = typeOf c.key)
    (hmark : c.stage ≠ .mark) (hfinish : ∀ r, c.stage ≠ .finish r) : c.Honest typeOf effects :=
  ⟨h, fun hs => hs.elim (fun h => absurd h hmark) fun ⟨r, hr, _⟩ => absurd hr (hfinish r),
    fun r hr => absurd hr (hfinish r)⟩

theorem Call.Honest.wrote {c : Call} (h : c.Honest typeOf effects)
    (hs : c.stage = .mark ∨ ∃ r, c.stage = .finish r ∧ r.executed = true) :
    Wrote typeOf effects c.key := by
  intro row hrow
  exact ⟨_, h.performed hs row (h.named ▸ hrow)⟩

/-- A skip is secured by a key that stands for a put. -/
theorem secured_skip {a : SafeAction} (hnamed : a.actionType = typeOf a.idempotencyKey)
    (hwrote : Wrote typeOf effects a.idempotencyKey) {result : ExecutionResult}
    (hexecuted : result.executed = false) : Returned.Secured ⟨a, result, effects⟩ := by
  intro row hrow
  refine ⟨fun h => by simp [hexecuted] at h, fun _ => ?_⟩
  obtain ⟨actionId, hmem⟩ := hwrote row (hnamed ▸ hrow)
  exact ⟨actionId, putStands_of_mem hmem⟩

/-- A result that says neither is secured. -/
theorem secured_neither {a : SafeAction} {result : ExecutionResult}
    (hexecuted : result.executed → a.actionType.row = none)
    (hskipped : result.idempotencySkipped = false) : Returned.Secured ⟨a, result, effects⟩ := by
  intro row hrow
  refine ⟨fun h => ?_, fun h => by simp [hskipped] at h⟩
  rw [show a.actionType.row = none from hexecuted h] at hrow
  cases hrow

theorem gated_result {a : SafeAction} {mode : TradingMode} {result : ExecutionResult}
    (h : a.gated mode = some result) :
    (result.executed → a.actionType.row = none) ∧ result.idempotencySkipped = false := by
  rw [SafeAction.gated] at h
  split at h
  · obtain rfl := Option.some.inj h
    exact ⟨nofun, rfl⟩
  split at h
  · split at h
    · next htype =>
      obtain rfl := Option.some.inj h
      exact ⟨fun _ => htype ▸ rfl, rfl⟩
    · obtain rfl := Option.some.inj h
      exact ⟨nofun, rfl⟩
  · cases h

namespace World

theorem Honest.setCall (h : w.Honest typeOf) {c : Option Call}
    (hc : ∀ d, c = some d → d.Honest typeOf w.effects) : (w.setCall id c).Honest typeOf where
  keys := h.keys
  memory := h.memory
  calls i d hd := by
    obtain ⟨-, hnew⟩ | hd := setCall_some hd
    · exact hc d hnew
    · exact h.calls i d hd
  returned := h.returned

theorem Honest.report (h : w.Honest typeOf) {a : SafeAction} {result : ExecutionResult}
    (hr : Returned.Secured ⟨a, result, w.effects⟩) : (w.report a result).Honest typeOf where
  keys := h.keys
  memory := h.memory
  calls := h.calls
  returned := List.forall_mem_cons.mpr ⟨hr, h.returned⟩

theorem Honest.endCall (h : w.Honest typeOf) {a : SafeAction} {result : ExecutionResult}
    (hr : Returned.Secured ⟨a, result, w.effects⟩) : (w.endCall id a result).Honest typeOf :=
  (h.setCall (c := none) fun _ hd => (nomatch hd)).report hr

theorem Honest.addEffect (h : w.Honest typeOf) (e : Effect) :
    ({ w with effects := e :: w.effects } : World).Honest typeOf where
  keys key hkey := (h.keys key hkey).cons e
  memory x key hkey := (h.memory x key hkey).cons e
  calls id c hc := (h.calls id c hc).cons e
  returned := h.returned

theorem Honest.start (mode : ℕ → TradingMode) (h : w.Honest typeOf) (executor : ℕ)
    {a : SafeAction} (ha : a.actionType = typeOf a.idempotencyKey) (met : Bool)
    (description : String) : (w.start mode id executor a met description).Honest typeOf := by
  rw [World.start]
  split
  · exact h
  split
  · next result hgated =>
    obtain ⟨hexecuted, hskipped⟩ := gated_result hgated
    exact h.report (secured_neither hexecuted hskipped)
  · refine h.setCall fun d hd => ?_
    obtain rfl := Option.some.inj hd
    refine .of_stage ha ?_ fun r => ?_ <;> dsimp only <;> split <;> nofun

theorem Honest.lookup (h : w.Honest typeOf) {sees : Bool} : (w.lookup id sees).Honest typeOf := by
  rw [World.lookup]
  split
  · next c hc =>
    have hnamed := (h.calls id c hc).named
    split
    · split
      · next hfound => exact h.endCall (secured_skip hnamed (h.keys _ hfound.2) rfl)
      · refine h.setCall fun d hd => ?_
        obtain rfl := Option.some.inj hd
        exact .of_stage hnamed nofun nofun
    · exact h
  · exact h

theorem dispatch_unskipped (type : ActionType) : type.dispatch.idempotencySkipped = false := by
  cases type <;> rfl

theorem Honest.gate (h : w.Honest typeOf) : (w.gate id).Honest typeOf := by
  rw [World.gate]
  split
  · next c hc =>
    have hnamed := (h.calls id c hc).named
    split
    · split
      · next hmemory => exact h.endCall (secured_skip hnamed (h.memory _ _ hmemory) rfl)
      split
      · exact h.endCall (secured_neither nofun rfl)
      split
      · refine h.setCall fun d hd => ?_
        obtain rfl := Option.some.inj hd
        exact .of_stage hnamed nofun nofun
      · next hrow =>
        refine h.setCall fun d hd => ?_
        obtain rfl := Option.some.inj hd
        refine ⟨hnamed, fun _ row hrow' => absurd (hrow' ▸ rfl) hrow, fun r hr => ?_⟩
        obtain rfl := Stage.finish.inj hr
        exact dispatch_unskipped _
    · exact h
  · exact h

theorem Honest.put (h : w.Honest typeOf) {outcome : WriteOutcome} :
    (w.put id outcome).Honest typeOf := by
  rw [World.put]
  split
  · next c hc =>
    have hnamed := (h.calls id c hc).named
    split
    · next row hstage hrow =>
      cases outcome with
      | done =>
        refine (h.addEffect _).setCall fun d hd => ?_
        obtain rfl := Option.some.inj hd
        refine ⟨hnamed, fun _ r hr => ?_, nofun⟩
        obtain rfl := Option.some.inj (hrow.symm.trans hr)
        exact List.mem_cons_self
      | raised applied errorType =>
        refine World.Honest.setCall ?_ fun d hd => ?_
        · cases applied with
          | true => exact h.addEffect _
          | false => exact h
        · obtain rfl := Option.some.inj hd
          refine ⟨hnamed, fun hs => ?_, fun r hr => ?_⟩
          · obtain hs | ⟨r, hr, hexecuted⟩ := hs
            · cases hs
            · obtain rfl := Stage.finish.inj hr
              cases hexecuted
          · obtain rfl := Stage.finish.inj hr
            rfl
    · exact h
  · exact h

theorem Honest.mark (h : w.Honest typeOf) {outcome : WriteOutcome} :
    (w.mark id outcome).Honest typeOf := by
  rw [World.mark]
  split
  · next c hc =>
    have hhonest := h.calls id c hc
    split
    · next hstage =>
      refine World.Honest.setCall ?_ fun d hd => ?_
      · split
        · exact {
            keys := List.forall_mem_cons.mpr ⟨hhonest.wrote (.inl hstage), h.keys⟩
            memory := h.memory
            calls := h.calls
            returned := h.returned }
        · exact h
      · obtain rfl := Option.some.inj hd
        refine ⟨hhonest.named, fun _ row hrow => ?_, fun r hr => ?_⟩
        · split <;> exact hhonest.performed (.inl hstage) row hrow
        · obtain rfl := Stage.finish.inj hr
          rfl
    · exact h
  · exact h

theorem Honest.finish (h : w.Honest typeOf) : (w.finish id).Honest typeOf := by
  rw [World.finish]
  split
  · next c hc =>
    have hhonest := h.calls id c hc
    split
    · next result hstage =>
      have hexecuted : result.executed = true → Wrote typeOf w.effects c.key :=
        fun he => hhonest.wrote (.inr ⟨result, hstage, he⟩)
      refine World.Honest.endCall ?_ ?_
      · refine ⟨h.keys, fun x key hkey => ?_, h.calls, h.returned⟩
        dsimp only at hkey
        split at hkey
        · next hremember =>
          rw [Function.update_apply] at hkey
          split at hkey
          · next hx =>
            obtain rfl | hold := List.mem_cons.mp hkey
            · exact hexecuted hremember.1
            · exact h.memory _ key hold
          · exact h.memory x key hkey
        · exact h.memory x key hkey
      · intro row hrow
        refine ⟨fun he => ?_, fun hskipped => ?_⟩
        · exact putStands_of_mem (hhonest.performed (.inr ⟨result, hstage, he⟩) row hrow)
        · rw [show result.idempotencySkipped = false from hhonest.unskipped result hstage]
            at hskipped
          cases hskipped
    · exact h
  · exact h

theorem Honest.restart (h : w.Honest typeOf) (executor : ℕ) :
    (w.restart executor).Honest typeOf where
  keys := h.keys
  memory x key hkey := by
    simp only [World.restart, Function.update_apply] at hkey
    split at hkey
    · cases hkey
    · exact h.memory x key hkey
  calls i c hc := by
    simp only [World.restart, Option.filter_eq_some_iff] at hc
    exact h.calls i c hc.1
  returned := h.returned

theorem Honest.step (mode : ℕ → TradingMode) (h : w.Honest typeOf) {e : Event}
    (hnamed : e.Named typeOf) : (w.step mode e).Honest typeOf := by
  cases e with
  | start id executor a met description => exact h.start mode executor hnamed met description
  | lookup id sees => exact h.lookup
  | gate id => exact h.gate
  | put id outcome => exact h.put
  | mark id outcome => exact h.mark
  | finish id => exact h.finish
  | restart executor => exact h.restart executor
  | activate row | clear row => exact h.addEffect _

theorem honest_init (typeOf : String → ActionType) : init.Honest typeOf :=
  ⟨fun _ h => absurd h List.not_mem_nil, fun _ _ h => absurd h List.not_mem_nil,
    fun _ _ hc => (nomatch hc), fun _ h => absurd h List.not_mem_nil⟩

end World
end Named

/-- An action said to be executed has put its row, and one said to be skipped has had it put
under its key; the row is active still unless it was cleared since. -/
theorem answered_action_was_put (mode : ℕ → TradingMode) (typeOf : String → ActionType)
    (es : List Event) (h : ∀ e ∈ es, e.Named typeOf) :
    AlongRun (World.step mode) (fun w => ∀ r ∈ w.returned, r.Secured) World.init es := by
  have hmeet : StepsMeet (World.step mode) (fun _ e => e.Named typeOf) World.init es :=
    .of_forall h
  intro pre hpre
  exact (hmeet.invariant (fun w e hw he => hw.step mode he) (World.honest_init typeOf) pre
    hpre).returned

theorem answered_action_was_put_block :
    AlongRun (World.step inPaper) (fun w => ∀ r ∈ w.returned, r.Secured) World.init
      (blockedThenRestarted ++ [.clear .entryBlock, .start 1 0 (blockFeed "b") true "",
        .lookup 1 true]) :=
  answered_action_was_put inPaper (fun _ => .blockNewEntries) _ (by
    simp [blockedThenRestarted, Event.Named, blockFeed])

/-- The operator clears the block, and the next call with the key is skipped. -/
theorem skipped_while_cleared :
    ¬ ∀ (mode : ℕ → TradingMode) (es : List Event),
      AlongRun (World.step mode) (fun w => ∀ r ∈ w.returned, r.InEffect) World.init es := by
  intro h
  have hlast := (h inPaper (blockedThenRestarted ++ [.clear .entryBlock,
    .start 1 0 (blockFeed "b") true "", .lookup 1 true])).last
  have hactive := hlast _ List.mem_cons_self .entryBlock rfl (.inr rfl)
  revert hactive
  decide +kernel

end QuantEmbrace.SafeActions
