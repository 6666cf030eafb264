import QuantEmbrace.ApprovalReservation
import QuantEmbrace.KillSwitchLatch

/-! The approvals of one risk engine under its kill switch. `validate_signal` looks at the
cache, which each completed poll sets to the switch, and looks once; what comes after the check,
the replay of a pending reservation included, looks at nothing. -/
namespace QuantEmbrace
open GuardedRun Journal
variable {σ ι κ : Type*}

/-- `approvals` are those of the signals, one by one. -/
structure HaltWorld (σ ι κ : Type*) where
  switch : SwitchWorld κ
  cached : Bool := false
  approvals : σ → ApprovalWorld ι

/-- `poll` is a load of the cache's own loop, completed; the other loads are the startup's. -/
inductive HaltEvent (σ ι κ : Type*) where
  | switch (e : SwitchEvent κ)
  | poll (i : κ)
  | approval (s : σ) (e : ApprovalEvent ι)
  deriving DecidableEq, Repr

namespace HaltWorld

def start (row : Option Bool) (legacy : σ → Option String) : HaltWorld σ ι κ where
  switch := .start row
  approvals := fun s => .start (legacy s)

variable [DecidableEq σ] [DecidableEq ι] [DecidableEq κ]

def approve (w : HaltWorld σ ι κ) (s : σ) (e : ApprovalEvent ι) : HaltWorld σ ι κ :=
  { w with approvals := Function.update w.approvals s ((w.approvals s).next e) }

/-- `_poll_loop`, once `load_state` has returned. -/
def poll (w : HaltWorld σ ι κ) (i : κ) : HaltWorld σ ι κ :=
  match w.switch.phase i with
  | .loaded _ =>
    let switch := w.switch.next (.resume i)
    { w with switch := switch, cached := switch.active }
  | _ => w

def next (w : HaltWorld σ ι κ) : HaltEvent σ ι κ → HaltWorld σ ι κ
  | .switch e => { w with switch := w.switch.next e }
  | .poll i => w.poll i
  | .approval s (.check d active) =>
    -- the check reads the cache
    if active = w.cached then w.approve s (.check d active) else w
  | .approval s e => w.approve s e

/-- The state after the events, from the start of the engine. -/
def run (row : Option Bool) (legacy : σ → Option String) (es : List (HaltEvent σ ι κ)) :
    HaltWorld σ ι κ :=
  es.foldl next (start row legacy)

/-- What has been published for the signal. -/
def publications (w : HaltWorld σ ι κ) (s : σ) : List (ApprovalEntry ι) :=
  (w.approvals s).journal.filter fun
    | .published _ _ => true
    | _ => false

/-- A step taken after an activation has returned publishes nothing. -/
def Quiet (w : HaltWorld σ ι κ) (e : HaltEvent σ ι κ) : Prop :=
  w.switch.latched = true → ∀ s, (w.next e).publications s = w.publications s

end HaltWorld

namespace ApprovalWorld
variable [DecidableEq ι] {w v : ApprovalWorld ι} {d : ι} {C : ι → Prop}

omit [DecidableEq ι] in
/-- The check comes before the reservation. -/
structure Checked (w : ApprovalWorld ι) : Prop where
  phase : ∀ d, (w.phase d).PastCheck → .passed d ∈ w.journal
  reserved : ∀ d a, .reserved d a ∈ w.journal → .passed d ∈ w.journal

omit [DecidableEq ι] in
theorem start_checked (legacy : Option String) : Checked (start legacy : ApprovalWorld ι) where
  phase := fun _ h => h.elim
  reserved := by simp [start]

theorem Checked.setPhase (hw : Checked w) {p : ApprovalPhase}
    (hp : p.PastCheck → .passed d ∈ w.journal) : Checked (w.setPhase d p) where
  phase := forall_setPhase (Q := fun e q => q.PastCheck → .passed e ∈ w.journal) hp hw.phase
  reserved := hw.reserved

omit [DecidableEq ι] in
theorem Checked.record (hw : Checked w) {e : ApprovalEntry ι}
    (he : ∀ d a, .reserved d a = e → .passed d ∈ w.journal) : Checked (w.record e) where
  phase := fun d h => List.mem_cons_of_mem e (hw.phase d h)
  reserved := by
    intro d a h
    refine List.mem_cons_of_mem e ?_
    obtain heq | h := List.mem_cons.mp h
    · exact he d a heq
    · exact hw.reserved d a h

theorem Checked.move {K : ι → Prop} (hw : Checked w) (h : Move K C w v) : Checked v := by
  cases h with
  | rest => exact hw
  | start d l _ => exact (hw.record (e := .started d) (by simp)).setPhase fun h => h.elim
  | pass d l _ =>
    exact (hw.record (e := .passed d) (by simp)).setPhase fun _ => List.mem_cons_self
  | advance d p _ _ hcheck _ => exact hw.setPhase fun h => hw.phase d (hcheck h)
  | found d r _ _ _ => exact hw.setPhase fun h => h.elim
  | reserve d l a p _ h hp =>
    have hpass : .passed d ∈ w.journal := hw.phase d (by rw [h]; trivial)
    have hw' : Checked (w.putRow ⟨a.riskDecisionId, .PENDING⟩) := { hw with }
    refine (hw'.record (e := .reserved d a) ?_).setPhase ?_
    · intro e b heq
      cases heq
      exact hpass
    · exact fun _ => List.mem_cons_of_mem _ hpass
  | produce d i _ =>
    have hw' : Checked { w with sent := (d, i) :: w.sent } := { hw with }
    exact hw'.setPhase fun h => h.elim
  | append d i _ =>
    have hw' : Checked { w with sent := w.sent.erase (d, i) } := { hw with }
    exact hw'.record (by simp)
  | mark d r _ =>
    have hw' : Checked (w.putRow { r with publishStatus := .PUBLISHED }) := { hw with }
    exact (hw'.record (e := .marked) (by simp)).setPhase fun h => h.elim

/-- Where no delivery may pass the check, none does. -/
theorem Move.passed {K : ι → Prop} (h : Move K (fun _ => False) w v) (hd : .passed d ∈ v.journal) :
    .passed d ∈ w.journal := by
  cases h with
  | pass d l hc => exact hc.elim
  | _ => simpa [ApprovalWorld.setPhase, ApprovalWorld.record, ApprovalWorld.putRow] using hd

end ApprovalWorld

namespace HaltWorld
open ApprovalWorld
variable [DecidableEq σ] [DecidableEq ι] [DecidableEq κ] {w : HaltWorld σ ι κ}

omit [DecidableEq κ] in
theorem approve_move {C : ι → Prop} (s t : σ) {e : ApprovalEvent ι}
    (hC : ∀ d, e = .check d false → C d) :
    Move (fun _ => True) C (w.approvals t) ((w.approve s e).approvals t) := by
  by_cases ht : t = s
  · subst ht
    simp only [approve, Function.update_self]
    exact next_move _ (fun _ _ _ _ => trivial) hC
  · simp only [approve, Function.update_of_ne ht]
    exact .rest

omit [DecidableEq σ] [DecidableEq ι] in
@[simp] theorem poll_approvals (i : κ) : (w.poll i).approvals = w.approvals := by
  unfold poll
  split <;> rfl

/-- A step is at most one step for the approvals of a signal, and passes the check only when the
cache reads inactive. -/
theorem next_move (w : HaltWorld σ ι κ) (e : HaltEvent σ ι κ) (t : σ) :
    Move (fun _ => True) (fun _ => w.cached = false) (w.approvals t) ((w.next e).approvals t) := by
  cases e with
  | switch e => exact .rest
  | poll i =>
    simp only [next, poll_approvals]
    exact .rest
  | approval s e =>
    cases e with
    | check d active =>
      simp only [next]
      split
      · next hcache =>
        refine approve_move s t ?_
        rintro d' heq
        cases heq
        exact hcache.symm
      · exact .rest
    | _ => exact approve_move s t (by simp)

/-- Only a completed poll changes the cache, and it takes the switch over. -/
theorem next_cached (w : HaltWorld σ ι κ) (e : HaltEvent σ ι κ) :
    (w.next e).cached = w.cached ∨ (w.next e).cached = (w.next e).switch.active := by
  cases e with
  | switch e => exact .inl rfl
  | poll i =>
    simp only [next, poll]
    split
    · exact .inr rfl
    · exact .inl rfl
  | approval s e =>
    cases e with
    | check d active =>
      simp only [next]
      split <;> exact .inl rfl
    | _ => exact .inl rfl

/-- While the switch stays active under a cache that has taken it over, no check is passed. -/
theorem passed_of_active {es : List (HaltEvent σ ι κ)} (hc : w.cached = true)
    (h : AlongRun next (fun v => v.switch.active = true) w es) {s : σ} {d : ι}
    (hd : .passed d ∈ ((es.foldl next w).approvals s).journal) :
    .passed d ∈ (w.approvals s).journal := by
  induction es generalizing w with
  | nil => exact hd
  | cons e es ih =>
    have htail := ((alongRun_cons next _ w e es).mp h).2
    have hc' : (w.next e).cached = true := by
      obtain heq | heq := w.next_cached e
      · rw [heq, hc]
      · rw [heq, htail.head]
    have hmove := w.next_move e s
    simp only [hc, Bool.true_eq_false] at hmove
    exact hmove.passed (ih hc' htail hd)

theorem sound_run (row : Option Bool) (legacy : σ → Option String)
    (es : List (HaltEvent σ ι κ)) (s : σ) :
    Sound ((run row legacy es).approvals s) ∧ Checked ((run row legacy es).approvals s) := by
  have keep (w : HaltWorld σ ι κ) (e : HaltEvent σ ι κ)
      (hw : ∀ s, Sound (w.approvals s) ∧ Checked (w.approvals s)) (t : σ) :
      Sound ((w.next e).approvals t) ∧ Checked ((w.next e).approvals t) :=
    ⟨(hw t).1.move (w.next_move e t), (hw t).2.move (w.next_move e t)⟩
  exact (AlongRun.of_keep keep (fun s => ⟨start_sound (legacy s), start_checked (legacy s)⟩)
    es).last s

/-- From a poll of the cache that completes, and while the switch stays active, no signal passes
its kill-switch check; what is published carries a decision that had passed it before. -/
theorem approvals_predate_poll (row : Option Bool) (legacy : σ → Option String)
    (pre es : List (HaltEvent σ ι κ)) (i : κ)
    (hpoll : ∃ r, (run row legacy pre).switch.phase i = .loaded r)
    (hactive : AlongRun next (fun v => v.switch.active = true)
      (run row legacy (pre ++ [.poll i])) es) (s : σ) :
    let before := ((run row legacy pre).approvals s).journal
    let after := ((run row legacy (pre ++ .poll i :: es)).approvals s).journal
    (∀ d, .passed d ∈ after → .passed d ∈ before) ∧
      ∀ d k, .published d k ∈ after → ∃ o a, .reserved o a ∈ after ∧ a.status = .APPROVED ∧
        a.riskDecisionId = k ∧ .passed o ∈ before := by
  intro before after
  have hstep : run row legacy (pre ++ [.poll i]) = (run row legacy pre).poll i := by
    simp [run, next]
  rw [hstep] at hactive
  have hcached : ((run row legacy pre).poll i).cached = true := by
    obtain ⟨r, hr⟩ := hpoll
    have hhead := hactive.head
    simp only [poll, hr] at hhead ⊢
    exact hhead
  have hpassed (d : ι) (hd : .passed d ∈ after) : .passed d ∈ before := by
    have hafter : run row legacy (pre ++ .poll i :: es) =
        es.foldl next ((run row legacy pre).poll i) := by
      simp [run, next]
    simp only [after, hafter] at hd
    simpa [before] using passed_of_active hcached hactive hd
  refine ⟨hpassed, fun d k hk => ?_⟩
  obtain ⟨hsound, hchecked⟩ := sound_run row legacy (pre ++ .poll i :: es) s
  obtain ⟨older, hs, o, a, ho, happ, hid⟩ := hsound.entries.of_mem hk
  have hres : .reserved o a ∈ after := hs.subset ho
  exact ⟨o, a, hres, happ, hid, hpassed o (hchecked.reserved o a hres)⟩

/-- An activation, persisted; by the calls 0. -/
def activated : List (HaltEvent Unit (Fin 2) (Fin 2)) :=
  [.switch (.enter 0 .activate), .switch (.beginPersist 0), .switch (.put 0 true),
    .switch (.finish 0)]

/-- A load of the cache's loop that reads the activation, up to its completion. -/
def loaded : List (HaltEvent Unit (Fin 2) (Fin 2)) :=
  [.switch (.loadState 1), .switch (.answer 1 (.answered (some true)))]

/-- The delivery passes its check. -/
def checked (d : Fin 2) : List (HaltEvent Unit (Fin 2) (Fin 2)) :=
  [.approval () (.start d .enriched), .approval () (.read d none), .approval () (.check d false)]

def reserved (d : Fin 2) : List (HaltEvent Unit (Fin 2) (Fin 2)) :=
  [.approval () (.decide d ⟨"r", .APPROVED⟩), .approval () (.reserve d .written)]

/-- A signal checked before the poll is published after it; a second one is not let through. -/
theorem approvals_predate_poll_in_flight :
    let es : List (HaltEvent Unit (Fin 2) (Fin 2)) := reserved 0 ++ [.approval () (.produce 0),
      .approval () (.append 0 "r"), .approval () (.start 1 .fallback),
      .approval () (.read 1 none), .approval () (.check 1 true)]
    let before := ((run none (fun _ => none) (checked 0 ++ activated ++ loaded)).approvals
      ()).journal
    let after := ((run none (fun _ => none) (checked 0 ++ activated ++ loaded ++ .poll 1 ::
      es)).approvals ()).journal
    (∀ d, .passed d ∈ after → .passed d ∈ before) ∧
      ∀ d k, .published d k ∈ after → ∃ o a, .reserved o a ∈ after ∧ a.status = .APPROVED ∧
        a.riskDecisionId = k ∧ .passed o ∈ before :=
  approvals_predate_poll none (fun _ => none) (checked 0 ++ activated ++ loaded) _ 1
    ⟨.answered (some true), by decide⟩ (by decide) ()

/-- After an activation has returned, a validation in progress ends in a publication, so does the
replay of a reservation left pending, and so does a signal that starts before the next poll. -/
theorem published_under_halt :
    (¬ ∀ (es : List (HaltEvent Unit (Fin 2) (Fin 2))) e, Quiet (run none (fun _ => none) es) e) ∧
    ¬ Quiet (run none (fun _ => none) (checked 0 ++ activated ++ loaded ++ [.poll 1] ++
      reserved 0 ++ [.approval () (.produce 0)])) (.approval () (.append 0 "r")) ∧
    ¬ Quiet (run none (fun _ => none) (checked 0 ++ reserved 0 ++ [.approval () (.stop 0)] ++
      activated ++ loaded ++ [.poll 1, .approval () (.start 1 .fallback),
      .approval () (.read 1 (some ⟨"r", .PENDING⟩)), .approval () (.produce 1)]))
      (.approval () (.append 1 "r")) ∧
    ¬ Quiet (run none (fun _ => none) (activated ++ checked 0 ++ reserved 0 ++
      [.approval () (.produce 0)])) (.approval () (.append 0 "r")) := by
  have hloud (w : HaltWorld Unit (Fin 2) (Fin 2)) (e : HaltEvent Unit (Fin 2) (Fin 2))
      (h : w.switch.latched = true ∧ (w.next e).publications () ≠ w.publications ()) :
      ¬ Quiet w e := fun hq => h.2 (hq h.1 ())
  have hinterval : ¬ Quiet (run none (fun _ => none) (activated ++ checked 0 ++ reserved 0 ++
      [.approval () (.produce 0)])) (.approval () (.append 0 "r")) := hloud _ _ (by decide)
  exact ⟨fun h => hinterval (h _ _), hloud _ _ (by decide), hloud _ _ (by decide), hinterval⟩

end HaltWorld
end QuantEmbrace
