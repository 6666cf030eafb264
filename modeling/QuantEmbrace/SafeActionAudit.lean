import QuantEmbrace.SafeActions

/-! One `execute` call of `SafeActionExecutor` against collaborators that may answer anything or
raise: the audit records it leaves, and its answer. -/
namespace QuantEmbrace.SafeActions

/-- How `SafeActionAudit.record` ends: the line is in the file, it went to the process log after
an `OSError`, or an exception of that type came out of it. -/
inductive AuditOutcome where
  | written
  | logged
  | raised (errorType : String)
  deriving DecidableEq, Repr

/-- A `WriteResult` -/
structure RowWrite where
  success : Bool
  table : String
  pk : String
  sk : String
  errorType : Option String := none
  deriving DecidableEq, Repr

/-- `check` answers with the id of the earlier action, if there was one; what `mark` answers is
not looked at. -/
structure DurableStore where
  check : Except String (Option String)
  mark : Except String Unit

/-- What the collaborators of one call do; an exception is its type. The audit is asked by the
number of the attempt, and `remembered` is the prior action under the key in this session. -/
structure Collaborators where
  audit : ℕ → AuditOutcome
  notifier : Option (Except String Bool) := none
  durable : Option DurableStore := none
  writer : Option (Except String RowWrite) := none
  remembered : Option String := none

/-- An action with what `str` makes of its message, and of the subject of its runbook. -/
structure PayloadAction extends SafeAction where
  message : Except String String
  subject : Except String String

inductive ResultPayload where
  | empty
  | approvalRequired (actionType idempotencyKey : String)
  | prior (actionId source : String)
  | alert (message : String) (delivered : Bool)
  | runbook (subject : String)
  | runtimeState
  | row (pk sk table flag : String)
  deriving DecidableEq, Repr

structure Response extends ExecutionResult where
  payload : ResultPayload := .empty
  deriving DecidableEq, Repr

/-- One call of `record`, with the result that is to be recorded. -/
structure AuditAttempt where
  result : Response
  outcome : AuditOutcome
  deriving DecidableEq, Repr

abbrev Trail := List AuditAttempt

/-- What leaves a handler other than its result. -/
inductive HandlerError where
  | stubNotImplemented
  | exception (errorType : String)
  deriving DecidableEq, Repr

def auditWriteFailed : Response := { executed := false, error := some "AuditWriteFailed" }

section Execute
variable (c : Collaborators) (mode : TradingMode) (a : PayloadAction) (trail : Trail)

def recordAttempt (r : Response) : Trail := trail ++ [⟨r, c.audit trail.length⟩]

/-- `_write_audit`, and the result is returned. -/
def writeAudit (r : Response) : Trail × Except String Response :=
  (recordAttempt c trail r,
    match c.audit trail.length with
    | .raised errorType => .error errorType
    | .written | .logged => .ok r)

/-- `_write_audit_fail_closed` -/
def writeAuditFailClosed (r : Response) : Trail × Response :=
  (recordAttempt c trail r,
    match c.audit trail.length with
    | .raised _ => auditWriteFailed
    | .written | .logged => r)

def asHandler (x : Trail × Except String Response) : Trail × Except HandlerError Response :=
  (x.1, x.2.mapError .exception)

/-- `_handle_send_alert`; a notifier that raises has not delivered. -/
def handleSendAlert : Trail × Except HandlerError Response :=
  match a.message with
  | .error errorType => (trail, .error (.exception errorType))
  | .ok message =>
    let delivered := match c.notifier with
      | none => true
      | some (.ok delivered) => delivered
      | some (.error _) => false
    asHandler (writeAudit c trail { executed := true, payload := .alert message delivered })

/-- `_handle_generate_runbook_command` -/
def handleGenerateRunbookCommand : Trail × Except String Response :=
  match a.subject with
  | .error errorType => (trail, .error errorType)
  | .ok subject => writeAudit c trail { executed := true, payload := .runbook subject }

/-- `_handle_read_runtime_state` -/
def handleReadRuntimeState : Trail × Except HandlerError Response :=
  asHandler (writeAudit c trail { executed := true, payload := .runtimeState })

/-- A handler that puts a row. What the fail-closed audit answers is dropped. -/
def handleWrite (flag : String) : Trail × Except HandlerError Response :=
  match c.writer with
  | none => (trail, .error .stubNotImplemented)
  | some (.error errorType) => (trail, .error (.exception errorType))
  | some (.ok write) =>
    if write.success then
      match c.durable.map DurableStore.mark with
      | some (.error errorType) => (trail, .error (.exception errorType))
      | _ =>
        let r : Response :=
          { executed := true, payload := .row write.pk write.sk write.table flag }
        ((writeAuditFailClosed c trail r).1, .ok r)
    else
      let r : Response :=
        { executed := false
          error := some ((write.errorType.filter (· ≠ "")).getD "DynamoWriteFailed") }
      ((writeAuditFailClosed c trail r).1, .ok r)

/-- `_handle_block_new_entries` -/
def handleBlockNewEntries : Trail × Except HandlerError Response := handleWrite c trail "blocked"

/-- `_handle_activate_kill_switch` -/
def handleActivateKillSwitch : Trail × Except HandlerError Response := handleWrite c trail "active"

def handle : Trail × Except HandlerError Response :=
  match a.actionType with
  | .sendAlert => handleSendAlert c a trail
  | .generateRunbookCommand => asHandler (handleGenerateRunbookCommand c a trail)
  | .readRuntimeState => handleReadRuntimeState c trail
  | .blockNewEntries => handleBlockNewEntries c trail
  | .activateKillSwitch => handleActivateKillSwitch c trail
  | _ => (trail, .error .stubNotImplemented)

/-- `_dispatch` -/
def dispatch : Trail × Except String Response :=
  match handle c a trail with
  | (trail, .ok r) => (trail, .ok r)
  | (trail, .error .stubNotImplemented) =>
    writeAudit c trail {
      executed := false
      stubNotImplemented := true
      blockedReason := some "stub_not_implemented" }
  | (trail, .error (.exception errorType)) =>
    writeAudit c trail { executed := false, error := some errorType }

/-- The durable store is asked about write actions only. -/
def durableCheck : Option (Except String (Option String)) :=
  if a.actionType.row.isSome then c.durable.map DurableStore.check else none

def NeedsApproval : Prop :=
  a.requiresHumanApproval = true ∨ requiresHumanApproval a.actionType a.scope = true

instance : Decidable (NeedsApproval a) := instDecidableOr

/-- A runbook is human-gated, but its command is handed out. -/
def afterApprovalAudit (gated : Trail × Except String Response) :
    Trail × Except String Response :=
  match gated.2 with
  | .error _ => gated
  | .ok _ =>
    if a.actionType = .generateRunbookCommand then handleGenerateRunbookCommand c a gated.1
    else gated

def execute (preconditionsMet : Bool) (preconditionDescription : String) :
    Trail × Except String Response :=
  match mode.denial a.actionType a.scope with
  | some reason =>
    writeAudit c [] { executed := false, blocked := true, blockedReason := some reason }
  | none =>
    if NeedsApproval a then
      afterApprovalAudit c a (writeAudit c [] {
        executed := false
        blocked := true
        blockedReason := some "requires_human_approval"
        payload := .approvalRequired a.actionType.value a.idempotencyKey })
    else
      match durableCheck c a with
      | some (.error errorType) => ([], .error errorType)
      | some (.ok (some prior)) =>
        writeAudit c [] {
          executed := false
          idempotencySkipped := true
          blockedReason := some
            ("durable_idempotency_key already executed: " ++ a.idempotencyKey)
          payload := .prior prior "dynamo" }
      | _ =>
        match c.remembered with
        | some prior =>
          writeAudit c [] {
            executed := false
            idempotencySkipped := true
            blockedReason := some ("idempotency_key already executed: " ++ a.idempotencyKey)
            payload := .prior prior "memory" }
        | none =>
          if preconditionsMet = false then
            writeAudit c [] {
              executed := false
              blocked := true
              blockedReason := some "precondition_failed"
              preconditionFailed := some (if preconditionDescription = "" then
                "precondition not met" else preconditionDescription) }
          else dispatch c a []

end Execute

/-- The attempts that have left a record, in the file or in the log. -/
def Trail.records (trail : Trail) : List AuditAttempt :=
  trail.filter fun x => x.outcome = .written ∨ x.outcome = .logged

/-- The record says of `executed` and `blocked` what the result says. -/
def AuditAttempt.Matches (x : AuditAttempt) (r : Response) : Prop :=
  x.result.executed = r.executed ∧ x.result.blocked = r.blocked

/-- The call returns, and with one matching record; a write action for which none is in the file
is reported as `AuditWriteFailed`. -/
def AuditComplete (a : PayloadAction) (call : Trail × Except String Response) : Prop :=
  ∃ r, call.2 = .ok r ∧
    if a.actionType.row.isSome then
      (∃ x, call.1.records = [x] ∧ x.outcome = .written ∧ x.Matches r) ∨
        ((∀ x ∈ call.1, x.outcome ≠ .written) ∧ r.executed = false ∧
          r.error = some "AuditWriteFailed")
    else ∃ x, call.1.records = [x] ∧ x.Matches r

section Condition
variable (c : Collaborators) (mode : TradingMode) (a : PayloadAction) (preconditionsMet : Bool)

/-- The call gets past every gate. -/
def Dispatched : Prop :=
  mode.denial a.actionType a.scope = none ∧ ¬ NeedsApproval a ∧
    (durableCheck c a = none ∨ durableCheck c a = some (.ok none)) ∧ c.remembered = none ∧
    preconditionsMet = true

/-- The handler gets to an audit of its own, which is within the `try` of the dispatch. -/
def AuditsItself : Prop :=
  (a.actionType = .sendAlert ∧ ∃ message, a.message = .ok message) ∨
    a.actionType = .readRuntimeState

/-- The error type of a put that has failed, as it is reported. -/
def Collaborators.reportedError : Option String :=
  match c.writer with
  | some (.ok write) =>
    if write.success then none
    else some ((write.errorType.filter (· ≠ "")).getD "DynamoWriteFailed")
  | _ => none

/-- The exception that ends the handler of a write action before its audit. -/
def Collaborators.thrownError : Option String :=
  match c.writer with
  | some (.error errorType) => some errorType
  | some (.ok write) =>
    match c.durable.map DurableStore.mark with
    | some (.error errorType) => if write.success then some errorType else none
    | _ => none
  | none => none

/-- A failed write goes by the name of a failed audit. -/
def NamedSo : Prop :=
  c.reportedError = some "AuditWriteFailed" ∨
    (c.audit 0 = .logged ∧ c.thrownError = some "AuditWriteFailed")

/-- No runbook is asked for, but where it is denied; the durable store answers if it is asked; the
first audit raises nothing, or it raises in a handler and the second does not; and that of a write
action gets into the file, or the write itself has failed by the name of a failed audit. -/
structure Accountable : Prop where
  runbook : a.actionType = .generateRunbookCommand →
    (mode.denial a.actionType a.scope).isSome = true
  lookup : mode.denial a.actionType a.scope = none → ¬ NeedsApproval a →
    ∀ errorType, durableCheck c a ≠ some (.error errorType)
  plain : a.actionType.row = none → (∀ errorType, c.audit 0 ≠ .raised errorType) ∨
    (Dispatched c mode a preconditionsMet ∧ AuditsItself a ∧
      ∀ errorType, c.audit 1 ≠ .raised errorType)
  write : a.actionType.row.isSome = true → c.audit 0 = .written ∨
    (Dispatched c mode a preconditionsMet ∧ NamedSo c)

end Condition

section Audits
variable {c : Collaborators} {a : PayloadAction} {trail : Trail} {r : Response}

theorem records_append (trail : Trail) (x : AuditAttempt) :
    Trail.records (trail ++ [x]) = trail.records ++ Trail.records [x] :=
  List.filter_append ..

/-- An audit after attempts that have all raised: of an action that writes nothing. -/
theorem complete_writeAudit (hrow : a.actionType.row = none) (hnone : trail.records = []) :
    AuditComplete a (writeAudit c trail r) ↔
      ∀ errorType, c.audit trail.length ≠ .raised errorType := by
  simp only [AuditComplete, writeAudit, recordAttempt, hrow, records_append, hnone]
  cases c.audit trail.length <;> simp [Trail.records, AuditAttempt.Matches]

/-- The one audit of a write action. -/
theorem complete_writeAudit_write (hrow : a.actionType.row.isSome = true) :
    AuditComplete a (writeAudit c [] r) ↔ c.audit 0 = .written ∨
      (c.audit 0 = .logged ∧ r.executed = false ∧ r.error = some "AuditWriteFailed") := by
  simp only [AuditComplete, writeAudit, recordAttempt, hrow, List.nil_append, List.length_nil]
  cases c.audit 0 <;> simp [Trail.records, AuditAttempt.Matches]

/-- The fail-closed audit, whose answer is dropped. -/
theorem complete_writeAuditFailClosed (hrow : a.actionType.row.isSome = true) :
    AuditComplete a ((writeAuditFailClosed c [] r).1, .ok r) ↔ c.audit 0 = .written ∨
      (r.executed = false ∧ r.error = some "AuditWriteFailed") := by
  simp only [AuditComplete, writeAuditFailClosed, recordAttempt, hrow, List.nil_append,
    List.length_nil]
  cases c.audit 0 <;> simp [Trail.records, AuditAttempt.Matches]

/-- After the record of the approval gate a runbook leaves a second one, or it raises. -/
theorem runbook_incomplete (hrow : a.actionType.row = none) {x : AuditAttempt}
    (hx : trail.records = [x]) : ¬ AuditComplete a (handleGenerateRunbookCommand c a trail) := by
  rw [handleGenerateRunbookCommand]
  cases a.subject with
  | error errorType => simp [AuditComplete]
  | ok subject =>
    simp only [AuditComplete, writeAudit, recordAttempt, hrow, records_append, hx]
    cases c.audit trail.length <;> simp [Trail.records]

/-- A handler whose only step is its audit has a second try in the dispatch. -/
theorem complete_dispatch_of_audit (hrow : a.actionType.row = none)
    (h : handle c a [] = asHandler (writeAudit c [] r)) :
    AuditComplete a (dispatch c a []) ↔ (∀ errorType, c.audit 0 ≠ .raised errorType) ∨
      ∀ errorType, c.audit 1 ≠ .raised errorType := by
  have hfirst := @complete_writeAudit c a [] r hrow rfl
  rw [dispatch, h]
  cases hout : c.audit 0 with
  | written => simpa [asHandler, writeAudit, hout, Except.mapError] using hfirst
  | logged => simpa [asHandler, writeAudit, hout, Except.mapError] using hfirst
  | raised errorType =>
    have hsecond := @complete_writeAudit c a [⟨r, .raised errorType⟩]
      { executed := false, error := some errorType } hrow rfl
    simpa [asHandler, writeAudit, recordAttempt, hout, Except.mapError] using hsecond

theorem complete_dispatch (hrow : a.actionType.row = none)
    (hrunbook : a.actionType ≠ .generateRunbookCommand) :
    AuditComplete a (dispatch c a []) ↔ (∀ errorType, c.audit 0 ≠ .raised errorType) ∨
      (AuditsItself a ∧ ∀ errorType, c.audit 1 ≠ .raised errorType) := by
  have hstub : a.actionType ≠ .sendAlert → a.actionType ≠ .readRuntimeState →
      (AuditComplete a (dispatch c a []) ↔ ∀ errorType, c.audit 0 ≠ .raised errorType) := by
    intro hsend hread
    have hhandle : handle c a [] = ([], .error .stubNotImplemented) := by
      rw [handle]
      split <;> simp_all [ActionType.row]
    rw [dispatch, hhandle]
    exact complete_writeAudit hrow rfl
  by_cases hread : a.actionType = .readRuntimeState
  · have hhandle : handle c a [] = handleReadRuntimeState c [] := by rw [handle, hread]
    rw [complete_dispatch_of_audit hrow hhandle, AuditsItself]
    simp [hread]
  · by_cases hsend : a.actionType = .sendAlert
    · have hhandle : handle c a [] = handleSendAlert c a [] := by rw [handle, hsend]
      cases hmessage : a.message with
      | error errorType =>
        rw [dispatch, hhandle, handleSendAlert, hmessage, AuditsItself]
        dsimp only
        rw [complete_writeAudit hrow rfl]
        simp [hsend, hmessage]
      | ok message =>
        rw [handleSendAlert, hmessage] at hhandle
        rw [complete_dispatch_of_audit hrow hhandle, AuditsItself]
        simp [hsend, hmessage]
    · rw [hstub hsend hread, AuditsItself]
      simp [hsend, hread]

theorem complete_dispatch_write (hrow : a.actionType.row.isSome = true) :
    AuditComplete a (dispatch c a []) ↔ c.audit 0 = .written ∨ NamedSo c := by
  have hhandle : ∃ flag, handle c a [] = handleWrite c [] flag := by
    rw [handle]
    split <;> simp_all [ActionType.row, handleBlockNewEntries, handleActivateKillSwitch]
  obtain ⟨flag, hhandle⟩ := hhandle
  rw [dispatch, hhandle, handleWrite, NamedSo, Collaborators.reportedError,
    Collaborators.thrownError]
  cases c.writer with
  | none =>
    dsimp only
    rw [complete_writeAudit_write hrow]
    simp
  | some answer =>
    cases answer with
    | error errorType =>
      dsimp only
      rw [complete_writeAudit_write hrow]
      simp
    | ok write =>
      dsimp only
      cases hsuccess : write.success with
      | false =>
        simp only [Bool.false_eq_true, if_false]
        rw [complete_writeAuditFailClosed hrow]
        split <;> simp
      | true =>
        simp only [if_true]
        obtain _ | errorType | done := c.durable.map DurableStore.mark
        · rw [complete_writeAuditFailClosed hrow]
          simp
        · rw [complete_writeAudit_write hrow]
          simp
        · rw [complete_writeAuditFailClosed hrow]
          simp

end Audits

section Execute
variable {c : Collaborators} {mode : TradingMode} {a : PayloadAction} {met : Bool}

/-- A call that ends at a gate with its audit. -/
theorem complete_gate_iff {r : Response} (herror : r.error = none)
    (hgate : ¬ Dispatched c mode a met)
    (hlookup : mode.denial a.actionType a.scope = none → ¬ NeedsApproval a →
      ∀ errorType, durableCheck c a ≠ some (.error errorType))
    (hrunbook : a.actionType = .generateRunbookCommand →
      (mode.denial a.actionType a.scope).isSome = true) :
    AuditComplete a (writeAudit c [] r) ↔ Accountable c mode a met := by
  cases hrow : a.actionType.row with
  | none =>
    rw [complete_writeAudit hrow rfl]
    constructor
    · intro h
      exact ⟨hrunbook, hlookup, fun _ => .inl h, fun hwrite => by simp [hrow] at hwrite⟩
    · intro h
      exact (h.plain hrow).resolve_right fun hdispatched => hgate hdispatched.1
  | some row =>
    have hwrite : a.actionType.row.isSome = true := by rw [hrow]; rfl
    rw [complete_writeAudit_write hwrite, herror]
    constructor
    · intro h
      refine ⟨hrunbook, hlookup, fun hplain => by simp [hrow] at hplain, fun _ => .inl ?_⟩
      exact h.resolve_right (by simp)
    · intro h
      exact .inl ((h.write hwrite).resolve_right fun hdispatched => hgate hdispatched.1)

theorem complete_dispatch_iff (hdispatched : Dispatched c mode a met) :
    AuditComplete a (dispatch c a []) ↔ Accountable c mode a met := by
  obtain ⟨hallowed, hungated, hchecked, hforgotten, hmet⟩ := hdispatched
  have hrunbook : a.actionType ≠ .generateRunbookCommand := fun h =>
    hungated (.inr (by simp [requiresHumanApproval, h]))
  have hlookup : ∀ errorType, durableCheck c a ≠ some (.error errorType) := by
    rintro errorType hraised
    obtain hchecked | hchecked := hchecked <;> simp [hchecked] at hraised
  have hdispatched : Dispatched c mode a met := ⟨hallowed, hungated, hchecked, hforgotten, hmet⟩
  cases hrow : a.actionType.row with
  | none =>
    rw [complete_dispatch hrow hrunbook]
    constructor
    · intro h
      exact ⟨fun h => absurd h hrunbook, fun _ _ => hlookup,
        fun _ => h.imp_right fun h => ⟨hdispatched, h⟩, fun hwrite => by simp [hrow] at hwrite⟩
    · intro h
      exact (h.plain hrow).imp_right fun h => h.2
  | some row =>
    have hwrite : a.actionType.row.isSome = true := by rw [hrow]; rfl
    rw [complete_dispatch_write hwrite]
    constructor
    · intro h
      exact ⟨fun h => absurd h hrunbook, fun _ _ => hlookup,
        fun hplain => by simp [hrow] at hplain, fun _ => h.imp_right fun h => ⟨hdispatched, h⟩⟩
    · intro h
      exact (h.write hwrite).imp_right fun h => h.2

/-- A runbook that is put before a human leaves two records, or raises. -/
theorem gated_runbook_incomplete (h : a.actionType = .generateRunbookCommand) (r : Response) :
    ¬ AuditComplete a (afterApprovalAudit c a (writeAudit c [] r)) := by
  have hrow : a.actionType.row = none := by rw [h]; rfl
  rw [afterApprovalAudit, if_pos h]
  cases hout : c.audit 0 with
  | written =>
    simp only [writeAudit, recordAttempt, List.nil_append, List.length_nil, hout]
    exact runbook_incomplete hrow rfl
  | logged =>
    simp only [writeAudit, recordAttempt, List.nil_append, List.length_nil, hout]
    exact runbook_incomplete hrow rfl
  | raised errorType => simp [writeAudit, hout, AuditComplete]

theorem afterApprovalAudit_of_ne (h : a.actionType ≠ .generateRunbookCommand)
    (gated : Trail × Except String Response) : afterApprovalAudit c a gated = gated := by
  rw [afterApprovalAudit, if_neg h]
  cases gated.2 <;> rfl

/-- Exactly then a call returns, with one record that says what it returns, and with a write
action reported as `AuditWriteFailed` if its record is not in the file. -/
theorem audit_complete_iff (c : Collaborators) (mode : TradingMode) (a : PayloadAction)
    (preconditionsMet : Bool) (preconditionDescription : String) :
    AuditComplete a (execute c mode a preconditionsMet preconditionDescription) ↔
      Accountable c mode a preconditionsMet := by
  rw [execute]
  split
  · next reason hdenied =>
    refine complete_gate_iff rfl (fun h => ?_) (fun h => ?_) fun _ => by rw [hdenied]; rfl
    · rw [h.1] at hdenied
      cases hdenied
    · rw [h] at hdenied
      cases hdenied
  · next hallowed =>
    split
    · next hgated =>
      by_cases hrunbook : a.actionType = .generateRunbookCommand
      · refine iff_of_false (gated_runbook_incomplete hrunbook _) fun h => ?_
        have hdenied := h.runbook hrunbook
        rw [hallowed] at hdenied
        cases hdenied
      · rw [afterApprovalAudit_of_ne hrunbook]
        exact complete_gate_iff rfl (fun h => h.2.1 hgated) (fun _ h => absurd hgated h)
          fun h => absurd h hrunbook
    · next hungated =>
      have hrunbook : a.actionType ≠ .generateRunbookCommand := fun h =>
        hungated (.inr (by simp [requiresHumanApproval, h]))
      split
      · next errorType hraised =>
        exact iff_of_false (by simp [AuditComplete]) fun h =>
          h.lookup hallowed hungated errorType hraised
      · next prior hfound =>
        refine complete_gate_iff rfl (fun h => ?_) (fun _ _ errorType => ?_)
          fun h => absurd h hrunbook
        · obtain hchecked | hchecked := h.2.2.1 <;> simp [hfound] at hchecked
        · simp [hfound]
      · next hraised hfound =>
        have hchecked : durableCheck c a = none ∨ durableCheck c a = some (.ok none) := by
          rcases hcheck : durableCheck c a with _ | errorType | _ | prior
          · exact .inl rfl
          · exact absurd hcheck (hraised errorType)
          · exact .inr rfl
          · exact absurd hcheck (hfound prior)
        split
        · next prior hremembered =>
          refine complete_gate_iff rfl (fun h => ?_) (fun _ _ => hraised) fun h => absurd h hrunbook
          rw [h.2.2.2.1] at hremembered
          cases hremembered
        · next hforgotten =>
          split
          · next hunmet =>
            refine complete_gate_iff rfl (fun h => ?_) (fun _ _ => hraised)
              fun h => absurd h hrunbook
            rw [h.2.2.2.2] at hunmet
            cases hunmet
          · next hmet =>
            exact complete_dispatch_iff ⟨hallowed, hungated, hchecked, hforgotten,
              by simpa using hmet⟩

end Execute

def blockEntries : PayloadAction where
  actionId := "a"
  actionType := .blockNewEntries
  idempotencyKey := "block_new_entries-feed-20260531"
  message := .ok "block new entries"
  subject := .ok "default"

/-- The row is put, and the line of the audit goes to the process log. -/
def diskFull : Collaborators where
  audit := fun _ => .logged
  writer := some (.ok
    { success := true, table := "risk-state", pk := "ENTRY_BLOCK", sk := "GLOBAL" })

/-- The entries are blocked with nothing in the audit file, and the answer is that they are. -/
theorem unaudited_block_executed :
    ¬ ∀ (c : Collaborators) (mode : TradingMode) (a : PayloadAction) (preconditionsMet : Bool)
      (preconditionDescription : String),
      AuditComplete a (execute c mode a preconditionsMet preconditionDescription) := by
  intro h
  obtain ⟨r, hanswer, hrecord⟩ := h diskFull .paper blockEntries true ""
  have hexecuted : r.executed = true := by
    obtain rfl := Except.ok.inj hanswer
    rfl
  have hwrite : blockEntries.actionType.row.isSome = true := rfl
  rw [if_pos hwrite] at hrecord
  obtain ⟨x, hx, hwritten, -⟩ | ⟨-, hblocked, -⟩ := hrecord
  · have hlogged : x.outcome = .logged := by
      obtain rfl := List.singleton_inj.mp hx
      rfl
    rw [hlogged] at hwritten
    cases hwritten
  · rw [hexecuted] at hblocked
    cases hblocked

end QuantEmbrace.SafeActions
