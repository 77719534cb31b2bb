import AiRetrieval.Spec.World

/-! `bulk/execution.py`: isolated execution of a claim, dead-letter handling and
the terminal job report. -/

namespace AiRetrieval

open AiRetrieval.Action

def countState (states : List TerminalWorkItemState) (state : TerminalWorkItemState) : Nat :=
  states.countP (· = state)

def classifyTerminalJob (states : List TerminalWorkItemState) (cause : JobTerminalCause) :
    Except PyError TerminalJobClassification :=
  if states.isEmpty then
    .error (.valueError "a terminal job must contain at least one work item")
  else if countState states .succeeded = states.length then .ok .succeeded
  else if countState states .succeeded ≠ 0 then .ok .partiallySucceeded
  else if cause = .budgetExhausted then .ok .budgetExhausted
  else if cause = .cancelled then .ok .cancelled
  else .ok .failed

def terminalStateGroup (items : List TerminalWorkItemRecord) (state : TerminalWorkItemState) :
    Except PyError TerminalStateGroup :=
  let identifiers := WorkRepository.sortedBy id
    ((items.filter fun item => item.val.state = state).map (·.val.itemId))
  Checked.make TerminalStateGroup.postInit ⟨state, identifiers.length, identifiers⟩

def buildTerminalReport (jobId : String) (items : List TerminalWorkItemRecord)
    (cause : JobTerminalCause) (completedAt : DateTime) : Except PyError TerminalJobReport := do
  require (items ≠ []) (.valueError "a terminal job must contain at least one work item")
  require (∀ item ∈ items, item.val.jobId = jobId)
    (.valueError "terminal report items must belong to one job")
  require (items.map (·.val.itemId)).Nodup
    (.valueError "terminal report item identifiers must be unique")
  let groups ← TerminalWorkItemState.all.mapM (terminalStateGroup items)
  let classification ← classifyTerminalJob (items.map (·.val.state)) cause
  Checked.make TerminalJobReport.postInit
    ⟨jobId, classification, groups, items.length, cause, completedAt⟩

namespace BulkWorkExecutor

variable (env : Environment)

/-- `WorkItemHandler.execute`, an arbitrary program of the application. -/
abbrev Handler := WorkItemRecord → Action WorkItemExecutionResult

def emitState (jobId : String) : Action Unit := do
  let w ← get
  let items := w.store.terminalItems jobId
  let states := items.map (·.val.state)
  let counts := TerminalWorkItemState.all.map fun state => (state, countState states state)
  let usage := (w.usage.get? jobId).getD {}
  let now ← ask env.clock
  let elapsed ← now.minus env.startedAt
  let telemetry ← Checked.make BulkStateTelemetry.postInit {
    jobId := jobId
    countsByState := counts
    retryCount := (items.map fun item => item.val.attemptCount - 1).sum
    validationFailureCount := countState states .validationFailed
    deadLetterCount := (w.deadLetters.entriesOf jobId).length
    tokenUsage := usage.tokens
    monetaryCostMinorUnits := usage.cost
    elapsedMs := (max (env.elapsedMs elapsed) 0).toNat
    persistenceFailureCount := (w.store.persistenceFailuresOf jobId).length }
  ask fun n => env.telemetry n telemetry

/-- `terminal.failure_code or "retry_exhausted"`. -/
def deadLetterCode (code : Option String) : String :=
  match code with
  | some value => if value = "" then "retry_exhausted" else value
  | none => "retry_exhausted"

/-- Any exception is an outcome to record; the interrupt is not an `Exception`. -/
def caught (error : PyError) {α : Type} (handler : Action α) : Option (Action α) :=
  match error with
  | .interrupt => none
  | _ => some handler

def persistDeadLetter (terminal : TerminalWorkItemRecord) : Action Unit := do
  let entry ← Checked.make DeadLetterEntry.postInit {
    jobId := terminal.val.jobId
    itemId := terminal.val.itemId
    idempotencyKey := terminal.val.idempotencyKey
    failureCode := deadLetterCode terminal.val.failureCode
    failureDetails := terminal.val.failureDetails
    attemptCount := terminal.val.attemptCount
    configuration := terminal.val.configuration
    resultReference := terminal.val.resultReference
    persistedAt := terminal.val.recordedAt }
  Program.handling (do
    let _ ← onDeadLetters (DeadLetterQueue.persist env.failItemIds entry)) fun error =>
      caught error do
        let now ← ask env.clock
        let outcome ← Checked.make PersistenceFailureOutcome.postInit {
          jobId := terminal.val.jobId
          itemId := terminal.val.itemId
          operation := "dead_letter_persist"
          reason := error.typeName ++ ": " ++ error.text
          recordedAt := now }
        onStore (WorkRepository.recordPersistenceFailure outcome)

/-- The handler's result; a raise becomes a `RETRY_EXHAUSTED` result. -/
def handledResult (handler : Handler) (item : WorkItemRecord) : Action WorkItemExecutionResult :=
  Program.handling (handler item) fun error =>
    caught error (liftM (Checked.make WorkItemExecutionResult.postInit {
      state := .retryExhausted
      failureCode := some error.typeName
      failureDetails := some error.text }))

/-- The write of `execute_claim`: the terminal outcome under the claim's lease. -/
def terminalizeResult (claim : WorkClaim) (owner : String) (now : DateTime)
    (result : WorkItemExecutionResult) : Action TerminalWorkItemRecord := do
  let resultReference ← putResult? env.sha256 result.val.result
  onStore (WorkRepository.terminalize claim.item.val.jobId claim.item.val.idempotencyKey owner
    result.val.state result.val.failureCode result.val.failureDetails now resultReference)

def deadLetterExhausted (terminal : TerminalWorkItemRecord) : Action Unit :=
  if terminal.val.state = .retryExhausted then persistDeadLetter env terminal else pure ()

/-- What follows the write of `execute_claim`. -/
def afterTerminal (claim : WorkClaim) (result : WorkItemExecutionResult)
    (terminal : TerminalWorkItemRecord) : Action TerminalWorkItemRecord := do
  modify fun w =>
    let usage := (w.usage.get? claim.item.val.jobId).getD {}
    { w with usage := w.usage.insert claim.item.val.jobId {
        tokens := usage.tokens + result.val.tokenUsage
        cost := usage.cost + result.val.monetaryCostMinorUnits } }
  deadLetterExhausted env terminal
  emitState env claim.item.val.jobId
  return terminal

def executeClaim (claim : WorkClaim) (handler : Handler) : Action TerminalWorkItemRecord := do
  let owner ← claim.requireOwner
  let now ← ask env.clock
  let result ← handledResult handler claim.item
  let terminal ← terminalizeResult env claim owner now result
  afterTerminal env claim result terminal

def terminalReport (jobId : String) (cause : JobTerminalCause) : Action TerminalJobReport := do
  let w ← get
  let durableItems := w.store.itemsOf jobId
  let terminalItems := w.store.terminalItems jobId
  if durableItems.isEmpty then throw (.valueError "unknown or empty bulk job")
  else if terminalItems.length ≠ durableItems.length then
    throw (.valueError "terminal report requires every work item to be terminal")
  else
    let now ← ask env.clock
    let report ← buildTerminalReport jobId terminalItems cause now
    emitState env jobId
    return report

end BulkWorkExecutor

end AiRetrieval
