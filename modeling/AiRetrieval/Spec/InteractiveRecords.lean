import AiRetrieval.Library.Dictionaries
import AiRetrieval.Spec.TaskRecords
import Mathlib.Data.List.MinMax

/-! The requests of `domain/work.py`, the outcomes of `interactive/models.py` and the
aggregator of `interactive/aggregator.py`. Metrics are left out. -/

namespace AiRetrieval

structure QueryWork.Fields where
  planId : String
  parameters : FrozenMapping := []

def QueryWork.postInit (r : QueryWork.Fields) : Except PyError Unit :=
  require (blank r.planId = false) (.valueError "query plan_id must not be blank")

abbrev QueryWork := Checked QueryWork.postInit

structure InteractiveTaskWork.Fields where
  function : String
  parameters : FrozenMapping
  requestedDefinitionVersion : Option String := none

def InteractiveTaskWork.postInit (r : InteractiveTaskWork.Fields) : Except PyError Unit := do
  require (blank r.function = false) (.valueError "interactive task function must not be blank")
  require (r.requestedDefinitionVersion.all fun version => blank version = false)
    (.valueError "requested task definition version must not be blank")

abbrev InteractiveTaskWork := Checked InteractiveTaskWork.postInit

structure InteractiveRequest.Fields where
  requestId : String
  query : QueryWork
  modelWork : List ModelWork := []
  task : Option InteractiveTaskWork := none

def InteractiveRequest.postInit (r : InteractiveRequest.Fields) : Except PyError Unit := do
  require (blank r.requestId = false) (.valueError "request_id must not be blank")
  require (r.task.isNone ∨ r.modelWork.isEmpty)
    (.valueError "interactive request cannot mix task work and legacy ModelWork")

abbrev InteractiveRequest := Checked InteractiveRequest.postInit

inductive InteractiveTerminalReason where
  | complete
  | deadlineExceeded
  | deadlineIneligible
  | budgetExhausted
  | databaseFailure
  | modelFailure
  | validationFailed
  | securityRejected
  | cancelled
  | internalFailure
  | dependencyFailed
  deriving DecidableEq

inductive InteractiveOperationState where
  | completed
  | omitted
  | incomplete
  deriving DecidableEq

structure OperationIncompleteness.Fields where
  operationId : String
  state : InteractiveOperationState
  reason : InteractiveTerminalReason
  details : FrozenMapping := []

def OperationIncompleteness.postInit (r : OperationIncompleteness.Fields) :
    Except PyError Unit :=
  require (blank r.operationId = false ∧ r.state ≠ .completed)
    (.valueError "incompleteness requires a non-completed operation")

abbrev OperationIncompleteness := Checked OperationIncompleteness.postInit

structure InteractiveOperationResult (ν : Type) where
  operationId : String
  value : ν

structure InteractiveResponse.Fields (ν : Type) where
  requestId : String
  complete : Bool
  terminalReason : InteractiveTerminalReason
  results : List (InteractiveOperationResult ν)
  incompleteness : List OperationIncompleteness
  deadline : DateTime
  emittedAt : DateTime
  configurationVersion : String

def InteractiveResponse.postInit {ν : Type} (r : InteractiveResponse.Fields ν) :
    Except PyError Unit := do
  require (blank r.requestId = false) (.valueError "response request_id must not be blank")
  require (r.complete = r.incompleteness.isEmpty)
    (.valueError "only responses without incompleteness are complete")
  require (r.complete = decide (r.terminalReason = .complete))
    (.valueError "complete responses require the complete terminal reason")
  require (∀ operationId ∈ r.results.map (·.operationId),
      operationId ∉ r.incompleteness.map (·.val.operationId))
    (.valueError "an operation cannot be included and incomplete")

abbrev InteractiveResponse (ν : Type) := Checked (@InteractiveResponse.postInit ν)

def InteractiveTerminalReason.priority : InteractiveTerminalReason → Option Nat
  | .deadlineExceeded => some 0
  | .budgetExhausted => some 1
  | .securityRejected => some 2
  | .databaseFailure => some 3
  | .validationFailed => some 4
  | .deadlineIneligible => some 5
  | .modelFailure => some 6
  | .cancelled => some 7
  | .dependencyFailed => some 8
  | .internalFailure => some 9
  | .complete => none

structure PartialAggregator (ν : Type) where
  operationIds : List String
  results : Dict String ν
  incomplete : Dict String OperationIncompleteness

namespace PartialAggregator

variable {ν : Type}

def of (operationIds : List String) : Except PyError (PartialAggregator ν) := do
  require (operationIds ≠ [] ∧ operationIds.Nodup)
    (.valueError "aggregation requires unique requested operations")
  return ⟨operationIds, .empty, .empty⟩

variable (a : PartialAggregator ν)

def requirePending (operationId : String) : Except PyError Unit := do
  require (operationId ∈ a.operationIds)
    (.raised .keyError ("'unknown operation: " ++ operationId ++ "'"))
  require (a.results.contains operationId = false ∧ a.incomplete.contains operationId = false)
    (.valueError ("operation already terminal: " ++ operationId))

def complete (operationId : String) (value : ν) : Except PyError (PartialAggregator ν) := do
  a.requirePending operationId
  return { a with results := a.results.insert operationId value }

def omitOperation (operationId : String) (reason : InteractiveTerminalReason)
    (details : FrozenMapping) (state : InteractiveOperationState) :
    Except PyError (PartialAggregator ν) := do
  a.requirePending operationId
  let item ← Checked.make OperationIncompleteness.postInit ⟨operationId, state, reason, details⟩
  return { a with incomplete := a.incomplete.insert operationId item }

def pending : List String :=
  a.operationIds.filter fun operationId =>
    !a.results.contains operationId && !a.incomplete.contains operationId

def omitAll (reason : InteractiveTerminalReason) (state : InteractiveOperationState) :
    List String → PartialAggregator ν → Except PyError (PartialAggregator ν)
  | [], a => .ok a
  | operationId :: rest, a => do
    omitAll reason state rest (← a.omitOperation operationId reason [] state)

def finalizePending (reason : InteractiveTerminalReason) : Except PyError (PartialAggregator ν) :=
  omitAll reason .incomplete a.pending a

def completeResult : Bool := a.pending.isEmpty && a.incomplete.values.isEmpty

/-- `results()`. -/
def included : List (InteractiveOperationResult ν) :=
  a.operationIds.filterMap fun operationId =>
    (a.results.get? operationId).map fun value => ⟨operationId, value⟩

def incompleteness : List OperationIncompleteness :=
  a.operationIds.filterMap a.incomplete.get?

def terminalReason : Except PyError InteractiveTerminalReason :=
  let reasons := a.incomplete.values.map (·.val.reason)
  if reasons.isEmpty then .ok .complete
  -- a reason without priority has no place in the comparison
  else if InteractiveTerminalReason.complete ∈ reasons then
    .error (.raised .keyError "<InteractiveTerminalReason.COMPLETE: 'complete'>")
  else .ok ((reasons.argmin fun reason => reason.priority.getD 0).getD .complete)

end PartialAggregator

end AiRetrieval
