import AiRetrieval.Library.Programs
import AiRetrieval.Spec.InteractiveRecords
import AiRetrieval.Spec.ModelCalls

/-! `InteractiveCoordinator.execute` of `interactive/coordinator.py`. How the read, the
preparation and each model operation end is given; what runs in the background after the
response and the metrics are left out. Seconds are exact microseconds. -/

namespace AiRetrieval

/-- An `Exception` as `_reason` and `_details` look at it. -/
inductive InteractiveError where
  /-- `_BudgetExhausted`. -/
  | budgetExhausted (scopes : List String)
  /-- `_ValidationFailed`. -/
  | validationFailed (reasons failedRuleIds : List String)
  /-- `_TaskFailed`. -/
  | taskFailed (failure : TaskFailure)
  /-- `SecurityRejection`, with `failure.code.value`. -/
  | securityRejection (code : String)
  /-- `DataAccessRejection`, with `failure.code.value`. -/
  | dataAccessRejection (code : String)
  /-- Any other, with its attributes `reason` and `failure.code.value` where it has them. -/
  | other (typeName : String) (reason failureCode : Option PyValue)

/-- How something that is awaited ends: it returns, raises an `Exception` or
`asyncio.CancelledError`, or is not finished in time. -/
inductive Awaited (α : Type) where
  | returned (value : α)
  | raised (error : InteractiveError)
  | cancelled
  | unfinished

/-- What `execute` raises instead of returning. -/
inductive Escape where
  | error (error : PyError)
  | raised (error : InteractiveError)
  | cancelled

/-- What the coordinator is composed of and how it answers. -/
structure InteractivePorts (ν : Type) where
  responseReserveMs : Nat
  /-- The coordinator's own clock readings. -/
  clock : Nat → DateTime
  read : Awaited ν
  /-- `task_pipeline.prepare`, where there is a task pipeline. -/
  prepare : Option (Except Escape (Except TaskFailure PreparedTask))
  /-- How the model operation under an identifier ends. -/
  modelOperation : String → Awaited ν
  /-- The order in which a set of finished tasks is iterated. -/
  doneOrder : List String → List String
  doneOrder_perm : ∀ operationIds, (doneOrder operationIds).Perm operationIds

/-- A program that reads the clock; its state is the number of readings. -/
abbrev Coordinated := Program Escape Nat

namespace InteractiveCoordinator

def queryId (request : InteractiveRequest) : String := "query:" ++ request.val.query.val.planId

def taskPreparationId (task : InteractiveTaskWork) : String :=
  "task:" ++ task.val.function ++ ":prepare"

/-- The identifiers of the legacy model operations of a request. -/
def modelIds (request : InteractiveRequest) : List String :=
  request.val.modelWork.mapIdx modelId

def initialOperationIds (request : InteractiveRequest) : List String :=
  match request.val.task with
  | some task => [queryId request, taskPreparationId task]
  | none => queryId request :: modelIds request

/-- `freeze({...})`, asserted to be a mapping. -/
def frozenDetails (items : List (String × PyValue)) : Except PyError FrozenMapping := do
  PyValue.asserted (← PyValue.freeze (.dict (items.map fun item => (.str item.1, item.2))))

def texts (values : List String) : PyValue := .tuple (values.map .str)

def taskFailureDetails (failure : TaskFailure) : Except PyError FrozenMapping :=
  frozenDetails [("failure_code", .str failure.val.code.value),
    ("failure_stage", .str failure.val.stage.value),
    ("failed_rule_ids", texts failure.val.failedRuleIds),
    ("failure_details", .frozenMapping failure.val.details)]

def unavailableDetails : Except PyError FrozenMapping :=
  frozenDetails [("failure_code", .str "task_pipeline_unavailable"),
    ("failure_stage", .str "preparation"),
    ("failed_rule_ids", texts ["interactive_task.pipeline"])]

def details : InteractiveError → Except PyError FrozenMapping
  | .budgetExhausted scopes => frozenDetails [("exhausted_scopes", texts scopes)]
  | .taskFailed failure => taskFailureDetails failure
  | .validationFailed reasons failedRuleIds =>
    frozenDetails [("reason_codes", texts reasons), ("failed_rule_ids", texts failedRuleIds)]
  | .securityRejection code => frozenDetails [("reason_code", .str code)]
  | .dataAccessRejection code => frozenDetails [("reason_code", .str code)]
  | .other typeName _ failureCode =>
    frozenDetails [("reason_code", failureCode.getD (.str typeName))]

/-- `_reason` of an `Exception`; its branch for `asyncio.CancelledError`, which is none, is
never taken. -/
def reason : InteractiveError → InteractiveTerminalReason
  | .budgetExhausted _ => .budgetExhausted
  | .validationFailed _ _ => .validationFailed
  | .taskFailed _ => .validationFailed
  | .securityRejection _ => .securityRejected
  | .dataAccessRejection _ => .databaseFailure
  | .other _ reason _ =>
    if reason.any (·.isText AdmissionFailure.deadlineIneligible.value) then .deadlineIneligible
    else .modelFailure

/-- A raise of the coordinator's own code. -/
def own {α : Type} (x : Except PyError α) : Coordinated α := liftM (x.mapError Escape.error)

variable {ν : Type} (ports : InteractivePorts ν)

/-- `self._clock.now()`. -/
def now : Coordinated DateTime := do
  let readings ← get
  set (readings + 1)
  return ports.clock readings

/-- `_remaining_seconds`, in microseconds. -/
def remaining (deadline : DateTime) : Coordinated Int := do
  let difference ← own (deadline.minus (← now ports))
  return max difference 0

/-- `response_reserve_ms / 1000`, in microseconds. -/
def responseReserve : Int := 1000 * ports.responseReserveMs

/-- The loops of `_run_models` and `_run_task_models`: the operations that are started, the
others being omitted. -/
def startModels (deadline : DateTime) : List String → PartialAggregator ν →
    Coordinated (PartialAggregator ν × List String)
  | [], a => return (a, [])
  | operationId :: rest, a => do
    let left ← remaining ports deadline
    if left ≤ responseReserve ports then
      let a ← own (a.omitOperation operationId .deadlineExceeded [] .omitted)
      startModels deadline rest a
    else
      let (a, started) ← startModels deadline rest a
      return (a, operationId :: started)

def omitRaised (operationId : String) (error : InteractiveError) (a : PartialAggregator ν) :
    Except PyError (PartialAggregator ν) := do
  let frozen ← details error
  a.omitOperation operationId (reason error) frozen .omitted

/-- The loop of `_collect_models` over the tasks that are done. -/
def collectDone : List String → PartialAggregator ν → Coordinated (PartialAggregator ν)
  | [], a => return a
  | operationId :: rest, a => do
    match ports.modelOperation operationId with
    | .returned value =>
      match a.complete operationId value with
      | .ok a => collectDone rest a
      | .error error =>
        collectDone rest (← own (omitRaised operationId (.other error.typeName none none) a))
    | .raised error => collectDone rest (← own (omitRaised operationId error a))
    -- `except Exception` does not catch `asyncio.CancelledError`
    | .cancelled => throw .cancelled
    | .unfinished => collectDone rest a

/-- The operation is done when `asyncio.wait` returns. -/
def finished (operationId : String) : Bool :=
  match ports.modelOperation operationId with
  | .unfinished => false
  | _ => true

def collectModels (deadline : DateTime) (started : List String) (a : PartialAggregator ν) :
    Coordinated (PartialAggregator ν) := do
  if started.isEmpty then return a
  else
    let _ ← remaining ports deadline
    let a ← collectDone ports (ports.doneOrder (started.filter (finished ports))) a
    own (PartialAggregator.omitAll .deadlineExceeded .omitted
      (started.filter fun operationId => !finished ports operationId) a)

def runModels (deadline : DateTime) (request : InteractiveRequest) (a : PartialAggregator ν) :
    Coordinated (PartialAggregator ν) := do
  let (a, started) ← startModels ports deadline (modelIds request) a
  collectModels ports deadline started a

/-- `_run_task_models`; a prepared task has one work for each pack. -/
def runTaskModels (deadline : DateTime) (prepared : PreparedTask) (a : PartialAggregator ν) :
    Coordinated (PartialAggregator ν) := do
  let (a, started) ← startModels ports deadline (prepared.val.packs.map packId) a
  collectModels ports deadline started a

def runTaskRequest (deadline : DateTime) (request : InteractiveRequest)
    (task : InteractiveTaskWork) (source : ν) : Coordinated (PartialAggregator ν) := do
  let unprepared (frozen : Except PyError FrozenMapping) :
      Coordinated (PartialAggregator ν) := do
    let a ← own (PartialAggregator.of [queryId request, taskPreparationId task])
    let a ← own (a.complete (queryId request) source)
    let frozen ← own frozen
    own (a.omitOperation (taskPreparationId task) .validationFailed frozen .omitted)
  match ports.prepare with
  | none => unprepared unavailableDetails
  | some prepare =>
    match ← liftM prepare with
    | .error failure => unprepared (taskFailureDetails failure)
    | .ok prepared =>
      let a ← own (PartialAggregator.of (queryId request :: prepared.val.packs.map packId))
      let a ← own (a.complete (queryId request) source)
      runTaskModels ports deadline prepared a

/-- What `execute` does once there is time for work. -/
def work (deadline : DateTime) (request : InteractiveRequest) (a : PartialAggregator ν) :
    Coordinated (PartialAggregator ν) :=
  match ports.read with
  | .unfinished => own (a.finalizePending .deadlineExceeded)
  | .cancelled => throw .cancelled
  | .raised error => do
    let a ← own (omitRaised (queryId request) error a)
    own (PartialAggregator.omitAll .dependencyFailed .omitted a.pending a)
  | .returned source =>
    match request.val.task with
    | none => do
      let a ← own (a.complete (queryId request) source)
      runModels ports deadline request a
    | some task => runTaskRequest ports deadline request task source

/-- The response `execute` ends with. -/
def respond (deadline : DateTime) (request : InteractiveRequest) (context : ExecutionContext)
    (a : PartialAggregator ν) : Coordinated (InteractiveResponse ν) := do
  let a ← own (a.finalizePending .deadlineExceeded)
  let emitted ← now ports
  let early ← own (deadline.before emitted)
  let terminalReason ← own a.terminalReason
  own (Checked.make InteractiveResponse.postInit {
    requestId := request.val.requestId
    complete := a.completeResult
    terminalReason := terminalReason
    results := a.included
    incompleteness := a.incompleteness
    deadline := deadline
    emittedAt := if early then deadline else emitted
    configurationVersion := context.configuration.reference.val.version })

def execute (request : InteractiveRequest) (context : ExecutionContext) :
    Coordinated (InteractiveResponse ν) := do
  match context.timing.val.deadline with
  | none => throw (.error (.valueError "interactive execution requires one absolute deadline"))
  | some deadline =>
    let a ← own (PartialAggregator.of (initialOperationIds request))
    let _ ← now ports
    let left ← remaining ports deadline
    let a ←
      if left - responseReserve ports ≤ 0 then own (a.finalizePending .deadlineExceeded)
      else work ports deadline request a
    respond ports deadline request context a

end InteractiveCoordinator

end AiRetrieval
