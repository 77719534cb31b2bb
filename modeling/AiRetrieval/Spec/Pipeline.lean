import AiRetrieval.Spec.RoutingRecords
import AiRetrieval.Spec.Worker
import AiRetrieval.Spec.WriteBack

/-! `_BulkPipeline` of `composition/prototype.py`: the durable stages of one work item.
The components it is composed of (task runtime, parser, validators, planner, budget and
model executor) answer like the rest of the outside. -/

namespace AiRetrieval

open AiRetrieval.Action

/-- The components of `PrototypeApplication` the pipeline calls, and the text functions
of the standard library it uses. -/
structure PrototypeApplication extends Environment where
  /-- `json.loads(data.decode("utf-8"))`. -/
  jsonLoadsText : Bytes → Except PyError PyValue
  /-- `json.loads(data)`. -/
  jsonLoads : Bytes → Except PyError PyValue
  /-- `json.dumps` of the three members of a failure, with `sort_keys=True, default=str`. -/
  jsonDumpsFailure : (stage : String) → (rules : List String) → (details : FrozenMapping) → String
  /-- `b64encode(data).decode("ascii")`. -/
  b64encode : Bytes → String
  /-- `b64decode(value, validate=True)`. -/
  b64decode : PyValue → Except PyError Bytes
  canonicalPayloadBytes : PyValue → Except PyError Bytes
  canonicalDefinitionBytes : TaskDefinition → Except PyError Bytes
  /-- `task_registry.resolve`. -/
  resolveDefinition : TaskFunction → PyValue → Except PyError (Option TaskDefinition)
  /-- `task_runtime.prepare`, which stores payloads in the object store. -/
  prepare : Nat → TaskInvocation → ExecutionContext →
    ObjectResultStore.Op (Except TaskFailure PreparedTask)
  /-- `task_parser.parse`. -/
  parse : PyValue → TaskDefinition → Except PyError (Except TaskFailure (List FrozenMapping))
  /-- `task_validator.validate_packs`. -/
  validatePacks : Nat → PreparedTask → List (PackedRequest × PyValue) → ExecutionContext →
    Except PyError ValidationResult
  /-- `validator.validate`. -/
  validate : Nat → List String → List PyValue → ExecutionContext → Except PyError ValidationResult
  /-- `model_planner.plan(operation_id, work, context, 0)`. -/
  plan : Nat → String → ModelWork → ExecutionContext → Except PyError ModelPlan
  /-- `budget_adapter.reserve`. -/
  reserve : Nat → ExecutionContext → ModelUsage → Except PyError ReservationDecision
  /-- `model_executor.invoke(plan, None, context)`, which reads the object store. -/
  invoke : Nat → ObjectResultStore → ModelPlan → ExecutionContext →
    Except PyError ModelInvocationResult
  /-- `budget_adapter.reconcile`. -/
  reconcile : Nat → String → ModelUsage → Except PyError Unit
  /-- `model_planner.complete`. -/
  complete : Nat → ModelPlan → Except PyError Unit

def validationFailure (code details : String) : PyError :=
  .bulkTaskFailure ⟨.validationFailed, code, details, by decide⟩

def policyFailure (code details : String) : PyError :=
  .bulkTaskFailure ⟨.policyRejected, code, details, by decide⟩

def budgetFailure (details : String) : PyError :=
  .bulkTaskFailure ⟨.budgetExhausted, "budget_exhausted", details, budgetExhausted_raisable⟩

namespace BulkPipeline

variable (app : PrototypeApplication)

section Objects

/-- `self._app.objects.get(reference)`. -/
def getObject (reference : Option ObjectReference) : Action Bytes := do
  let w ← get
  match reference with
  | none => throw (.raised .attributeError "'NoneType' object has no attribute 'reference'")
  | some reference => ObjectResultStore.get app.sha256 w.objects reference

def loadJson (reference : Option ObjectReference) : Action PyValue := do
  let data ← getObject app reference
  app.jsonLoadsText data

/-- `_is_task`; what is not JSON text or not a mapping is no task. -/
def isTask (reference : ObjectReference) : Action Bool :=
  Program.handling (do
    let data ← loadJson app (some reference)
    let kind ← data.find "kind" .none
    return kind.isText "task_invocation") fun error =>
      match error with
      | .raised (.other "UnicodeDecodeError") _ => some (return false)
      | .raised (.other "JSONDecodeError") _ => some (return false)
      | .raised .attributeError _ => some (return false)
      | _ => none

/-- `self._app.objects.put_result(canonical_payload_bytes(value))`. -/
def putValue (value : PyValue) : Action ObjectReference := do
  let data ← app.canonicalPayloadBytes value
  onObjects (ObjectResultStore.putResult app.sha256 data)

end Objects

section Results

/-- `repository.checkpoint` with the owner of a claim; nobody owns a lease as `None`. -/
def checkpointOwned (claim : WorkClaim) (stage : CheckpointStage) (outcome : String)
    (now : DateTime) (reference : Option ObjectReference) : Action CheckpointRecord :=
  let item := claim.item
  match item.val.leaseOwner with
  | some owner => onStore (WorkRepository.checkpoint item.val.jobId item.val.idempotencyKey owner
      stage outcome now reference)
  | none => do
    let w ← get
    let _ ← w.store.requireItem (claimKey claim)
    throw WorkRepository.ownershipError

def checkpoint (claim : WorkClaim) (stage : CheckpointStage) (outcome : String)
    (reference : Option ObjectReference) : Action BulkStageResult := do
  let now ← ask app.clock
  let checkpoint ← checkpointOwned claim stage outcome now reference
  return {
    action := .checkpointed
    checkpointStage := some checkpoint.val.completedStage
    outcome := checkpoint.val.outcome }

def terminal (claim : WorkClaim) (state : TerminalWorkItemState) (code details outcome : String) :
    Action BulkStageResult := do
  let result ← Checked.make WorkItemExecutionResult.postInit {
    state := state
    failureCode := some code
    failureDetails := some details }
  let record ← BulkWorkExecutor.executeClaim app.toEnvironment claim fun _ => return result
  return { action := .terminal, terminal := some record, outcome := outcome }

end Results

section Tasks

def failureDetails (failure : TaskFailure) : String :=
  app.jsonDumpsFailure failure.val.stage.value failure.val.failedRuleIds failure.val.details

/-- `tuple(RowInput(row["id"], freeze(row["source"])) for row in data["rows"])`. -/
def rowsOf (data : PyValue) : Except PyError (List RowInput) := do
  let rows ← (← data.item "rows").iterate
  rows.mapM fun row => do
    let identifier ← row.item "id"
    let source ← (← row.item "source").freeze
    RowInput.of identifier source

/-- The part of `_prepare_task` inside its `try`. -/
def decodeInvocation (data : PyValue) : Except PyError TaskInvocation := do
  let function ← TaskFunction.of app.repr (← data.item "function")
  let frozen ← (← data.item "parameters").freeze
  let rows ← rowsOf data
  let parameters ← PyValue.asserted frozen
  TaskInvocation.of function parameters rows (← data.find "requested_definition_version" .none)

/-- The handler of `_prepare_task`. -/
def invalidInvocation (error : PyError) : PyError :=
  match error with
  | .raised .keyError _ | .raised .typeError _ | .raised .valueError _ =>
    validationFailure "invalid_task_invocation" error.typeName
  | error => error

/-- The prepared task of an answer of the task runtime. -/
def preparedOf : Except TaskFailure PreparedTask → Except PyError PreparedTask
  | .ok prepared => .ok prepared
  | .error failure =>
    let details := failureDetails app failure
    if failure.val.stage.value = "resolution" then
      .error (policyFailure failure.val.code.value details)
    else .error (validationFailure failure.val.code.value details)

/-- `task_runtime.prepare`, as the next answer of the outside. -/
def runtimePrepare (invocation : TaskInvocation) (context : ExecutionContext) :
    Action (Except TaskFailure PreparedTask) := do
  let w ← get
  set { w with moment := w.moment + 1 }
  onObjects (app.prepare w.moment invocation context)

def prepareTask (claim : WorkClaim) (context : ExecutionContext) : Action PreparedTask := do
  let data ← loadJson app (some claim.item.val.payloadReference)
  let invocation ← (decodeInvocation app data).mapError invalidInvocation
  let prepared ← runtimePrepare app invocation context
  preparedOf app prepared

def texts (values : List String) : PyValue := .tuple (values.map .str)

/-- `{"name": value, ...}`. -/
def record (members : List (String × PyValue)) : PyValue :=
  .dict (members.map fun (name, value) => (.str name, value))

def preparedValue (prepared : PreparedTask) : Except PyError PyValue := do
  let definition := prepared.val.definition
  let invocation := prepared.val.invocation
  let definitionBytes ← app.canonicalDefinitionBytes definition
  return record [
    ("kind", .str "prepared_task"),
    ("function", .str definition.function.value),
    ("definition_version", .str definition.version),
    ("definition_hash", .str (app.sha256 definitionBytes)),
    ("parameters", .frozenMapping invocation.val.parameters),
    ("rows", .tuple (invocation.val.rows.map fun row => record [
      ("id", .str row.val.identifier),
      ("source", .frozenMapping row.val.sourceFields)])),
    ("requested_definition_version",
      (invocation.val.requestedDefinitionVersion.map PyValue.str).getD .none),
    ("packs", .tuple ((prepared.val.packs.zip prepared.val.modelWork).map
      fun (pack, work) => record [
      ("pack_index", .int pack.val.packIndex),
      ("input_ids", texts pack.val.inputIds),
      ("payload_reference", .str work.val.payloadReference),
      ("payload_hash", .str (app.sha256 pack.val.payload)),
      ("estimated_input_tokens", .int pack.val.estimatedInputTokens),
      ("estimated_output_tokens", .int pack.val.estimatedOutputTokens)]))]

/-- `self._app.objects.resolve(reference)` of a value of any type. -/
def resolveObject (reference : PyValue) : Action ObjectReference := do
  let w ← get
  match reference with
  | .str reference => ObjectResultStore.resolve app.sha256 w.objects reference
  | reference =>
    reference.hashable
    let shown ← app.repr reference
    throw (ObjectResultStore.keyError ("unknown object reference: " ++ shown))

/-- The pack of one item of `_load_prepared` and its model work. -/
def packOf (function : TaskFunction) (definition : TaskDefinition) (item : PyValue)
    (reference : ObjectReference) (payload : Bytes) :
      Except PyError (PackedRequest × ModelWork) := do
  let payloadHash ← item.item "payload_hash"
  require (payloadHash.isText (app.sha256 payload) = true)
    (.valueError "checkpointed task payload hash mismatch")
  let packIndex ← item.item "pack_index"
  let inputIds ← (← item.item "input_ids").iterate
  let inputTokens ← item.item "estimated_input_tokens"
  let outputTokens ← item.item "estimated_output_tokens"
  let pack ← PackedRequest.of function definition.version packIndex inputIds payload inputTokens
    outputTokens
  let work ← Checked.make ModelWork.postInit {
    taskType := function.value
    payloadReference := reference.val.reference
    inputIds := pack.val.inputIds
    requiredCapabilities := definition.requiredCapabilities
    taskDefinitionVersion := some definition.version
    estimatedInputTokens := some pack.val.estimatedInputTokens
    estimatedOutputTokens := some pack.val.estimatedOutputTokens }
  return (pack, work)

/-- One pass of the loop of `_load_prepared`. -/
def loadPack (function : TaskFunction) (definition : TaskDefinition) (item : PyValue) :
    Action (PackedRequest × ModelWork) := do
  let payloadReference ← item.item "payload_reference"
  let reference ← resolveObject app payloadReference
  let payload ← getObject app (some reference)
  packOf app function definition item reference payload

def loadDefinition (data : PyValue) (function : TaskFunction) : Except PyError TaskDefinition := do
  let resolved ← app.resolveDefinition function (← data.item "definition_version")
  match resolved with
  | none =>
    throw (policyFailure "task_definition_unavailable" "checkpointed definition unavailable")
  | some definition =>
    let definitionBytes ← app.canonicalDefinitionBytes definition
    let definitionHash ← data.item "definition_hash"
    require (definitionHash.isText (app.sha256 definitionBytes) = true)
      (policyFailure "task_definition_incompatible" "checkpointed definition mismatch")
    return definition

def invocationOf (data : PyValue) :
    Except PyError (TaskDefinition × TaskInvocation × List PyValue) := do
  let function ← TaskFunction.of app.repr (← data.item "function")
  let definition ← loadDefinition app data function
  let frozen ← (← data.item "parameters").freeze
  let parameters ← PyValue.asserted frozen
  let rows ← rowsOf data
  let requested ← data.find "requested_definition_version" .none
  let invocation ← TaskInvocation.of function parameters rows requested
  let items ← (← data.item "packs").iterate
  return (definition, invocation, items)

def loadPrepared (reference : Option ObjectReference) : Action PreparedTask := do
  let data ← loadJson app reference
  let (definition, invocation, items) ← invocationOf app data
  let packed ← items.mapM (loadPack app invocation.val.function definition)
  Checked.make PreparedTask.postInit
    ⟨definition, invocation, packed.map Prod.fst, packed.map Prod.snd⟩

def preparedFromAcceptedCheckpoint (claim : WorkClaim) : Action PreparedTask := do
  let w ← get
  let checkpoints := w.store.checkpointsOf (claimKey claim)
  match checkpoints.find? fun checkpoint => checkpoint.val.completedStage = .accepted with
  | none => throw (.raised .stopIteration "")
  | some accepted => loadPrepared app accepted.val.resultReference

end Tasks

section Models

/-- A `finally` block after its `try`; no handler runs where the process is stopped. -/
def finallyDo {α : Type} (ended : Except PyError α) (block : Action Unit) : Action α :=
  match ended with
  | .error .interrupt => throw .interrupt
  | ended => do
    block
    ended

/-- `asyncio.run(self._app.model_executor.invoke(plan, None, context))`, noted with the
item and the stages recorded for it. -/
def invokeModel (key : Key) (plan : ModelPlan) (context : ExecutionContext) :
    Action ModelInvocationResult := do
  modify fun w => { w with modelCalls := w.modelCalls ++ [(key, w.store.recordedStages key)] }
  let w ← get
  ask fun n => app.invoke n w.objects plan context

/-- The response of one pack, as the checkpoint keeps it. -/
def responseOf (pack : PackedRequest) (output : PyValue) : PyValue :=
  match output with
  | .bytes data => record [
      ("pack_index", .int pack.val.packIndex),
      ("response_encoding", .str "base64-bytes"),
      ("output", .str (app.b64encode data))]
  | output => record [
      ("pack_index", .int pack.val.packIndex),
      ("response_encoding", .str "json"),
      ("output", output)]

def invokePack (key : Key) (context : ExecutionContext) (pack : PackedRequest) (work : ModelWork) :
    Action PyValue := do
  let operationId := "task:" ++ pack.val.function.value ++ ":" ++ pack.val.definitionVersion ++
    ":pack:" ++ toString pack.val.packIndex
  let plan ← ask fun n => app.plan n operationId work context
  let decision ← Program.attempt (ask fun n => app.reserve n context plan.estimate)
  match decision with
  | .error error => finallyDo (.error error) (ask fun n => app.complete n plan)
  | .ok (.exhausted exhaustion) =>
    finallyDo (.error (budgetFailure (",".intercalate exhaustion.val.exhaustedScopes)))
      (ask fun n => app.complete n plan)
  | .ok (.reserved reservation) =>
    let invoked ← Program.attempt (invokeModel app key plan context)
    let actual := invoked.toOption.map (·.actualUsage)
    finallyDo (invoked.map fun result => responseOf app pack result.output) do
      ask fun n => app.reconcile n reservation.val.reservationId (actual.getD plan.estimate)
      ask fun n => app.complete n plan

def invokePacks (key : Key) (context : ExecutionContext) (prepared : PreparedTask) :
    Action PyValue := do
  let responses ← (prepared.val.packs.zip prepared.val.modelWork).mapM fun (pack, work) =>
    invokePack app key context pack work
  return .tuple responses

end Models

section Outputs

def decodeResponse (item : PyValue) : Except PyError (PyValue × PyValue) := do
  let encoding ← item.find "response_encoding" (.str "json")
  let output ← item.item "output"
  let decoded ←
    if encoding.isText "base64-bytes" then PyValue.bytes <$> app.b64decode output
    else if encoding.isText "json" then .ok output
    else .error (validationFailure "unsupported_representation"
      "unknown checkpointed response encoding")
  let packIndex ← item.item "pack_index"
  packIndex.hashable
  return (packIndex, decoded)

/-- `by_index[pack.pack_index]`, where a later entry replaced an earlier one. -/
def byIndex (entries : List (PyValue × PyValue)) (pack : PackedRequest) :
    Except PyError PyValue :=
  match entries.reverse.find? fun entry => entry.1.isNumber pack.val.packIndex with
  | some entry => .ok entry.2
  | none => .error (.raised .keyError (toString pack.val.packIndex))

def parsePack (prepared : PreparedTask) (entries : List (PyValue × PyValue))
    (pack : PackedRequest) : Except PyError PyValue := do
  let output ← byIndex entries pack
  let result ← app.parse output prepared.val.definition
  match result with
  | .error failure => throw (validationFailure failure.val.code.value (failureDetails app failure))
  | .ok records => return record [
      ("pack_index", .int pack.val.packIndex),
      ("records", .tuple (records.map .frozenMapping))]

def parseResponses (prepared : PreparedTask) (responses : PyValue) : Except PyError PyValue := do
  let items ← responses.iterate
  let entries ← items.mapM (decodeResponse app)
  let parsed ← prepared.val.packs.mapM (parsePack app prepared entries)
  return .tuple parsed

/-- The pack outputs of `_validate_responses` from accepted records: each pack takes as
many as it has inputs. -/
def sliceOutputs : List PackedRequest → List PyValue → List (PackedRequest × PyValue)
  | [], _ => []
  | pack :: rest, records =>
    (pack, .tuple (records.take pack.val.inputIds.length)) ::
      sliceOutputs rest (records.drop pack.val.inputIds.length)

def indexedOutputs (packs : List PackedRequest) (parsed : PyValue) :
    Except PyError (List (PackedRequest × PyValue)) := do
  let items ← parsed.iterate
  let entries ← items.mapM fun item => do
    let packIndex ← item.item "pack_index"
    let records ← item.item "records"
    packIndex.hashable
    return (packIndex, records)
  packs.mapM fun pack => do return (pack, ← byIndex entries pack)

def packOutputs (packs : List PackedRequest) (parsed : PyValue) (acceptedFlat : Bool) :
    Except PyError (List (PackedRequest × PyValue)) :=
  if acceptedFlat then sliceOutputs packs <$> parsed.iterate else indexedOutputs packs parsed

def validateResponses (prepared : PreparedTask) (parsed : PyValue) (context : ExecutionContext)
    (acceptedFlat : Bool) : Action ValidationResult := do
  let outputs ← packOutputs prepared.val.packs parsed acceptedFlat
  ask fun n => app.validatePacks n prepared outputs context

end Outputs

section WriteBack

def writtenField (function : Option TaskFunction) : String :=
  if function = some .summarize then "summary" else "label"

/-- `validation.accepted_records[0][field]`. -/
def writtenValue (validation : ValidationResult) (field : String) : Except PyError FrozenValue :=
  match validation.val.acceptedRecords with
  | [] => .error (.raised .indexError "tuple index out of range")
  | first :: _ => (FrozenMapping.get first field).elim (.error (PyValue.missing field)) .ok

def writeBackCommand (claim : WorkClaim) (validation : ValidationResult)
    (function : Option TaskFunction) : Except PyError WriteBackCommand := do
  let field := writtenField function
  let value ← writtenValue validation field
  Checked.make WriteBackCommand.postInit {
    claim := claim
    validation := validation
    policyVersion := if field = "summary" then "write-policy-summary" else "write-policy-1"
    approvalReference := if field = "summary" then "approval-summary" else "approval-1"
    dataScope := "prototype"
    targetDataset := "results"
    rowScope := "id=" ++ claim.item.val.itemId
    columns := .singleton field
    mutationType := .update
    parameters := [(field, value)]
    boundary := .shared }

/-- The `PERSISTED` branch of `_write_accepted`. -/
def succeed (claim : WorkClaim) (outcome : WriteBackExecutionResult) : Action BulkStageResult := do
  let data ← getObject app outcome.outputReference
  let result ← Checked.make WorkItemExecutionResult.postInit {
    state := .succeeded
    result := some data }
  let record ← BulkWorkExecutor.executeClaim app.toEnvironment claim fun _ => return result
  return { action := .terminal, terminal := some record, outcome := outcome.status.value }

def afterWriteBack (claim : WorkClaim) (outcome : WriteBackExecutionResult) :
    Action BulkStageResult :=
  match outcome.status with
  | .committed | .recovered => return {
      action := .checkpointed
      checkpointStage := some .completed
      outcome := outcome.status.value }
  | .persisted => succeed app claim outcome
  | _ => terminal app claim .writeBackFailed outcome.status.value
      (",".intercalate outcome.reasonCodes) outcome.status.value

def writeAccepted (claim : WorkClaim) (context : ExecutionContext) (validation : ValidationResult)
    (function : Option TaskFunction) : Action BulkStageResult := do
  let command ← writeBackCommand claim validation function
  let outcome ← BatchWriteBackExecutor.execute app.toEnvironment command context
  modify fun w =>
    { w with statuses := w.statuses.insert claim.item.val.itemId outcome.status.value }
  afterWriteBack app claim outcome

end WriteBack

section Stages

variable (claim : WorkClaim) (context : ExecutionContext)

def unsupportedStage : Action BulkStageResult :=
  throw (.raised .runtimeError "unsupported resume stage: None")

/-- `json.loads(self._app.objects.get(claim.item.result_reference))`, validated. -/
def validateLegacy : Action ValidationResult := do
  let data ← getObject app claim.item.val.resultReference
  let output ← app.jsonLoads data
  ask fun n => app.validate n [claim.item.val.itemId] [output] context

def processLegacy : Option CheckpointStage → Action BulkStageResult
  | some .accepted => checkpoint app claim .accepted "accepted" none
  | some .modelCompleted =>
    checkpoint app claim .modelCompleted "model_succeeded" (some claim.item.val.payloadReference)
  | some .resultStored =>
    checkpoint app claim .resultStored "result_stored" claim.item.val.resultReference
  | some .validated => do
    let validation ← validateLegacy app claim context
    if validation.val.outcome.accepted then
      checkpoint app claim .validated "accepted" claim.item.val.resultReference
    else
      terminal app claim .validationFailed "validation_failed" "invalid output"
        "validation_failed"
  | some .completed => do
    let validation ← validateLegacy app claim context
    writeAccepted app claim context validation none
  | none => unsupportedStage

/-- `reason_codes or failed_rule_ids`, joined. -/
def rejectionDetails (outcome : ValidationOutcome) : String :=
  ",".intercalate (if outcome.reasonCodes = [] then outcome.failedRuleIds else outcome.reasonCodes)

def processTask : Option CheckpointStage → Action BulkStageResult
  | some .accepted => do
    let prepared ← prepareTask app claim context
    let value ← preparedValue app prepared
    let reference ← putValue app value
    checkpoint app claim .accepted "task_prepared" (some reference)
  | some .modelCompleted => do
    let prepared ← loadPrepared app claim.item.val.resultReference
    let responses ← invokePacks app (claimKey claim) context prepared
    let reference ← putValue app responses
    checkpoint app claim .modelCompleted "model_succeeded" (some reference)
  | some .resultStored => do
    let prepared ← preparedFromAcceptedCheckpoint app claim
    let responses ← loadJson app claim.item.val.resultReference
    let parsed ← parseResponses app prepared responses
    let reference ← putValue app parsed
    checkpoint app claim .resultStored "parsed" (some reference)
  | some .validated => do
    let prepared ← preparedFromAcceptedCheckpoint app claim
    let parsed ← loadJson app claim.item.val.resultReference
    let validation ← validateResponses app prepared parsed context false
    if validation.val.outcome.accepted then
      let accepted := validation.val.acceptedRecords.map fun entries =>
        record (entries.map fun (name, value) => (name, value.object))
      let reference ← putValue app (.tuple accepted)
      checkpoint app claim .validated "accepted" (some reference)
    else
      throw (validationFailure "validation_failed" (rejectionDetails validation.val.outcome))
  | some .completed => do
    let prepared ← preparedFromAcceptedCheckpoint app claim
    let accepted ← loadJson app claim.item.val.resultReference
    let validation ← validateResponses app prepared accepted context true
    writeAccepted app claim context validation (some prepared.val.invocation.val.function)
  | none => unsupportedStage

def noteStage (key : Key) (stage : Option CheckpointStage) : Action Unit :=
  modify fun w => { w with stageRuns := w.stageRuns ++ [{
    key := key
    recorded := w.store.recordedStages key
    stage := stage }] }

def stageBody : Action BulkStageResult := do
  let state ← onStore
    (WorkRepository.resumeState claim.item.val.jobId claim.item.val.idempotencyKey)
  noteStage (claimKey claim) state.nextStage
  let task ← isTask app claim.item.val.payloadReference
  if task then processTask app claim context state.nextStage
  else processLegacy app claim context state.nextStage

/-- The handlers of `process_stage`. -/
def stageFailure (error : PyError) : Option (Action BulkStageResult) :=
  match error with
  | .interrupt => none
  | .bulkTaskFailure failure =>
    some (terminal app claim failure.state failure.code failure.details failure.code)
  | .securityRejection code message =>
    some (terminal app claim .policyRejected code message "policy_rejected")
  | error =>
    some (terminal app claim .retryExhausted error.typeName error.text "retry_exhausted")

def processStage : Action BulkStageResult :=
  Program.handling (stageBody app claim context) (stageFailure app claim)

end Stages

end BulkPipeline

end AiRetrieval
