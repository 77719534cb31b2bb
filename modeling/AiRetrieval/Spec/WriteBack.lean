import AiRetrieval.Spec.Effects
import AiRetrieval.Spec.Execution
import AiRetrieval.Spec.MutationDigest

/-! `write_back/executor.py`: the approval gate, the request it builds for the effect
recovery coordinator, and the audit event of every outcome. -/

namespace AiRetrieval

open AiRetrieval.Action

namespace BatchWriteBackExecutor

variable (env : Environment)

def sortedByRepr (values : List PyValue) : Except PyError (List PyValue) := do
  let keyed ← values.mapM fun value => do return (← env.repr value, value)
  return (keyed.insertionSort fun a b => a.1 ≤ b.1).map Prod.snd

mutual

def plain : FrozenValue → Except PyError PyValue
  | .none => .ok .none
  | .bool value => .ok (.bool value)
  | .int value => .ok (.int value)
  | .float value => .ok (.float value)
  | .str value => .ok (.str value)
  | .tuple items => .list <$> plainItems items
  | .frozenset items => do return .list (← sortedByRepr env (← plainItems items))
  | .mapping items => .dict <$> plainEntries items

def plainItems : List FrozenValue → Except PyError (List PyValue)
  | [] => .ok []
  | value :: rest => do return (← plain value) :: (← plainItems rest)

def plainEntries : List (String × FrozenValue) → Except PyError (List (PyValue × PyValue))
  | [] => .ok []
  | (key, value) :: rest => do return (.str key, ← plain value) :: (← plainEntries rest)

end

def canonicalOutput (validation : ValidationResult) : Except PyError Bytes := do
  let records ← validation.val.acceptedRecords.mapM fun record => plain env (.mapping record)
  encodeText (← env.jsonDumps (.tuple records))

def writeBackEnabled (context : ExecutionContext) : Option FrozenValue :=
  match context.configuration.content.get "write_back" with
  | some (.mapping entries) => FrozenMapping.get entries "enabled"
  | _ => none

/-- `sha256(value.encode("utf-8")).hexdigest()`. -/
def textDigest (value : String) : Except PyError String := do
  return env.sha256 (← encodeText (env.points value))

def mutationDigest (command : WriteBackCommand) (payload : Bytes) : Except PyError String := do
  let parameters ← CommandMutation.reprsOf (fun value => CodeText.ofString <$> env.repr value)
    (command.val.parameters.map fun item => (env.points item.1, item.2.object))
  CommandMutation.digestOf env.sha256 (CommandMutation.canonical
    (env.points command.val.dataScope) (env.points command.val.targetDataset)
    (env.points command.val.rowScope)
    ((command.val.columns.items.map env.points).insertionSort (· ≤ ·))
    (CodeText.ofString command.val.mutationType.value) parameters
    (CodeText.ofString (env.sha256 payload)))

def effectRequest (command : WriteBackCommand) (payload : Bytes) :
    Except PyError EffectRequest := do
  let rowScopeDigest ← textDigest env command.val.rowScope
  let mutationDigest ← mutationDigest env command payload
  Checked.make EffectRequest.postInit {
    claim := command.val.claim
    effect := {
      effectId := command.val.claim.item.val.idempotencyKey
      operation := .node command.val.mutationType [] (some command.val.targetDataset)
      parameters := command.val.parameters }
    targetDataset := command.val.targetDataset
    rowScopeDigest := rowScopeDigest
    mutationDigest := mutationDigest
    boundary := command.val.boundary }

def proposedScope (command : WriteBackCommand) (context : ExecutionContext)
    (validFrom validUntil : DateTime) : Except PyError WriteBackScope :=
  let item := command.val.claim.item
  Checked.make WriteBackScope.postInit {
    jobId := item.val.jobId
    itemScope := .singleton item.val.itemId
    dataScope := command.val.dataScope
    targetDataset := command.val.targetDataset
    rowScope := command.val.rowScope
    columns := command.val.columns
    mutationType := command.val.mutationType
    validationRulesVersion := command.val.validation.val.outcome.rulesVersion
    configurationVersion := context.configuration.reference.val.version
    validFrom := validFrom
    validUntil := validUntil }

/-- The fields of `_SCOPE_FIELDS` in which two scopes differ. -/
def scopeMismatches (a b : WriteBackScope) : List String :=
  [("job_id", decide (a.val.jobId = b.val.jobId)),
    ("item_scope", decide (a.val.itemScope = b.val.itemScope)),
    ("data_scope", decide (a.val.dataScope = b.val.dataScope)),
    ("target_dataset", decide (a.val.targetDataset = b.val.targetDataset)),
    ("row_scope", decide (a.val.rowScope = b.val.rowScope)),
    ("columns", decide (a.val.columns = b.val.columns)),
    ("mutation_type", decide (a.val.mutationType = b.val.mutationType)),
    ("validation_rules_version",
      decide (a.val.validationRulesVersion = b.val.validationRulesVersion)),
    ("configuration_version", decide (a.val.configurationVersion = b.val.configurationVersion)),
    ("valid_from", decide (a.val.validFrom = b.val.validFrom)),
    ("valid_until", decide (a.val.validUntil = b.val.validUntil))].filterMap
    fun (name, same) => if same then none else some name

def approvalFailures (command : WriteBackCommand) (context : ExecutionContext)
    (snapshot : AuthorizationSnapshot) (now : DateTime) : Except PyError (List String) :=
  match snapshot.policy, snapshot.approval with
  | none, _ => .ok ["policy_missing"]
  | some _, none => .ok ["approval_missing"]
  | some policy, some approval => do
    let scope := policy.val.scope
    let proposed ← proposedScope command context scope.val.validFrom scope.val.validUntil
    let begun ← proposed.val.validFrom.notAfter now
    let valid ← if begun then now.before proposed.val.validUntil else .ok false
    return List.eraseDups (
      (if policy.val.active then [] else ["policy_inactive"]) ++
      (if approval.val.revoked then ["approval_revoked"] else []) ++
      (if approval.val.policyVersion ≠ policy.val.version ∨
          policy.val.version ≠ command.val.policyVersion
            then ["policy_version_mismatch"] else []) ++
      (scopeMismatches scope proposed).map (fun field => "policy_" ++ field ++ "_mismatch") ++
      (scopeMismatches approval.val.scope proposed).map
        (fun field => "approval_" ++ field ++ "_mismatch") ++
      (if valid then [] else ["approval_outside_validity_interval"]))

def auditOutcome (result : WriteBackExecutionResult) : WriteBackAuditOutcome :=
  match result.status with
  | .committed => .commit
  | .recovered => .recoveryDuplicate
  | .reconciliationRequired => .reconciliation
  | .writeBackFailed =>
    if "precommit_transaction_rolled_back" ∈ result.reasonCodes then .rollback else .failure
  | .validationRejected | .persisted | .approvalRejected => .withheld

/-- The row scope of an audit event, which is digested where there is no request. -/
def auditedRowScope (command : WriteBackCommand) (request : Option EffectRequest) :
    Except PyError String :=
  request.elim (textDigest env command.val.rowScope) fun request => .ok request.val.rowScopeDigest

/-- The audit event of a result, once its row scope is digested and the clock is read. -/
def auditEvent (command : WriteBackCommand) (context : ExecutionContext)
    (snapshot : Option AuthorizationSnapshot) (result : WriteBackExecutionResult)
    (request : Option EffectRequest) (rowScopeDigest : String) (now : DateTime) :
    WriteBackAuditEvent.Fields where
  correlationId := context.correlationId.val
  jobId := command.val.claim.item.val.jobId
  itemId := command.val.claim.item.val.itemId
  idempotencyKey := command.val.claim.item.val.idempotencyKey
  approvalReference := command.val.approvalReference
  approvalAuthority := ((snapshot.bind (·.approval)).map (·.val.authority)).getD "unavailable"
  policyVersion := command.val.policyVersion
  targetDataset := command.val.targetDataset
  rowScopeDigest := rowScopeDigest
  effectDigest := (request.map (·.val.mutationDigest)).getD "unavailable"
  columns := command.val.columns.items
  mutationType := command.val.mutationType.value
  validationRulesVersion := command.val.validation.val.outcome.rulesVersion
  configurationVersion := context.configuration.reference.val.version
  outcome := auditOutcome result
  timestamp := now
  reasonCodes := if result.reasonCodes = [] then [result.status.value] else result.reasonCodes

/-- `_emit_audit`; only the append is guarded. -/
def emitAudit (command : WriteBackCommand) (context : ExecutionContext)
    (snapshot : Option AuthorizationSnapshot) (result : WriteBackExecutionResult)
    (request : Option EffectRequest) : Action Unit := do
  let rowScopeDigest ← auditedRowScope env command request
  let now ← ask env.clock
  let event ← Checked.make WriteBackAuditEvent.postInit
    (auditEvent command context snapshot result request rowScopeDigest now)
  Program.handling (ask fun n => env.audit n event) fun error =>
    BulkWorkExecutor.caught error (pure ())

def requireBulkClaim (command : WriteBackCommand) (context : ExecutionContext) :
    Except PyError Unit := do
  require (context.path = .bulk)
    (.valueError "write-back executor requires a bulk execution context")
  require (command.val.claim.item.val.configuration = context.configuration.reference)
    (.valueError "write-back context must use the work item's bound configuration")

def reportedStatus : EffectRecoveryStatus → WriteBackExecutionStatus
  | .committed => .committed
  | .recovered => .recovered
  | .reconciliationRequired => .reconciliationRequired
  | .writeBackFailed => .writeBackFailed

def rejectionCodes (outcome : ValidationOutcome) : List String :=
  if outcome.reasonCodes = [] then ["validation_failed"] else outcome.reasonCodes

section Execute

variable (command : WriteBackCommand) (context : ExecutionContext)

def finish (snapshot : Option AuthorizationSnapshot) (request : Option EffectRequest)
    (result : WriteBackExecutionResult) : Action WriteBackExecutionResult := do
  emitAudit env command context snapshot result request
  return result

/-- The result of effect recovery; an exception of it is a failed write-back. -/
def recoveryResult (outputReference : ObjectReference) :
    Except PyError EffectRecoveryResult → WriteBackExecutionResult
  | .error error => {
      status := .writeBackFailed
      reasonCodes := ["effect_execution_failure:" ++ error.typeName]
      outputReference := some outputReference }
  | .ok recovered => {
      status := reportedStatus recovered.val.status
      reasonCodes := [recovered.val.reasonCode]
      outputReference := some outputReference
      effect := some recovered }

/-- The part of `execute` from the approval check on. -/
def executeApproved (payload : Bytes) (outputReference : ObjectReference) :
    Action WriteBackExecutionResult := do
  let request ← effectRequest env command payload
  let snapshot ← ask fun n =>
    env.authorization n command.val.policyVersion command.val.approvalReference
  let checkedAt ← ask env.clock
  let reasons ← approvalFailures command context snapshot checkedAt
  if reasons ≠ [] then
    finish env command context (some snapshot) (some request) {
      status := .approvalRejected
      reasonCodes := reasons
      outputReference := some outputReference }
  else
    let recovered ← Program.attempt (EffectRecoveryCoordinator.execute env request context)
    match recovered with
    -- the process is stopped inside the recovery
    | .error .interrupt => throw .interrupt
    | recovered =>
      finish env command context (some snapshot) (some request)
        (recoveryResult outputReference recovered)

/-- The body of `execute`. -/
def perform : Action WriteBackExecutionResult := do
  requireBulkClaim command context
  let validation := command.val.validation
  if validation.val.outcome.accepted = false then
    finish env command context none none {
      status := .validationRejected
      reasonCodes := rejectionCodes validation.val.outcome }
  else if some validation.val.outcome.rulesVersion ≠
      context.configuration.validationRulesVersion then
    finish env command context none none {
      status := .validationRejected
      reasonCodes := ["validation_version_not_bound"] }
  else
    let payload ← canonicalOutput env validation
    let outputReference ← onObjects (ObjectResultStore.putResult env.sha256 payload)
    match writeBackEnabled context with
    | some (.bool true) => executeApproved env command context payload outputReference
    | some (.bool false) =>
      finish env command context none none {
        status := .persisted
        reasonCodes := ["write_back_disabled"]
        outputReference := some outputReference }
    | _ =>
      finish env command context none none {
        status := .approvalRejected
        reasonCodes := ["write_back_setting_unavailable"]
        outputReference := some outputReference }

/-- `execute`, noted in the world's history when it returns. -/
def execute : Action WriteBackExecutionResult := do
  let started ← get
  let result ← perform env command context
  modify fun w => { w with writeBacks := w.writeBacks ++ [{
    command := command
    context := context
    before := started.store
    moment := started.moment
    status := result.status
    after := w.store }] }
  return result

end Execute

end BatchWriteBackExecutor

end AiRetrieval
