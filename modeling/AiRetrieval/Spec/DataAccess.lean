import AiRetrieval.Library.Dictionaries
import AiRetrieval.Library.Histories
import AiRetrieval.Library.Programs
import AiRetrieval.Spec.Failures
import AiRetrieval.Spec.Normalization

/-! `relational/plans.py` and `relational/data_access.py`: the allowlist of plans, and the one
read path, which submits a plan to the adapter only after a row of checks. -/

namespace AiRetrieval

mutual

/-- `==` of two operation trees. -/
def OperationNode.same : OperationNode → OperationNode → Bool
  | .node kind children dataset, .node kind' children' dataset' =>
    decide (kind = kind') && OperationNode.sameAll children children' && decide (dataset = dataset')

def OperationNode.sameAll : List OperationNode → List OperationNode → Bool
  | [], [] => true
  | a :: as, b :: bs => OperationNode.same a b && OperationNode.sameAll as bs
  | _, _ => false

end

mutual

def OperationNode.kinds : OperationNode → List OperationKind
  | .node kind children _ => kind :: OperationNode.kindsAll children

def OperationNode.kindsAll : List OperationNode → List OperationKind
  | [] => []
  | child :: rest => OperationNode.kinds child ++ OperationNode.kindsAll rest

end

def classifyOperation (operation : OperationNode) : OperationClassification :=
  if operation.kinds.any fun kind => kind ∈ mutationOperations then .mutation
  else if operation.kinds.all fun kind => kind ∈ retrievalOperations then .retrieval
  else .unsupported

def QueryPlan.same (a b : QueryPlan) : Prop :=
  a.val.reference = b.val.reference ∧ a.val.operation.same b.val.operation ∧
    a.val.parameterSchema = b.val.parameterSchema ∧
    a.val.requiredCapabilities = b.val.requiredCapabilities ∧
    a.val.deterministicOrder = b.val.deterministicOrder ∧
    a.val.intrinsicallyOrdered = b.val.intrinsicallyOrdered ∧ a.val.maxRows = b.val.maxRows ∧
    a.val.maxBytes = b.val.maxBytes ∧ a.val.authorizedDatasets = b.val.authorizedDatasets

instance (a b : QueryPlan) : Decidable (a.same b) := inferInstanceAs (Decidable (_ ∧ _))

abbrev QueryPlanRegistry := Dict QueryPlanReference QueryPlan

namespace QueryPlanRegistry

def register (registry : QueryPlanRegistry) (plan : QueryPlan) :
    Except PyError QueryPlanRegistry :=
  match registry.get? plan.val.reference with
  | some existing =>
    if existing.same plan then .ok (registry.insert plan.val.reference plan)
    else .error (.valueError ("query plan " ++ plan.val.reference.val.planId ++ "@" ++
      plan.val.reference.val.version ++ " is immutable"))
  | none => .ok (registry.insert plan.val.reference plan)

def resolve (registry : QueryPlanRegistry) (reference : QueryPlanReference) : Option QueryPlan :=
  registry.get? reference

end QueryPlanRegistry

/-- `', '.join(sorted(values))` of a set. -/
def joined (values : List String) : String :=
  ", ".intercalate (values.dedup.insertionSort (· ≤ ·))

def RelationalValue.matchesType : RelationalValue → NormalizedType → Bool
  | .str _, .string => true
  | .int _, .integer => true
  | .int _, .decimal => true
  | .decimal _, .decimal => true
  | .bool _, .boolean => true
  | .date _, .date => true
  | .datetime _, .datetime => true
  | .bytes _, .binary => true
  | _, _ => false

/-- The parameters supplied to a plan, or bound to it. -/
abbrev Parameters := Dict String RelationalValue

def bindParameter (plan : QueryPlan) (entry : String × RelationalValue) : Except PyError Unit :=
  match plan.val.parameterSchema.find? fun item => item.val.name = entry.1 with
  | none => .error (.raised .keyError entry.1)
  | some specification =>
    match entry.2 with
    | .none => require (specification.val.nullable = true)
        (.valueError ("parameter " ++ entry.1 ++ " must not be null"))
    | value => require (value.matchesType specification.val.valueType = true)
        (.valueError ("parameter " ++ entry.1 ++ " must be " ++ specification.val.valueType.value))

/-- `bind_parameters`; what it binds are the items supplied. -/
def bindParameters (plan : QueryPlan) (supplied : Parameters) : Except PyError Parameters := do
  let names := plan.val.parameterSchema.map (·.val.name)
  let unknown := supplied.keys.filter fun name => name ∉ names
  let missing := (plan.val.parameterSchema.filter fun item =>
    item.val.required ∧ item.val.name ∉ supplied.keys).map (·.val.name)
  require (unknown = []) (.valueError ("unknown parameters: " ++ joined unknown))
  require (missing = []) (.valueError ("missing parameters: " ++ joined missing))
  let _ ← supplied.entries.mapM (bindParameter plan)
  return supplied

structure DatabaseAccessDecision where
  allowed : Bool
  credentialId : String
  serviceIdentity : String
  policyVersion : String
  reasonCode : String
  transportEncryption : Option String
  persistenceEncryption : Option String
  deriving DecidableEq

structure SecurityAuditEvent where
  correlationId : String
  configurationVersion : String
  policyVersion : String
  serviceIdentity : String
  decision : String
  reasonCode : String
  timestamp : DateTime
  operationClassification : OperationClassification
  planReference : QueryPlanReference
  redactedDetails : String := "[REDACTED]"
  deriving DecidableEq

/-- One call of the adapter's `execute_read`. -/
structure Submission where
  plan : QueryPlan
  parameters : Parameters
  access : DatabaseAccessDecision
  context : ExecutionContext

/-- What the layer is made with. Each answer of the outside is a function of the number of
answers given before. -/
structure DataAccessPorts where
  runtime : RelationalRuntime
  /-- `contract.capabilities`. -/
  contract : FrozenSet
  adapterVersion : String
  clock : Nat → DateTime
  capabilities : Nat → Except PyError FrozenSet
  authorizeRead : Nat → String → QueryPlan → ExecutionContext →
    Except PyError DatabaseAccessDecision
  executeRead : Nat → Submission → Except PyError RawRelationalResult
  emit : Nat → SecurityAuditEvent → Except PyError Unit

structure DataAccessState where
  plans : QueryPlanRegistry
  moment : Nat
  /-- What was submitted to the adapter, oldest first. -/
  submissions : List Submission
  /-- What was handed to the audit sink, oldest first. -/
  events : List SecurityAuditEvent

def DataAccessState.empty : DataAccessState := ⟨.empty, 0, [], []⟩

/-- `DataAccessRejection`, or what the layer does not catch. -/
inductive DataAccessError where
  | rejection (failure : TypedFailure)
  | raised (error : PyError)
  deriving DecidableEq

abbrev DataAccess := Program DataAccessError DataAccessState

namespace DataAccessLayer

/-- The next answer of the outside. -/
def ask {α : Type} (answer : Nat → Except PyError α) : DataAccess α := do
  let s ← get
  set { s with moment := s.moment + 1 }
  liftM ((answer s.moment).mapError DataAccessError.raised)

def reject {α : Type} (code : FailureCode) (message : String) : DataAccess α :=
  throw (.rejection { code := code, message := message })

variable (ports : DataAccessPorts)

def rejectionEvent (context : ExecutionContext) (plan : QueryPlan) (reason : String)
    (access : Option DatabaseAccessDecision) (now : DateTime) : SecurityAuditEvent where
  correlationId := context.correlationId.val
  configurationVersion := context.configuration.reference.val.version
  policyVersion := match access with
    | some access => access.policyVersion
    | none => match context.configuration.securityPolicyVersion with
      | some version => if version = "" then "unavailable" else version
      | none => "unavailable"
  serviceIdentity := (access.map (·.serviceIdentity)).getD "unavailable"
  decision := "rejected"
  reasonCode := reason
  timestamp := now
  operationClassification := classifyOperation plan.val.operation
  planReference := plan.val.reference

/-- `_security_reject`; the rejection is raised whatever becomes of the event. -/
def securityReject {α : Type} (context : ExecutionContext) (plan : QueryPlan) (code : FailureCode)
    (reason : String) (access : Option DatabaseAccessDecision) : DataAccess α := do
  let now ← ask fun n => .ok (ports.clock n)
  let event := rejectionEvent context plan reason access now
  modify fun s => { s with events := s.events ++ [event] }
  let _ ← Program.attempt (ask fun n => ports.emit n event)
  reject code reason

def requiredCapabilities (plan : QueryPlan) : List String :=
  plan.val.requiredCapabilities.items ++
    plan.val.operation.kinds.map fun kind => "operation:" ++ kind.value

/-- `required - available`. -/
def lacking (plan : QueryPlan) (available : FrozenSet) : List String :=
  (requiredCapabilities plan).filter fun capability => capability ∉ available.items

/-- The credential `_credential_id` returns, if it does not reject. -/
def credential? (context : ExecutionContext) : Option String :=
  match FrozenMapping.get context.configuration.content "database" with
  | some (.mapping database) =>
    match FrozenMapping.get database "read_only_credential_id" with
    | some (.str credential) => if blank credential then none else some credential
    | _ => none
  | _ => none

def credentialId (context : ExecutionContext) : DataAccess String :=
  match credential? context with
  | some credential => return credential
  | none => reject .readOnlyCredentialRequired "bound read-only credential is unavailable"

/-- `not value`, of an optional text. -/
def absent (value : Option String) : Bool := value.getD "" = ""

/-- The part of `execute_read` that submits the plan. -/
def submit (plan : QueryPlan) (bound : Parameters) (access : DatabaseAccessDecision)
    (context : ExecutionContext) : DataAccess NormalizedResult := do
  let submission : Submission := ⟨plan, bound, access, context⟩
  modify fun s => { s with submissions := s.submissions ++ [submission] }
  let raw ← ask fun n => ports.executeRead n submission
  let protection : ProtectionMetadata := ⟨access.policyVersion, access.serviceIdentity,
    access.transportEncryption.getD "", access.persistenceEncryption.getD ""⟩
  match Normalization.normalizeResult ports.runtime raw plan protection ports.adapterVersion with
  | .ok result => return result
  | .error (.normalizationError message) => reject .resultNormalizationFailed message
  | .error (.raised error) => throw (.raised error)

/-- The part of `execute_read` from the authorization on. -/
def authorize (plan : QueryPlan) (bound : Parameters) (credential : String)
    (context : ExecutionContext) : DataAccess NormalizedResult := do
  let access ← ask fun n => ports.authorizeRead n credential plan context
  if access.allowed = false ∨ access.credentialId ≠ credential then
    securityReject ports context plan .databaseAccessDenied access.reasonCode (some access)
  else if blank access.serviceIdentity then
    securityReject ports context plan .databaseAuthenticationFailed "service_identity_missing"
      (some access)
  else if absent access.transportEncryption ∨ absent access.persistenceEncryption then
    securityReject ports context plan .databaseProtectionRequired "encryption_metadata_missing"
      (some access)
  else submit ports plan bound access context

/-- The part of `execute_read` from the ordering on. -/
def bindAndAuthorize (plan : QueryPlan) (parameters : Parameters) (context : ExecutionContext) :
    DataAccess NormalizedResult := do
  if plan.val.intrinsicallyOrdered = false ∧ plan.val.deterministicOrder = [] then
    reject .nondeterministicOrder "comparable results require deterministic ordering"
  else
    let credential ← credentialId context
    if context.path ≠ .interactive then
      reject .readOnlyCredentialRequired "read DAL accepts interactive execution context only"
    else
      match bindParameters plan parameters with
      | .error (.raised .valueError message) => reject .invalidQueryParameters message
      | .error error => throw (.raised error)
      | .ok bound => authorize ports plan bound credential context

def executePlan (plan : QueryPlan) (parameters : Parameters) (context : ExecutionContext) :
    DataAccess NormalizedResult := do
  match classifyOperation plan.val.operation with
  | .mutation =>
    securityReject ports context plan .mutationBlocked "mutation_operation" none
  | .unsupported =>
    reject .unsupportedOperation "query plan contains an unsupported operation"
  | .retrieval =>
    if lacking plan ports.contract ≠ [] then
      reject .unsupportedCapability
        ("capabilities absent from contract: " ++ joined (lacking plan ports.contract))
    else
      let available ← ask ports.capabilities
      if lacking plan available ≠ [] then
        reject .unsupportedCapability
          ("adapter lacks capabilities: " ++ joined (lacking plan available))
      else bindAndAuthorize ports plan parameters context

def executeRead (reference : QueryPlanReference) (parameters : Parameters)
    (context : ExecutionContext) : DataAccess NormalizedResult := do
  match (← get).plans.resolve reference with
  | none => reject .queryPlanUnavailable ("query plan " ++ reference.val.planId ++ "@" ++
      reference.val.version ++ " is not allowlisted")
  | some plan => executePlan ports plan parameters context

end DataAccessLayer

inductive DataAccessCall where
  | register (plan : QueryPlan)
  | executeRead (reference : QueryPlanReference) (parameters : Parameters)
    (context : ExecutionContext)

inductive DataAccessReply where
  | registered
  | result (result : NormalizedResult)

def DataAccessCall.program (ports : DataAccessPorts) : DataAccessCall → DataAccess DataAccessReply
  | .register plan => do
    let s ← get
    let plans ← liftM ((s.plans.register plan).mapError DataAccessError.raised)
    set { s with plans := plans }
    return .registered
  | .executeRead reference parameters context =>
    .result <$> DataAccessLayer.executeRead ports reference parameters context

/-- The layer and its registry, at whose plans both are called in any order. -/
def dataAccessMachine (ports : DataAccessPorts) :
    Machine DataAccessCall (Except DataAccessError DataAccessReply) DataAccessState :=
  fun call s => (call.program ports).exec s

end AiRetrieval
