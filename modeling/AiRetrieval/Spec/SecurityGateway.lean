import AiRetrieval.Library.Programs
import AiRetrieval.Spec.Concealment

/-! `security/gateway.py`: the policies by version, and the invocation of a provider that
every decision of the bound policy must allow. -/

namespace AiRetrieval

abbrev SecurityPolicyRegistry := Dict String SecurityPolicy

namespace SecurityPolicyRegistry

/-- `get(version) if version else None`. -/
def resolve (registry : SecurityPolicyRegistry) (version : Option String) :
    Option SecurityPolicy :=
  version.bind fun version => if version = "" then none else registry.get? version

end SecurityPolicyRegistry

/-- What the gateway asks, and what becomes of what it hands out. -/
structure GatewayPorts where
  /-- `str(key)` of a key that is no text. -/
  textOf : PyValue → String
  isoformat : DateTime → String
  clock : Except PyError DateTime
  authenticate : String → String → ExecutionContext → Except PyError AuthenticationResult
  invoke : SecuredModelRequest → ExecutionContext → Except PyError PyValue
  emit : FrozenMapping → Except PyError Unit

/-- What was handed to the provider and to the telemetry sink so far. -/
structure Disclosures where
  requests : List SecuredModelRequest
  events : List FrozenMapping

abbrev Disclosing := Program PyError Disclosures

/-- The policy `_reject` redacts with when none is bound. -/
def unavailablePolicy : SecurityPolicy := ⟨{
  version := "unavailable"
  available := false
  valid := false
  decision := .deny
  allowedProviderIds := .none
  allowedDataClasses := .none
  sensitiveFields := .none }, by decide +kernel⟩

namespace ProtectedModelInvoker

variable (ports : GatewayPorts)

/-- `ObservabilityService.emit`. -/
def emit (event : TelemetryEvent) (policy : RedactionPolicy) : Disclosing Unit := do
  let serialized ← serializeRedacted ports.textOf ports.isoformat event policy
  modify fun s => { s with events := s.events ++ [serialized] }
  ports.emit serialized

def rejectionDetails (policy : Option SecurityPolicy) (serviceIdentity reason : String) :
    Except PyError FrozenMapping :=
  (PyValue.dict [
    (.str "policy_version", .str ((policy.map (·.val.version)).getD "unavailable")),
    (.str "service_identity",
      .str (if serviceIdentity = "" then "unavailable" else serviceIdentity)),
    (.str "decision", .str "rejected"),
    (.str "reason_code", .str reason)]).freeze >>= PyValue.asserted

/-- `_reject`; the rejection is raised whatever became of the event. -/
def reject (context : ExecutionContext) (policy : Option SecurityPolicy)
    (serviceIdentity reason code : String) : Disclosing PyValue := do
  let redaction ← (policy.getD unavailablePolicy).redactionPolicy
  let details ← rejectionDetails policy serviceIdentity reason
  let now ← ports.clock
  let event ← Checked.make TelemetryEvent.postInit {
    correlationId := context.correlationId.val
    timestamp := now
    eventType := "security_decision"
    component := "security"
    outcome := "rejected"
    configurationVersion := context.configuration.reference.val.version
    details := details }
  let _ ← Program.attempt (emit ports event redaction)
  throw (.securityRejection code reason)

/-- `value or ""`, as a text that may be missing is tested. -/
def given (value : Option String) : Bool := value.getD "" ≠ ""

/-- The request `invoke` builds once every decision allowed it. -/
def secure (operation : ModelOperation) (candidate : ModelCandidate) (payload : PyValue)
    (serviceIdentity : String) (policy : SecurityPolicy) : Except PyError SecuredModelRequest := do
  let frozen ← (mask ports.textOf payload policy []).freeze >>= PyValue.asserted
  let encryption ← Checked.make EncryptionMetadata.postInit {
    transport := policy.val.transportEncryption.getD ""
    persistence := policy.val.persistenceEncryption.getD "" }
  Checked.make SecuredModelRequest.postInit {
    operation := operation
    candidate := candidate
    payload := frozen
    serviceIdentity := serviceIdentity
    policyVersion := policy.val.version
    dataClasses := operation.val.dataClasses
    encryption := encryption }

/-- The part of `invoke` from the authentication on. -/
def discloseTo (operation : ModelOperation) (candidate : ModelCandidate) (payload : PyValue)
    (serviceIdentity : String) (context : ExecutionContext) (policy : SecurityPolicy) :
    Disclosing PyValue := do
  let authentication ← ports.authenticate serviceIdentity candidate.val.providerId context
  if authentication.authenticated = false ∨ authentication.serviceIdentity ≠ serviceIdentity then
    reject ports context (some policy) serviceIdentity
      (if authentication.reasonCode = "" then "authentication_failed"
        else authentication.reasonCode)
      "model_authentication_failed"
  else
    let request ← secure ports operation candidate payload serviceIdentity policy
    modify fun s => { s with requests := s.requests ++ [request] }
    ports.invoke request context

def invoke (policies : SecurityPolicyRegistry) (operation : ModelOperation)
    (candidate : ModelCandidate) (payload : PyValue) (serviceIdentity : String)
    (context : ExecutionContext) : Disclosing PyValue :=
  match policies.resolve context.configuration.securityPolicyVersion with
  | none =>
    reject ports context none serviceIdentity "policy_unavailable" "security_policy_unavailable"
  | some policy =>
    let rejected := reject ports context (some policy) serviceIdentity
    if policy.val.available = false then rejected "policy_unavailable" "security_policy_unavailable"
    else if policy.val.valid = false then rejected "policy_invalid" "security_policy_invalid"
    else if policy.val.decision ≠ .allow then
      rejected (if policy.val.decision = .indeterminate then "policy_indeterminate"
        else "policy_denied") "security_policy_denied"
    else if candidate.val.providerId ∉ policy.val.allowedProviderIds.items then
      rejected "provider_denied" "security_provider_denied"
    else if ¬∀ dataClass ∈ operation.val.dataClasses,
        dataClass ∈ policy.val.allowedDataClasses.items then
      rejected "data_class_denied" "security_data_denied"
    else if given policy.val.transportEncryption = false ∨
        given policy.val.persistenceEncryption = false then
      rejected "encryption_metadata_missing" "security_protection_required"
    else discloseTo ports operation candidate payload serviceIdentity context policy

end ProtectedModelInvoker

end AiRetrieval
