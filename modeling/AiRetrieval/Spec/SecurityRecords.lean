import AiRetrieval.Spec.RoutingRecords

/-! The records of `security/models.py` and the event of `observability/telemetry.py`. -/

namespace AiRetrieval

inductive SecurityDecision where
  | allow
  | deny
  | indeterminate
  deriving DecidableEq

structure RedactionPolicy.Fields where
  sensitiveFields : FrozenSet := .none
  sensitiveValues : FrozenSet := .none
  representation : String := "[REDACTED]"
  deriving DecidableEq

def RedactionPolicy.postInit (r : RedactionPolicy.Fields) : Except PyError Unit :=
  require (r.representation ≠ "") (.valueError "redaction representation must not be empty")

abbrev RedactionPolicy := Checked RedactionPolicy.postInit

structure SecurityPolicy.Fields where
  version : String
  available : Bool
  valid : Bool
  decision : SecurityDecision
  allowedProviderIds : FrozenSet
  allowedDataClasses : FrozenSet
  sensitiveFields : FrozenSet
  redactionRepresentation : String := "[REDACTED]"
  maskingRepresentation : String := "[MASKED]"
  transportEncryption : Option String := none
  persistenceEncryption : Option String := none
  deriving DecidableEq

def SecurityPolicy.postInit (r : SecurityPolicy.Fields) : Except PyError Unit := do
  require (blank r.version = false) (.valueError "security policy version must not be blank")
  require (r.redactionRepresentation ≠ "" ∧ r.maskingRepresentation ≠ "")
    (.valueError "security representations must not be empty")

abbrev SecurityPolicy := Checked SecurityPolicy.postInit

def SecurityPolicy.redactionPolicy (policy : SecurityPolicy) : Except PyError RedactionPolicy :=
  Checked.make RedactionPolicy.postInit {
    sensitiveFields := policy.val.sensitiveFields
    representation := policy.val.redactionRepresentation }

structure AuthenticationResult where
  authenticated : Bool
  serviceIdentity : String
  reasonCode : String

structure EncryptionMetadata.Fields where
  transport : String
  persistence : String
  deriving DecidableEq

def EncryptionMetadata.postInit (r : EncryptionMetadata.Fields) : Except PyError Unit :=
  require (blank r.transport = false ∧ blank r.persistence = false)
    (.valueError "encryption metadata must not be blank")

abbrev EncryptionMetadata := Checked EncryptionMetadata.postInit

structure SecuredModelRequest.Fields where
  operation : ModelOperation
  candidate : ModelCandidate
  payload : FrozenMapping
  serviceIdentity : String
  policyVersion : String
  dataClasses : List String
  encryption : EncryptionMetadata

def SecuredModelRequest.postInit (r : SecuredModelRequest.Fields) : Except PyError Unit :=
  require (blank r.serviceIdentity = false ∧ blank r.policyVersion = false)
    (.valueError "secured request identity and policy version must not be blank")

abbrev SecuredModelRequest := Checked SecuredModelRequest.postInit

structure TelemetryEvent.Fields where
  correlationId : String
  timestamp : DateTime
  eventType : String
  component : String
  outcome : String
  configurationVersion : String
  details : FrozenMapping := []

def TelemetryEvent.postInit (r : TelemetryEvent.Fields) : Except PyError Unit :=
  require (∀ value ∈ [r.correlationId, r.eventType, r.component, r.outcome,
      r.configurationVersion], blank value = false)
    (.valueError "telemetry envelope fields must not be blank")

abbrev TelemetryEvent := Checked TelemetryEvent.postInit

end AiRetrieval
