import AiRetrieval.Spec.EffectRecords

/-! The values of `write_back/models.py` and the validation result a write-back
command carries. A `frozenset` of texts is its elements in increasing order, so
two sets are equal when their lists are and `sorted` is that list. -/

namespace AiRetrieval

structure FrozenSet where
  items : List String
  ordered : items.Pairwise (· < ·)
  deriving DecidableEq

def FrozenSet.none : FrozenSet := ⟨[], .nil⟩

def FrozenSet.singleton (value : String) : FrozenSet := ⟨[value], List.pairwise_singleton _ _⟩

/-- `not values or any(not value.strip() for value in values)`, denied. -/
def FrozenSet.named (s : FrozenSet) : Prop := s.items ≠ [] ∧ ∀ value ∈ s.items, blank value = false

instance (s : FrozenSet) : Decidable s.named := inferInstanceAs (Decidable (_ ∧ _))

/-- The fields of `ValidationOutcome` a write-back reads. -/
structure ValidationOutcome where
  accepted : Bool
  failedRuleIds : List String
  reasonCodes : List String
  rulesVersion : String

structure ValidationResult.Fields where
  outcome : ValidationOutcome
  acceptedRecords : List FrozenMapping := []

def ValidationResult.postInit (r : ValidationResult.Fields) : Except PyError Unit :=
  require (r.outcome.accepted = true ∨ r.acceptedRecords.isEmpty = true)
    (.valueError "validation-failed results must withhold output")

abbrev ValidationResult := Checked ValidationResult.postInit

structure WriteBackScope.Fields where
  jobId : String
  itemScope : FrozenSet
  dataScope : String
  targetDataset : String
  rowScope : String
  columns : FrozenSet
  mutationType : OperationKind
  validationRulesVersion : String
  configurationVersion : String
  validFrom : DateTime
  validUntil : DateTime
  deriving DecidableEq

def WriteBackScope.postInit (r : WriteBackScope.Fields) : Except PyError Unit := do
  requireTexts [("job_id", r.jobId), ("data_scope", r.dataScope),
    ("target_dataset", r.targetDataset), ("row_scope", r.rowScope),
    ("validation_rules_version", r.validationRulesVersion),
    ("configuration_version", r.configurationVersion)]
  require r.itemScope.named (.valueError "item scope must contain non-blank identifiers")
  require r.columns.named (.valueError "columns must contain non-blank identifiers")
  require (r.mutationType ∈ mutationOperations)
    (.valueError "write-back mutation type must be a mutation operation")
  require (r.validFrom.aware = true ∧ r.validUntil.aware = true)
    (.valueError "approval validity timestamps must be timezone-aware")
  require (¬r.validUntil ≤ r.validFrom)
    (.valueError "approval validity interval must be positive")

abbrev WriteBackScope := Checked WriteBackScope.postInit

structure WriteBackPolicy.Fields where
  version : String
  scope : WriteBackScope
  active : Bool := true

def WriteBackPolicy.postInit (r : WriteBackPolicy.Fields) : Except PyError Unit :=
  requireText "write-back policy version" r.version

abbrev WriteBackPolicy := Checked WriteBackPolicy.postInit

structure ApprovalRecord.Fields where
  reference : String
  authority : String
  policyVersion : String
  scope : WriteBackScope
  revoked : Bool := false

def ApprovalRecord.postInit (r : ApprovalRecord.Fields) : Except PyError Unit :=
  requireTexts [("approval reference", r.reference), ("approval authority", r.authority),
    ("approval policy version", r.policyVersion)]

abbrev ApprovalRecord := Checked ApprovalRecord.postInit

structure AuthorizationSnapshot where
  policy : Option WriteBackPolicy
  approval : Option ApprovalRecord

structure WriteBackCommand.Fields where
  claim : WorkClaim
  validation : ValidationResult
  policyVersion : String
  approvalReference : String
  dataScope : String
  targetDataset : String
  rowScope : String
  columns : FrozenSet
  mutationType : OperationKind
  parameters : List (String × FrozenValue)
  boundary : TransactionBoundary

def WriteBackCommand.postInit (r : WriteBackCommand.Fields) : Except PyError Unit := do
  require r.claim.acquired (.valueError "an acquired work claim is required")
  requireTexts [("policy_version", r.policyVersion), ("approval_reference", r.approvalReference),
    ("data_scope", r.dataScope), ("target_dataset", r.targetDataset), ("row_scope", r.rowScope)]
  require r.columns.named (.valueError "columns must contain non-blank identifiers")
  require (r.mutationType ∈ mutationOperations)
    (.valueError "write-back mutation type must be a mutation operation")
  require ((∀ name ∈ r.parameters.map Prod.fst, blank name = false) ∧
      (r.parameters.map Prod.fst).Nodup)
    (.valueError "mutation parameter names must be unique and non-blank")

abbrev WriteBackCommand := Checked WriteBackCommand.postInit

inductive WriteBackExecutionStatus where
  | validationRejected
  | persisted
  | approvalRejected
  | committed
  | recovered
  | reconciliationRequired
  | writeBackFailed
  deriving DecidableEq

def WriteBackExecutionStatus.value : WriteBackExecutionStatus → String
  | .validationRejected => "validation_rejected"
  | .persisted => "persisted"
  | .approvalRejected => "approval_rejected"
  | .committed => "committed"
  | .recovered => "recovered"
  | .reconciliationRequired => "reconciliation_required"
  | .writeBackFailed => "write_back_failed"

inductive WriteBackAuditOutcome where
  | commit
  | rollback
  | reconciliation
  | recoveryDuplicate
  | withheld
  | failure
  deriving DecidableEq

structure WriteBackAuditEvent.Fields where
  correlationId : String
  jobId : String
  itemId : String
  idempotencyKey : String
  approvalReference : String
  approvalAuthority : String
  policyVersion : String
  targetDataset : String
  rowScopeDigest : String
  effectDigest : String
  columns : List String
  mutationType : String
  validationRulesVersion : String
  configurationVersion : String
  outcome : WriteBackAuditOutcome
  timestamp : DateTime
  reasonCodes : List String
  redactedDetails : String := "[REDACTED]"
  deriving DecidableEq

def WriteBackAuditEvent.postInit (r : WriteBackAuditEvent.Fields) : Except PyError Unit := do
  require (∀ value ∈ [r.correlationId, r.jobId, r.itemId, r.idempotencyKey, r.approvalReference,
      r.approvalAuthority, r.policyVersion, r.targetDataset, r.rowScopeDigest, r.effectDigest,
      r.mutationType, r.validationRulesVersion, r.configurationVersion, r.redactedDetails],
      blank value = false)
    (.valueError "write-back audit fields must not be blank")
  require (r.columns ≠ [] ∧ ∀ value ∈ r.columns, blank value = false)
    (.valueError "write-back audit columns must not be blank")
  require (r.reasonCodes ≠ [] ∧ ∀ value ∈ r.reasonCodes, blank value = false)
    (.valueError "write-back audit reason codes must not be blank")
  require (r.timestamp.aware = true)
    (.valueError "write-back audit timestamp must be timezone-aware")

abbrev WriteBackAuditEvent := Checked WriteBackAuditEvent.postInit

structure WriteBackExecutionResult where
  status : WriteBackExecutionStatus
  reasonCodes : List String := []
  outputReference : Option ObjectReference := none
  effect : Option EffectRecoveryResult := none
  deriving DecidableEq

end AiRetrieval
