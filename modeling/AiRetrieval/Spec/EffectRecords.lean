import AiRetrieval.Spec.Values

/-! The records of `bulk/effect_models.py`, with the operation tree an approved
effect carries. -/

namespace AiRetrieval

inductive OperationKind where
  | select | project | filter | join | aggregate | sort | limit
  | insert | update | delete | merge | alter | create | drop | truncate | grant | revoke | call
  | unknown
  deriving DecidableEq

def retrievalOperations : List OperationKind :=
  [.select, .project, .filter, .join, .aggregate, .sort, .limit]

def mutationOperations : List OperationKind :=
  [.insert, .update, .delete, .merge, .alter, .create, .drop, .truncate, .grant, .revoke, .call]

def OperationKind.value : OperationKind → String
  | .select => "select" | .project => "project" | .filter => "filter" | .join => "join"
  | .aggregate => "aggregate" | .sort => "sort" | .limit => "limit" | .insert => "insert"
  | .update => "update" | .delete => "delete" | .merge => "merge" | .alter => "alter"
  | .create => "create" | .drop => "drop" | .truncate => "truncate" | .grant => "grant"
  | .revoke => "revoke" | .call => "call" | .unknown => "unknown"

inductive OperationNode where
  | node (kind : OperationKind) (children : List OperationNode) (dataset : Option String)

structure ApprovedEffect where
  effectId : String
  operation : OperationNode
  parameters : List (String × FrozenValue)

inductive TransactionBoundary where
  | shared
  | nonShared
  deriving DecidableEq

inductive EffectEvidenceStatus where
  | absent
  | committed
  | rolledBack
  | ambiguous
  deriving DecidableEq

inductive EffectAttemptStatus where
  | committed
  | rolledBack
  | ambiguous
  deriving DecidableEq

inductive EffectRecoveryStatus where
  | committed
  | recovered
  | reconciliationRequired
  | writeBackFailed
  deriving DecidableEq

structure EffectRecord.Fields where
  jobId : String
  itemId : String
  idempotencyKey : String
  targetDataset : String
  rowScopeDigest : String
  mutationDigest : String
  affectedRows : Nat
  transactionOutcome : String
  adapterVersion : String
  committedAt : DateTime
  deriving DecidableEq

def EffectRecord.postInit (r : EffectRecord.Fields) : Except PyError Unit := do
  requireTexts [("job_id", r.jobId), ("item_id", r.itemId), ("idempotency_key", r.idempotencyKey),
    ("target_dataset", r.targetDataset), ("row_scope_digest", r.rowScopeDigest),
    ("mutation_digest", r.mutationDigest), ("transaction_outcome", r.transactionOutcome),
    ("adapter_version", r.adapterVersion)]
  require (r.committedAt.aware = true) (.valueError "committed_at must be timezone-aware")

abbrev EffectRecord := Checked EffectRecord.postInit

structure EffectRequest.Fields where
  claim : WorkClaim
  effect : ApprovedEffect
  targetDataset : String
  rowScopeDigest : String
  mutationDigest : String
  boundary : TransactionBoundary

def EffectRequest.postInit (r : EffectRequest.Fields) : Except PyError Unit := do
  requireTexts [("target_dataset", r.targetDataset), ("row_scope_digest", r.rowScopeDigest),
    ("mutation_digest", r.mutationDigest)]
  require r.claim.acquired (.valueError "an acquired work claim is required")
  require (r.effect.effectId = r.claim.item.val.idempotencyKey)
    (.valueError "effect identifier must equal the work idempotency key")

abbrev EffectRequest := Checked EffectRequest.postInit

structure EffectAttempt.Fields where
  status : EffectAttemptStatus
  affectedRows : Nat := 0
  transactionOutcome : String := "unknown"
  adapterVersion : String := "unknown"
  deriving DecidableEq

def EffectAttempt.postInit (r : EffectAttempt.Fields) : Except PyError Unit := do
  requireText "transaction outcome" r.transactionOutcome
  requireText "adapter version" r.adapterVersion

abbrev EffectAttempt := Checked EffectAttempt.postInit

structure EffectEvidence.Fields where
  status : EffectEvidenceStatus
  record : Option EffectRecord := none
  deriving DecidableEq

def EffectEvidence.postInit (r : EffectEvidence.Fields) : Except PyError Unit :=
  require (r.status = .committed ↔ r.record ≠ none)
    (.valueError "committed evidence requires exactly one effect record")

abbrev EffectEvidence := Checked EffectEvidence.postInit

structure ReconciliationRecord.Fields where
  jobId : String
  itemId : String
  idempotencyKey : String
  targetDataset : String
  rowScopeDigest : String
  mutationDigest : String
  reason : String
  recordedAt : DateTime
  deriving DecidableEq

def ReconciliationRecord.postInit (r : ReconciliationRecord.Fields) : Except PyError Unit := do
  requireTexts [("job_id", r.jobId), ("item_id", r.itemId), ("idempotency_key", r.idempotencyKey),
    ("target_dataset", r.targetDataset), ("row_scope_digest", r.rowScopeDigest),
    ("mutation_digest", r.mutationDigest), ("reason", r.reason)]
  require (r.recordedAt.aware = true) (.valueError "recorded_at must be timezone-aware")

abbrev ReconciliationRecord := Checked ReconciliationRecord.postInit

structure EffectRecoveryResult.Fields where
  status : EffectRecoveryStatus
  effectRecord : Option EffectRecord := none
  checkpoint : Option CheckpointRecord := none
  reconciliation : Option ReconciliationRecord := none
  reasonCode : String := "unspecified"
  deriving DecidableEq

def EffectRecoveryResult.postInit (r : EffectRecoveryResult.Fields) : Except PyError Unit :=
  requireText "effect recovery reason" r.reasonCode

abbrev EffectRecoveryResult := Checked EffectRecoveryResult.postInit

end AiRetrieval
