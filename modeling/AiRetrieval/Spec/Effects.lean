import AiRetrieval.Spec.World

/-! `EffectRecoveryCoordinator`: one logical mutation across two transaction
boundaries. Every call of the adapter is also noted in the world's history. -/

namespace AiRetrieval

open AiRetrieval.Action

/-- What identifies a mutation: the work item and the three digests of the request. -/
structure Mutation where
  jobId : String
  itemId : String
  idempotencyKey : String
  targetDataset : String
  rowScopeDigest : String
  mutationDigest : String
  deriving DecidableEq

namespace Mutation

def key (m : Mutation) : Key := (m.jobId, m.idempotencyKey)

def ofEffect (r : EffectRecord) : Mutation :=
  ⟨r.val.jobId, r.val.itemId, r.val.idempotencyKey, r.val.targetDataset, r.val.rowScopeDigest,
    r.val.mutationDigest⟩

def ofReconciliation (r : ReconciliationRecord) : Mutation :=
  ⟨r.val.jobId, r.val.itemId, r.val.idempotencyKey, r.val.targetDataset, r.val.rowScopeDigest,
    r.val.mutationDigest⟩

def ofRequest (r : EffectRequest) : Mutation :=
  ⟨r.val.claim.item.val.jobId, r.val.claim.item.val.itemId, r.val.claim.item.val.idempotencyKey,
    r.val.targetDataset, r.val.rowScopeDigest, r.val.mutationDigest⟩

end Mutation

def EffectAttemptStatus.evidence : EffectAttemptStatus → EffectEvidenceStatus
  | .committed => .committed
  | .rolledBack => .rolledBack
  | .ambiguous => .ambiguous

namespace EffectRecoveryCoordinator

variable (env : Environment)

def assertSameEffect (record : Option EffectRecord) (request : EffectRequest) :
    Except PyError Unit :=
  require (record.map Mutation.ofEffect = some (Mutation.ofRequest request))
    (.raised .effectConflictError "idempotency key is committed to a different mutation")

def assertSameReconciliation (record : ReconciliationRecord) (request : EffectRequest) :
    Except PyError Unit :=
  require (Mutation.ofReconciliation record = Mutation.ofRequest request)
    (.raised .effectConflictError
      "idempotency key is awaiting reconciliation for a different mutation")

def callAdapter {α : Type} (operation : AdapterOperation) (request : EffectRequest)
    (answer : Nat → Except PyError α) (status : α → EffectEvidenceStatus) : Action α := do
  modify fun w => { w with adapterCalls := w.adapterCalls ++ [{
    operation := operation
    request := request
    store := w.store
    clock := env.clock w.moment
    report := (answer w.moment).toOption.map status }] }
  ask answer

def restoreCheckpoint (request : EffectRequest) (record : EffectRecord) :
    Action CheckpointRecord := do
  let state ← onStore (WorkRepository.resumeState record.val.jobId record.val.idempotencyKey)
  match state.latestCheckpoint with
  | some last => if last.val.completedStage = .completed then return last else write
  | none => write
where
  /-- The part of `_restore_checkpoint` that writes. -/
  write : Action CheckpointRecord := do
    match request.val.claim.item.val.leaseOwner with
    | none => throw (.raised .effectRecoveryError
        "committed effect recovery requires the acquired lease")
    | some owner =>
      let now ← ask env.clock
      onStore (WorkRepository.checkpoint record.val.jobId record.val.idempotencyKey owner .completed
        ("write_back_committed:" ++ record.val.transactionOutcome) now none)

def reconcile (request : EffectRequest) (reason : String) : Action EffectRecoveryResult := do
  let now ← ask env.clock
  let item := request.val.claim.item
  let record ← Checked.make ReconciliationRecord.postInit {
    jobId := item.val.jobId
    itemId := item.val.itemId
    idempotencyKey := item.val.idempotencyKey
    targetDataset := request.val.targetDataset
    rowScopeDigest := request.val.rowScopeDigest
    mutationDigest := request.val.mutationDigest
    reason := reason
    recordedAt := now }
  let reconciliation ← onStore (WorkRepository.saveReconciliation record)
  Checked.make EffectRecoveryResult.postInit {
    status := .reconciliationRequired
    reconciliation := some reconciliation
    reasonCode := reason }

/-- Save a committed effect, restore its checkpoint and report both. -/
def settle (request : EffectRequest) (record : EffectRecord) (status : EffectRecoveryStatus)
    (reason : String) : Action EffectRecoveryResult := do
  let saved ← onStore (WorkRepository.saveEffect record)
  let checkpoint ← restoreCheckpoint env request saved
  Checked.make EffectRecoveryResult.postInit {
    status := status
    effectRecord := some saved
    checkpoint := some checkpoint
    reasonCode := reason }

/-- Committed evidence: check that it is the requested mutation, then settle it. -/
def settleEvidence (request : EffectRequest) (record : Option EffectRecord)
    (status : EffectRecoveryStatus) (reason : String) : Action EffectRecoveryResult := do
  assertSameEffect record request
  match record with
  | none => throw (.raised .attributeError "'NoneType' object has no attribute 'job_id'")
  | some record => settle env request record status reason

def rolledBack : Except PyError EffectRecoveryResult :=
  Checked.make EffectRecoveryResult.postInit {
    status := .writeBackFailed
    reasonCode := "precommit_transaction_rolled_back" }

/-- The `SHARED` branch of `execute`. -/
def executeShared (request : EffectRequest) (context : ExecutionContext) :
    Action EffectRecoveryResult := do
  let evidence ← callAdapter env .executeShared request
    (fun n => env.executeShared n request context) (·.val.status)
  match evidence.val.status with
  | .committed => settleEvidence env request evidence.val.record .committed "transaction_committed"
  | .ambiguous => reconcile env request "shared_transaction_outcome_ambiguous"
  | .absent | .rolledBack => rolledBack

def committedRecord (request : EffectRequest) (attempt : EffectAttempt) (committedAt : DateTime) :
    Except PyError EffectRecord :=
  let item := request.val.claim.item
  Checked.make EffectRecord.postInit {
    jobId := item.val.jobId
    itemId := item.val.itemId
    idempotencyKey := item.val.idempotencyKey
    targetDataset := request.val.targetDataset
    rowScopeDigest := request.val.rowScopeDigest
    mutationDigest := request.val.mutationDigest
    affectedRows := attempt.val.affectedRows
    transactionOutcome := attempt.val.transactionOutcome
    adapterVersion := attempt.val.adapterVersion
    committedAt := committedAt }

/-- The mutation of the `NON_SHARED` branch and what follows it. -/
def attemptNonShared (request : EffectRequest) (context : ExecutionContext) :
    Action EffectRecoveryResult := do
  let attempt ← callAdapter env .executeNonShared request
    (fun n => env.executeNonShared n request.val.effect request.val.mutationDigest context)
    (·.val.status.evidence)
  match attempt.val.status with
  | .rolledBack => rolledBack
  | .ambiguous => reconcile env request "mutation_commit_outcome_ambiguous"
  | .committed =>
    let now ← ask env.clock
    let record ← committedRecord request attempt now
    settle env request record .committed "transaction_committed"

/-- The `NON_SHARED` branch of `execute`. -/
def executeNonShared (request : EffectRequest) (context : ExecutionContext) :
    Action EffectRecoveryResult := do
  let evidence ← callAdapter env .verifyEffect request
    (fun n => env.verifyEffect n request.val.claim.item.val.idempotencyKey
      request.val.mutationDigest context)
    (·.val.status)
  match evidence.val.status with
  | .committed =>
    settleEvidence env request evidence.val.record .recovered "target_effect_recovered"
  | .ambiguous => reconcile env request "target_effect_verification_ambiguous"
  | .absent | .rolledBack => attemptNonShared env request context

/-- The part of `execute` before the adapter: a durable outcome for the key answers
the request. -/
def execute (request : EffectRequest) (context : ExecutionContext) :
    Action EffectRecoveryResult := do
  let item := request.val.claim.item
  if context.path ≠ .bulk then
    throw (.valueError "write-back effects require a bulk execution context")
  else if item.val.configuration ≠ context.configuration.reference then
    throw (.valueError "effect context must use the work item's bound configuration")
  else
    let w ← get
    match w.store.effects.get? (item.val.jobId, item.val.idempotencyKey) with
    | some existing =>
      assertSameEffect (some existing) request
      let checkpoint ← restoreCheckpoint env request existing
      Checked.make EffectRecoveryResult.postInit {
        status := .recovered
        effectRecord := some existing
        checkpoint := some checkpoint
        reasonCode := "committed_effect_recovered" }
    | none =>
      match w.store.reconciliations.get? (item.val.jobId, item.val.idempotencyKey) with
      | some pending =>
        assertSameReconciliation pending request
        Checked.make EffectRecoveryResult.postInit {
          status := .reconciliationRequired
          reconciliation := some pending
          reasonCode := pending.val.reason }
      | none =>
        match request.val.boundary with
        | .shared => executeShared env request context
        | .nonShared => executeNonShared env request context

end EffectRecoveryCoordinator

end AiRetrieval
