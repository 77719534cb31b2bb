import AiRetrieval.Library.Programs
import AiRetrieval.Library.Dictionaries
import AiRetrieval.Spec.EffectRecords

/-! `InMemoryDurableWorkRepository`. One lock makes each operation a transaction
boundary, so an operation is one program over the whole store. -/

namespace AiRetrieval

/-- `(job_id, idempotency_key)`. -/
abbrev Key := String × String

def claimKey (claim : WorkClaim) : Key := (claim.item.val.jobId, claim.item.val.idempotencyKey)

structure WorkRepository where
  items : Dict Key WorkItemRecord
  itemIds : Dict Key String
  checkpoints : Dict Key (List CheckpointRecord)
  terminal : Dict Key TerminalWorkItemRecord
  persistenceFailures : List PersistenceFailureOutcome
  outbox : Dict String OutboxRecord
  effects : Dict Key EffectRecord
  reconciliations : Dict Key ReconciliationRecord
  deriving DecidableEq

namespace WorkRepository

def empty : WorkRepository :=
  ⟨.empty, .empty, .empty, .empty, [], .empty, .empty, .empty⟩

abbrev Op := Program PyError WorkRepository

def workConflict (message : String) : PyError := .raised .workConflictError message
def workNotFound (message : String) : PyError := .raised .workNotFoundError message
def checkpointTransition (message : String) : PyError := .raised .checkpointTransitionError message

def noExpiry (operator : String) : PyError :=
  .typeError ("'" ++ operator ++
    "' not supported between instances of 'NoneType' and 'datetime.datetime'")

def checkpointsOf (s : WorkRepository) (key : Key) : List CheckpointRecord :=
  (s.checkpoints.get? key).getD []

def latest (s : WorkRepository) (key : Key) : Option CheckpointRecord :=
  (s.checkpointsOf key).getLast?

def requireItem (s : WorkRepository) (key : Key) : Except PyError WorkItemRecord :=
  match s.items.get? key with
  | some item => .ok item
  | none => .error (workNotFound ("unknown work item: " ++ key.1 ++ "/" ++ key.2))

def ownershipError : PyError :=
  .raised .leaseOwnershipError "an unexpired lease owned by the caller is required"

/-- `_require_owned`; the expiry is compared only when state and owner agree. -/
def requireOwned (s : WorkRepository) (key : Key) (owner : String) (now : DateTime) :
    Except PyError WorkItemRecord := do
  let item ← s.requireItem key
  if item.val.state ≠ .inProgress ∨ item.val.leaseOwner ≠ some owner then
    .error ownershipError
  else
    match item.val.leaseExpiresAt with
    | none => .error (noExpiry "<=")
    | some expiry =>
      let expired ← expiry.notAfter now
      if expired then .error ownershipError else .ok item

def validateLease (owner : String) (now : DateTime) (leaseDuration : TimeDelta) :
    Except PyError Unit := do
  require (blank owner = false ∧ now.aware = true)
    (.valueError "lease owner must be non-blank and time must be timezone-aware")
  require (0 < leaseDuration) (.valueError "lease duration must be positive")

def createWithOutbox (item : WorkItemRecord) (outbox : OutboxRecord) : Op WorkItemRecord := do
  let key := (item.val.jobId, item.val.idempotencyKey)
  let itemIdentity := (item.val.jobId, item.val.itemId)
  let s ← get
  match s.items.get? key with
  | some existing =>
    if existing.val.itemId ≠ item.val.itemId ∨ existing.val.configuration ≠ item.val.configuration ∨
        existing.val.payloadReference ≠ item.val.payloadReference then
      throw (workConflict "idempotency key is already bound to different immutable work")
    else
      return existing
  | none =>
    if s.itemIds.contains itemIdentity then
      throw (workConflict "work item identifier is already bound to another idempotency key")
    else if s.outbox.contains outbox.val.eventId then
      throw (workConflict "outbox event identifier already exists")
    else
      set { s with
        items := s.items.insert key item
        itemIds := s.itemIds.insert itemIdentity item.val.idempotencyKey
        outbox := s.outbox.insert outbox.val.eventId outbox }
      return item

/-- `current.state is IN_PROGRESS and current.lease_expires_at > now`. -/
def leaseActive (current : WorkItemRecord) (now : DateTime) : Except PyError Bool :=
  if current.val.state = .inProgress then
    match current.val.leaseExpiresAt with
    | none => .error (noExpiry ">")
    | some expiry => now.before expiry
  else .ok false

def claim (jobId idempotencyKey owner : String) (now : DateTime) (leaseDuration : TimeDelta) :
    Op WorkClaim := do
  validateLease owner now leaseDuration
  let key := (jobId, idempotencyKey)
  let s ← get
  let current ← s.requireItem key
  if current.val.state = .completed then
    return ⟨.activeDuplicate, current, s.latest key⟩
  else
    let active ← leaseActive current now
    if active then
      return ⟨.activeDuplicate, current, s.latest key⟩
    else
      let expiry ← now.plus leaseDuration
      let claimed ← Checked.make WorkItemRecord.postInit { current.val with
        state := .inProgress
        attemptCount := current.val.attemptCount + 1
        leaseOwner := some owner
        leaseExpiresAt := some expiry
        revision := current.val.revision + 1 }
      set { s with items := s.items.insert key claimed }
      return ⟨.acquired, claimed, s.latest key⟩

def renew (jobId idempotencyKey owner : String) (now : DateTime) (leaseDuration : TimeDelta) :
    Op WorkItemRecord := do
  validateLease owner now leaseDuration
  let key := (jobId, idempotencyKey)
  let s ← get
  let current ← s.requireOwned key owner now
  let expiry ← now.plus leaseDuration
  let renewed ← Checked.make WorkItemRecord.postInit { current.val with
    leaseExpiresAt := some expiry
    revision := current.val.revision + 1 }
  set { s with items := s.items.insert key renewed }
  return renewed

def checkpoint (jobId idempotencyKey owner : String) (stage : CheckpointStage) (outcome : String)
    (now : DateTime) (resultReference : Option ObjectReference) : Op CheckpointRecord := do
  let key := (jobId, idempotencyKey)
  let s ← get
  let current ← s.requireOwned key owner now
  match s.latest key with
  | some last =>
    if stage.order < last.val.completedStage.order then
      throw (checkpointTransition "checkpoint stages cannot move backwards")
    else if stage = last.val.completedStage then
      if last.val.outcome ≠ outcome ∨ last.val.resultReference ≠ resultReference then
        throw (checkpointTransition "completed checkpoint stage is immutable")
      else
        return last
    else
      record key current (last.val.sequence + 1)
  | none => record key current 1
where
  /-- The part of `checkpoint` after the stage comparison. -/
  record (key : Key) (current : WorkItemRecord) (sequence : Nat) : Op CheckpointRecord := do
    let checkpoint ← Checked.make CheckpointRecord.postInit {
      jobId := current.val.jobId
      itemId := current.val.itemId
      idempotencyKey := current.val.idempotencyKey
      completedStage := stage
      attemptCount := current.val.attemptCount
      outcome := outcome
      configuration := current.val.configuration
      resultReference := resultReference
      recordedAt := now
      sequence := sequence }
    let updated ← Checked.make WorkItemRecord.postInit { current.val with
      state := if stage = .completed then .completed else .checkpointed
      leaseOwner := none
      leaseExpiresAt := none
      resultReference := resultReference <|> current.val.resultReference
      revision := current.val.revision + 1 }
    modify fun s => { s with
      checkpoints := s.checkpoints.insert key (s.checkpointsOf key ++ [checkpoint]) }
    modify fun s => { s with items := s.items.insert key updated }
    return checkpoint

def resumeState (jobId idempotencyKey : String) : Op ResumeState := do
  let key := (jobId, idempotencyKey)
  let s ← get
  let item ← s.requireItem key
  let last := s.latest key
  return ⟨item, last, match last with
    | some checkpoint => checkpoint.val.completedStage.next
    | none => some .accepted⟩

def pendingOutbox (s : WorkRepository) : List OutboxRecord :=
  s.outbox.values.filter fun record => record.val.status = .pending

def markPublished (eventId : String) (publishedAt : DateTime) : Op OutboxRecord := do
  let s ← get
  match s.outbox.get? eventId with
  | none => throw (workNotFound ("unknown outbox event: " ++ eventId))
  | some record =>
    if record.val.status = .published then
      return record
    else
      let published ← Checked.make OutboxRecord.postInit { record.val with
        status := .published
        publishedAt := some publishedAt }
      set { s with outbox := s.outbox.insert eventId published }
      return published

def terminalize (jobId idempotencyKey owner : String) (state : TerminalWorkItemState)
    (failureCode failureDetails : Option String) (now : DateTime)
    (resultReference : Option ObjectReference) : Op TerminalWorkItemRecord := do
  let key := (jobId, idempotencyKey)
  let s ← get
  match s.terminal.get? key with
  | some existing =>
    if (state, failureCode, failureDetails, resultReference <|> existing.val.resultReference) ≠
        (existing.val.state, existing.val.failureCode, existing.val.failureDetails,
          existing.val.resultReference) then
      throw (workConflict "terminal work item outcome is immutable")
    else
      return existing
  | none =>
    let current ← s.requireOwned key owner now
    let terminal ← Checked.make TerminalWorkItemRecord.postInit {
      jobId := current.val.jobId
      itemId := current.val.itemId
      idempotencyKey := current.val.idempotencyKey
      state := state
      failureCode := failureCode
      failureDetails := failureDetails
      configuration := current.val.configuration
      attemptCount := current.val.attemptCount
      resultReference := resultReference <|> current.val.resultReference
      recordedAt := now }
    -- the terminal record is stored before the item is rebuilt
    modify fun s => { s with terminal := s.terminal.insert key terminal }
    let completed ← Checked.make WorkItemRecord.postInit { current.val with
      state := .completed
      leaseOwner := none
      leaseExpiresAt := none
      resultReference := terminal.val.resultReference
      revision := current.val.revision + 1 }
    modify fun s => { s with items := s.items.insert key completed }
    return terminal

/-- Python's stable `sorted` under the order of a key. -/
def sortedBy {α : Type} (key : α → String) (l : List α) : List α :=
  l.insertionSort fun a b => key a ≤ key b

def itemsOf (s : WorkRepository) (jobId : String) : List WorkItemRecord :=
  sortedBy (·.val.itemId) (s.items.values.filter fun item => item.val.jobId = jobId)

def terminalItems (s : WorkRepository) (jobId : String) : List TerminalWorkItemRecord :=
  sortedBy (·.val.itemId) (s.terminal.values.filter fun item => item.val.jobId = jobId)

def recordPersistenceFailure (outcome : PersistenceFailureOutcome) : Op Unit :=
  modify fun s => if outcome ∈ s.persistenceFailures then s
    else { s with persistenceFailures := s.persistenceFailures ++ [outcome] }

def persistenceFailuresOf (s : WorkRepository) (jobId : String) : List PersistenceFailureOutcome :=
  s.persistenceFailures.filter fun outcome => outcome.val.jobId = jobId

def saveEffect (record : EffectRecord) : Op EffectRecord := do
  let key := (record.val.jobId, record.val.idempotencyKey)
  let s ← get
  let item ← s.requireItem key
  if item.val.itemId ≠ record.val.itemId then
    throw (workConflict "effect record item does not match durable work")
  else
    match s.effects.get? key with
    | some existing =>
      if existing ≠ record then
        throw (workConflict "idempotency key is already bound to another effect record")
      else
        return existing
    | none =>
      set { s with effects := s.effects.insert key record }
      return record

def saveReconciliation (record : ReconciliationRecord) : Op ReconciliationRecord := do
  let key := (record.val.jobId, record.val.idempotencyKey)
  let s ← get
  let item ← s.requireItem key
  if item.val.itemId ≠ record.val.itemId then
    throw (workConflict "reconciliation item does not match durable work")
  else
    match s.reconciliations.get? key with
    | some existing =>
      if existing.val.targetDataset ≠ record.val.targetDataset ∨
          existing.val.rowScopeDigest ≠ record.val.rowScopeDigest ∨
          existing.val.mutationDigest ≠ record.val.mutationDigest ∨
          existing.val.reason ≠ record.val.reason then
        throw (workConflict "idempotency key is already awaiting different reconciliation")
      else
        return existing
    | none =>
      set { s with reconciliations := s.reconciliations.insert key record }
      return record

end WorkRepository

end AiRetrieval
