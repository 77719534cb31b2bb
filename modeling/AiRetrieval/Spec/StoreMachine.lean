import AiRetrieval.Library.Histories
import AiRetrieval.Spec.Coordinator

/-! The durable work repository as a machine: its inputs are the calls of its
callers with all their arguments, its reply is what the call returns or raises. -/

namespace AiRetrieval

open WorkRepository

/-- `create_with_outbox` as `submit` issues it, for a stored payload and an answer of
the identifier source. -/
def WorkRepository.issue (submission : WorkSubmission) (context : ExecutionContext)
    (payloadReference : ObjectReference) (identifier : Except PyError String) :
    Op WorkItemRecord := do
  if context.path ≠ .bulk then
    throw (.valueError "durable work may only bind to a bulk execution")
  else
    let item ← BulkCoordinator.pendingItem submission payloadReference
      context.configuration.reference
    let eventId ← BulkCoordinator.newIdentifier "outbox" identifier
    let outbox ← BulkCoordinator.announcement item eventId
    createWithOutbox item outbox

inductive StoreCall where
  | create (submission : WorkSubmission) (context : ExecutionContext)
      (payloadReference : ObjectReference) (identifier : Except PyError String)
  | claim (key : Key) (owner : String) (now : DateTime) (leaseDuration : TimeDelta)
  | renew (key : Key) (owner : String) (now : DateTime) (leaseDuration : TimeDelta)
  | checkpoint (key : Key) (owner : String) (stage : CheckpointStage) (outcome : String)
      (now : DateTime) (resultReference : Option ObjectReference)
  | terminalize (key : Key) (owner : String) (state : TerminalWorkItemState)
      (failureCode failureDetails : Option String) (now : DateTime)
      (resultReference : Option ObjectReference)
  | markPublished (eventId : String) (publishedAt : DateTime)
  | saveEffect (record : EffectRecord)
  | saveReconciliation (record : ReconciliationRecord)
  | recordPersistenceFailure (outcome : PersistenceFailureOutcome)

inductive StoreReply where
  | item (item : WorkItemRecord)
  | claim (claim : WorkClaim)
  | checkpoint (record : CheckpointRecord)
  | terminal (record : TerminalWorkItemRecord)
  | outbox (record : OutboxRecord)
  | effect (record : EffectRecord)
  | reconciliation (record : ReconciliationRecord)
  | recorded

def StoreCall.program : StoreCall → Op StoreReply
  | .create submission context payloadReference identifier =>
    .item <$> issue submission context payloadReference identifier
  | .claim key owner now d => .claim <$> WorkRepository.claim key.1 key.2 owner now d
  | .renew key owner now d => .item <$> WorkRepository.renew key.1 key.2 owner now d
  | .checkpoint key owner stage outcome now ref =>
    .checkpoint <$> WorkRepository.checkpoint key.1 key.2 owner stage outcome now ref
  | .terminalize key owner state code details now ref =>
    .terminal <$> WorkRepository.terminalize key.1 key.2 owner state code details now ref
  | .markPublished eventId publishedAt =>
    .outbox <$> WorkRepository.markPublished eventId publishedAt
  | .saveEffect record => .effect <$> WorkRepository.saveEffect record
  | .saveReconciliation record => .reconciliation <$> WorkRepository.saveReconciliation record
  | .recordPersistenceFailure outcome =>
    (fun _ => .recorded) <$> WorkRepository.recordPersistenceFailure outcome

/-- A call of the repository takes effect as one transition. -/
def storeMachine : Machine StoreCall (Except PyError StoreReply) WorkRepository :=
  fun call s => call.program.exec s

namespace WorkRepository

/-- The states of a repository that was created empty. -/
def Reached (s : WorkRepository) : Prop := storeMachine.Reachable .empty s

theorem Reached.call {s : WorkRepository} (h : s.Reached) (call : StoreCall) :
    (storeMachine call s).2.Reached := Machine.Reachable.step _ h call

end WorkRepository

abbrev StoreTransition := Transition StoreCall (Except PyError StoreReply) WorkRepository

/-- The item, the caller and the time of a call that needs or takes a lease. -/
def StoreCall.leaseUse : StoreCall → Option (Key × String × DateTime)
  | .claim key owner now _ => some (key, owner, now)
  | .renew key owner now _ => some (key, owner, now)
  | .checkpoint key owner _ _ now _ => some (key, owner, now)
  | .terminalize key owner _ _ _ now _ => some (key, owner, now)
  | _ => none

def acquisitionOf (key : Key) (t : StoreTransition) : Option WorkClaim :=
  match t.input, t.reply with
  | .claim key' _ _ _, .ok (.claim claim) =>
    if key' = key ∧ claim.acquired then some claim else none
  | _, _ => none

/-- The transition replaced the item under `key` by a different record. -/
def changesItem (key : Key) (t : StoreTransition) : Bool :=
  match t.before.items.get? key with
  | some before => decide (t.after.items.get? key ≠ some before)
  | none => false

end AiRetrieval
