import AiRetrieval.Spec.World

/-! `BulkCoordinator`: admission of work, the outbox relay and the handling of
delivered notifications. -/

namespace AiRetrieval.BulkCoordinator

open AiRetrieval.Action

variable (env : Environment)

/-- The pending item `submit` builds once the payload is stored. -/
def pendingItem (submission : WorkSubmission) (payloadReference : ObjectReference)
    (configuration : ConfigurationReference) : Except PyError WorkItemRecord :=
  Checked.make WorkItemRecord.postInit {
    jobId := submission.val.jobId
    itemId := submission.val.itemId
    idempotencyKey := submission.val.idempotencyKey
    payloadReference := payloadReference
    configuration := configuration
    state := .pending }

def newIdentifier (purpose : String) (answer : Except PyError String) : Except PyError String := do
  let value ← answer
  require (blank value = false) (.valueError (purpose ++ " identifier must not be blank"))
  return value

def announcement (item : WorkItemRecord) (eventId : String) : Except PyError OutboxRecord := do
  let notification ← Checked.make WorkNotification.postInit {
    eventId := eventId
    jobId := item.val.jobId
    itemId := item.val.itemId
    idempotencyKey := item.val.idempotencyKey
    configurationVersion := item.val.configuration.val.version
    payloadReference := item.val.payloadReference.val.reference
    payloadHash := item.val.payloadReference.val.contentHash
    aggregateRevision := item.val.revision }
  Checked.make OutboxRecord.postInit { eventId := eventId, notification := notification }

def submit (submission : WorkSubmission) (context : ExecutionContext) : Action WorkItemRecord := do
  if context.path ≠ .bulk then
    throw (.valueError "durable work may only bind to a bulk execution")
  else
    let payloadReference ← onObjects
      (ObjectResultStore.putPayload env.sha256 submission.val.payload)
    let item ← pendingItem submission payloadReference context.configuration.reference
    let eventId ← ask fun n => newIdentifier "outbox" (env.identifier n)
    let outbox ← announcement item eventId
    onStore (WorkRepository.createWithOutbox item outbox)

/-- The loop of `relay_pending` over the outbox records that were pending. -/
def relay : List OutboxRecord → Action Nat
  | [] => return 0
  | outbox :: rest => do
    onBroker (NotificationBroker.publish outbox.val.notification)
    let now ← ask env.clock
    let _ ← onStore (WorkRepository.markPublished outbox.val.eventId now)
    let published ← relay rest
    return published + 1

def relayPending : Action Nat := do
  let w ← get
  relay env w.store.pendingOutbox

/-- What `claim_delivery` compares before it claims. -/
def matchesDelivery (item : WorkItemRecord) (notification : WorkNotification) : Prop :=
  item.val.itemId = notification.val.itemId ∧
    item.val.configuration.val.version = notification.val.configurationVersion ∧
    item.val.payloadReference.val.reference = notification.val.payloadReference ∧
    item.val.payloadReference.val.contentHash = notification.val.payloadHash

instance (item : WorkItemRecord) (notification : WorkNotification) :
    Decidable (matchesDelivery item notification) := inferInstanceAs (Decidable (_ ∧ _))

def claimDelivery (delivery : BrokerDelivery) (owner : String) (leaseDuration : TimeDelta) :
    Action WorkClaim := do
  let notification := delivery.val.notification
  let w ← get
  match w.store.items.get? (notification.val.jobId, notification.val.idempotencyKey) with
  | none => throw (.valueError "notification references unknown work")
  | some item =>
    if ¬matchesDelivery item notification then
      throw (.valueError "notification metadata does not match durable work")
    else
      let now ← ask env.clock
      let claim ← onStore (WorkRepository.claim notification.val.jobId
        notification.val.idempotencyKey owner now leaseDuration)
      let _ ← onBroker (NotificationBroker.acknowledge delivery.val.deliveryId)
      return claim

def checkpoint (claim : WorkClaim) (stage : CheckpointStage) (outcome : String)
    (result : Option Bytes) : Action CheckpointRecord := do
  let owner ← claim.requireOwner
  let resultReference ← putResult? env.sha256 result
  let now ← ask env.clock
  onStore (WorkRepository.checkpoint claim.item.val.jobId claim.item.val.idempotencyKey owner
    stage outcome now resultReference)

end AiRetrieval.BulkCoordinator
