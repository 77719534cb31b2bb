import AiRetrieval.Library.Histories
import AiRetrieval.Spec.WorkRepository

/-! The other adapters of `bulk/memory.py`: the content-addressed object store,
the notification broker and the dead-letter queue. What they ask of the outside
(a digest, an identifier) is an argument, and a source that raises is an
`Except.error`. -/

namespace AiRetrieval

abbrev ObjectResultStore := Dict String Bytes

namespace ObjectResultStore

abbrev Op := Program PyError ObjectResultStore

def put (sha256 : Bytes → String) (data : Bytes) (kind : ArtifactKind) : Op ObjectReference := do
  let digest := sha256 data
  let reference := "memory://" ++ kind.value ++ "/" ++ digest
  modify fun objects =>
    if objects.contains reference then objects else objects.insert reference data
  Checked.make ObjectReference.postInit ⟨reference, digest, kind, data.length⟩

def putPayload (sha256 : Bytes → String) (data : Bytes) : Op ObjectReference :=
  put sha256 data .payload
def putResult (sha256 : Bytes → String) (data : Bytes) : Op ObjectReference :=
  put sha256 data .result

/-- `str` of a `KeyError` is the `repr` of its message. -/
def keyError (message : String) : PyError := .raised .keyError ("'" ++ message ++ "'")

def get (sha256 : Bytes → String) (objects : ObjectResultStore) (reference : ObjectReference) :
    Except PyError Bytes :=
  match objects.get? reference.val.reference with
  | none => .error (keyError ("unknown object reference: " ++ reference.val.reference))
  | some data =>
    if sha256 data ≠ reference.val.contentHash then
      .error (.valueError "stored object does not match its content hash")
    else .ok data

/-- `reference[len(prefix):].split("/", 1)[0]`. -/
def kindName (reference : String) : String :=
  String.ofList ((reference.toList.drop "memory://".length).takeWhile (· ≠ '/'))

def artifactKind (name : String) : Except PyError ArtifactKind :=
  match [ArtifactKind.payload, ArtifactKind.result].find? fun kind => kind.value = name with
  | some kind => .ok kind
  | none => .error (.valueError ("'" ++ name ++ "' is not a valid ArtifactKind"))

def resolve (sha256 : Bytes → String) (objects : ObjectResultStore) (reference : String) :
    Except PyError ObjectReference :=
  match objects.get? reference with
  | none => .error (keyError ("unknown object reference: " ++ reference))
  | some data => do
    require ("memory://".toList.isPrefixOf reference.toList = true)
      (.valueError "unsupported object reference")
    let kind ← artifactKind (kindName reference)
    Checked.make ObjectReference.postInit ⟨reference, sha256 data, kind, data.length⟩

end ObjectResultStore

structure NotificationBroker where
  queued : List WorkNotification
  inflight : Dict String WorkNotification
  deriving DecidableEq

namespace NotificationBroker

def empty : NotificationBroker := ⟨[], .empty⟩

abbrev Op := Program PyError NotificationBroker

def publish (notification : WorkNotification) : Op Unit :=
  modify fun b => { b with queued := b.queued ++ [notification] }

/-- `identifier` is what the identifier source answers if it is asked. -/
def receive (identifier : Except PyError String) : Op (Option BrokerDelivery) := do
  let b ← get
  match b.queued with
  | [] => return none
  | notification :: rest =>
    -- the notification leaves the queue before the identifier is known
    set { b with queued := rest }
    let deliveryId ← identifier
    if blank deliveryId ∨ b.inflight.contains deliveryId then
      throw (.valueError "broker delivery identifiers must be unique and non-blank")
    else
      modify fun b => { b with inflight := b.inflight.insert deliveryId notification }
      let delivery ← Checked.make BrokerDelivery.postInit ⟨deliveryId, notification⟩
      return some delivery

def acknowledge (deliveryId : String) : Op Bool := do
  let b ← get
  set { b with inflight := b.inflight.erase deliveryId }
  return b.inflight.contains deliveryId

def redeliverUnacknowledged : Op Nat := do
  let b ← get
  set { b with inflight := .empty, queued := b.inflight.values ++ b.queued }
  return b.inflight.size

end NotificationBroker

inductive BrokerCall where
  | publish (notification : WorkNotification)
  | receive (identifier : Except PyError String)
  | acknowledge (deliveryId : String)
  | redeliverUnacknowledged

inductive BrokerReply where
  | published
  | delivery (delivery : Option BrokerDelivery)
  | acknowledged (found : Bool)
  | redelivered (count : Nat)

def BrokerCall.program : BrokerCall → NotificationBroker.Op BrokerReply
  | .publish notification => (fun _ => .published) <$> NotificationBroker.publish notification
  | .receive identifier => .delivery <$> NotificationBroker.receive identifier
  | .acknowledge deliveryId => .acknowledged <$> NotificationBroker.acknowledge deliveryId
  | .redeliverUnacknowledged => .redelivered <$> NotificationBroker.redeliverUnacknowledged

/-- The broker takes its lock for each call, so a call is one transition. -/
def brokerMachine : Machine BrokerCall (Except PyError BrokerReply) NotificationBroker :=
  fun call b => call.program.exec b

abbrev BrokerTransition := Transition BrokerCall (Except PyError BrokerReply) NotificationBroker

/-- `_entries`. -/
abbrev DeadLetterQueue := Dict Key DeadLetterEntry

namespace DeadLetterQueue

abbrev Op := Program PyError DeadLetterQueue

def persist (failItemIds : List String) (entry : DeadLetterEntry) : Op DeadLetterEntry := do
  if entry.val.itemId ∈ failItemIds then
    throw (.raised .deadLetterPersistenceError
      ("dead-letter persistence failed for " ++ entry.val.itemId))
  else
    let key := (entry.val.jobId, entry.val.idempotencyKey)
    let entries ← get
    match entries.get? key with
    | some existing =>
      if existing ≠ entry then
        throw (WorkRepository.workConflict "dead-letter evidence is immutable")
      else
        return existing
    | none =>
      set (entries.insert key entry)
      return entry

def entriesOf (entries : DeadLetterQueue) (jobId : String) : List DeadLetterEntry :=
  WorkRepository.sortedBy (·.val.itemId) (entries.values.filter fun entry =>
    entry.val.jobId = jobId)

end DeadLetterQueue

end AiRetrieval
