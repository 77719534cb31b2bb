import AiRetrieval.Spec.Basic
import Mathlib.Data.List.Nodup
import Mathlib.Data.List.Sort

/-! The records of `bulk/models.py` and the configuration values they carry. The
fields of a record are a structure `Fields`; the record itself is the fields that
passed its `__post_init__`. Counts that the source checks to be non-negative are
natural numbers. -/

namespace AiRetrieval

/-- A binary64 value, with the signs and the special values `repr` tells apart; a `NaN` is known
by the object it is, which is all that containers compare of it. -/
inductive PyFloat where
  | nan (object : Nat)
  | infinite (negative : Bool)
  | finite (negative : Bool) (magnitude : Rat)

/-- `FrozenValue` of `domain/immutable.py`; a mapping keeps its items in order. -/
inductive FrozenValue where
  | none
  | bool (value : Bool)
  | int (value : Int)
  | float (value : PyFloat)
  | str (value : String)
  | tuple (items : List FrozenValue)
  | frozenset (items : List FrozenValue)
  | mapping (items : List (String × FrozenValue))

abbrev FrozenMapping := List (String × FrozenValue)

def FrozenMapping.get (m : FrozenMapping) (key : String) : Option FrozenValue := m.lookup key

structure ConfigurationReference.Fields where
  profileId : String
  version : String
  deriving DecidableEq

def ConfigurationReference.postInit (r : ConfigurationReference.Fields) : Except PyError Unit :=
  require (blank r.profileId = false ∧ blank r.version = false)
    (.valueError "configuration profile_id and version must not be blank")

abbrev ConfigurationReference := Checked ConfigurationReference.postInit

structure ExecutionConfiguration where
  reference : ConfigurationReference
  content : FrozenMapping
  securityPolicyVersion : Option String := none
  validationRulesVersion : Option String

inductive ExecutionPath where
  | interactive
  | bulk
  deriving DecidableEq

def ExecutionId.postInit (value : String) : Except PyError Unit :=
  require (blank value = false) (.valueError "execution_id must not be blank")

abbrev ExecutionId := Checked ExecutionId.postInit

def CorrelationId.postInit (value : String) : Except PyError Unit :=
  require (blank value = false) (.valueError "correlation_id must not be blank")

abbrev CorrelationId := Checked CorrelationId.postInit

structure DeadlineContext.Fields where
  acceptedAt : DateTime
  deadline : Option DateTime
  deriving DecidableEq

def DeadlineContext.postInit (r : DeadlineContext.Fields) : Except PyError Unit :=
  match r.deadline with
  | none => .ok ()
  | some deadline => do
    require (¬(← deadline.before r.acceptedAt) = true)
      (.valueError "deadline must not precede acceptance")

abbrev DeadlineContext := Checked DeadlineContext.postInit

structure ExecutionContext where
  executionId : ExecutionId
  correlationId : CorrelationId
  path : ExecutionPath
  configuration : ExecutionConfiguration
  timing : DeadlineContext

inductive ArtifactKind where
  | payload
  | result
  deriving DecidableEq

def ArtifactKind.value : ArtifactKind → String
  | .payload => "payload"
  | .result => "result"

inductive WorkState where
  | pending
  | inProgress
  | checkpointed
  | completed
  deriving DecidableEq

inductive CheckpointStage where
  | accepted
  | modelCompleted
  | resultStored
  | validated
  | completed
  deriving DecidableEq

namespace CheckpointStage

/-- `tuple(CheckpointStage)`. -/
def all : List CheckpointStage :=
  [.accepted, .modelCompleted, .resultStored, .validated, .completed]

/-- The position of the stage in `tuple(CheckpointStage)`. -/
def order (stage : CheckpointStage) : Nat := all.idxOf stage

def next (stage : CheckpointStage) : Option CheckpointStage := all[stage.order + 1]?

theorem order_lt (stage : CheckpointStage) : stage.order < 5 := by cases stage <;> decide

theorem order_injective : Function.Injective order := by
  intro a b h
  cases a <;> cases b <;> first | rfl | exact absurd h (by decide)

@[simp] theorem order_completed : order .completed = 4 := rfl

theorem order_next {a b : CheckpointStage} (h : a.next = some b) : b.order = a.order + 1 := by
  cases a <;> cases b <;> first | rfl | exact absurd h (by decide)

theorem next_eq_none {a : CheckpointStage} : a.next = none ↔ a = .completed := by
  cases a <;> decide

end CheckpointStage

inductive ClaimStatus where
  | acquired
  | activeDuplicate
  deriving DecidableEq

inductive OutboxStatus where
  | pending
  | published
  deriving DecidableEq

structure ObjectReference.Fields where
  reference : String
  contentHash : String
  kind : ArtifactKind
  sizeBytes : Nat
  deriving DecidableEq

def ObjectReference.postInit (r : ObjectReference.Fields) : Except PyError Unit := do
  requireText "object reference" r.reference
  requireText "content hash" r.contentHash

abbrev ObjectReference := Checked ObjectReference.postInit

structure WorkSubmission.Fields where
  jobId : String
  itemId : String
  idempotencyKey : String
  payload : Bytes
  deriving DecidableEq

def WorkSubmission.postInit (r : WorkSubmission.Fields) : Except PyError Unit :=
  requireTexts [("job_id", r.jobId), ("item_id", r.itemId), ("idempotency_key", r.idempotencyKey)]

abbrev WorkSubmission := Checked WorkSubmission.postInit

structure WorkItemRecord.Fields where
  jobId : String
  itemId : String
  idempotencyKey : String
  payloadReference : ObjectReference
  configuration : ConfigurationReference
  state : WorkState
  attemptCount : Nat := 0
  leaseOwner : Option String := none
  leaseExpiresAt : Option DateTime := none
  resultReference : Option ObjectReference := none
  revision : Nat := 0
  deriving DecidableEq

/-- `lease_owner is not None or lease_expires_at is not None`. -/
def WorkItemRecord.Fields.active (r : WorkItemRecord.Fields) : Prop :=
  r.leaseOwner.isSome ∨ r.leaseExpiresAt.isSome

instance (r : WorkItemRecord.Fields) : Decidable r.active :=
  inferInstanceAs (Decidable (_ ∨ _))

def WorkItemRecord.postInit (r : WorkItemRecord.Fields) : Except PyError Unit := do
  requireTexts [("job_id", r.jobId), ("item_id", r.itemId), ("idempotency_key", r.idempotencyKey)]
  require (r.active ↔ (r.leaseOwner.isSome ∧ r.leaseExpiresAt.isSome))
    (.valueError "lease owner and expiry must be present together")
  require (¬(r.state = .inProgress ∧ ¬r.active)) (.valueError "in-progress work requires a lease")
  require (¬(r.state ≠ .inProgress ∧ r.active))
    (.valueError "only in-progress work may hold a lease")

abbrev WorkItemRecord := Checked WorkItemRecord.postInit

structure CheckpointRecord.Fields where
  jobId : String
  itemId : String
  idempotencyKey : String
  completedStage : CheckpointStage
  attemptCount : Nat
  outcome : String
  configuration : ConfigurationReference
  resultReference : Option ObjectReference
  recordedAt : DateTime
  sequence : Nat
  deriving DecidableEq

def CheckpointRecord.postInit (r : CheckpointRecord.Fields) : Except PyError Unit := do
  requireText "checkpoint outcome" r.outcome
  require (1 ≤ r.attemptCount ∧ 1 ≤ r.sequence)
    (.valueError "checkpoint attempt and sequence must be positive")

abbrev CheckpointRecord := Checked CheckpointRecord.postInit

structure WorkNotification.Fields where
  eventId : String
  jobId : String
  itemId : String
  idempotencyKey : String
  configurationVersion : String
  payloadReference : String
  payloadHash : String
  aggregateRevision : Nat
  deriving DecidableEq

def WorkNotification.postInit (r : WorkNotification.Fields) : Except PyError Unit :=
  requireTexts [("event_id", r.eventId), ("job_id", r.jobId), ("item_id", r.itemId),
    ("idempotency_key", r.idempotencyKey), ("configuration_version", r.configurationVersion),
    ("payload_reference", r.payloadReference), ("payload_hash", r.payloadHash)]

abbrev WorkNotification := Checked WorkNotification.postInit

structure OutboxRecord.Fields where
  eventId : String
  notification : WorkNotification
  status : OutboxStatus := .pending
  publishedAt : Option DateTime := none
  deriving DecidableEq

def OutboxRecord.postInit (r : OutboxRecord.Fields) : Except PyError Unit := do
  require (¬(r.status = .published ∧ r.publishedAt = none))
    (.valueError "published outbox records require a timestamp")
  require (¬(r.status = .pending ∧ r.publishedAt ≠ none))
    (.valueError "pending outbox records cannot have a publish timestamp")

abbrev OutboxRecord := Checked OutboxRecord.postInit

structure WorkClaim where
  status : ClaimStatus
  item : WorkItemRecord
  latestCheckpoint : Option CheckpointRecord
  deriving DecidableEq

def WorkClaim.acquired (c : WorkClaim) : Prop := c.status = .acquired

instance (c : WorkClaim) : Decidable c.acquired := inferInstanceAs (Decidable (_ = _))

/-- `not claim.acquired or claim.item.lease_owner is None` raises; otherwise the owner. -/
def WorkClaim.requireOwner (c : WorkClaim) : Except PyError String :=
  match c.item.val.leaseOwner with
  | some owner =>
    if c.acquired then .ok owner else .error (.valueError "an acquired claim is required")
  | none => .error (.valueError "an acquired claim is required")

theorem WorkClaim.requireOwner_eq_ok {c : WorkClaim} {owner : String} :
    c.requireOwner = .ok owner ↔ c.acquired ∧ c.item.val.leaseOwner = some owner := by
  unfold WorkClaim.requireOwner
  cases c.item.val.leaseOwner with
  | none => simp
  | some o => by_cases h : c.acquired <;> simp [h]

structure ResumeState where
  item : WorkItemRecord
  latestCheckpoint : Option CheckpointRecord
  nextStage : Option CheckpointStage
  deriving DecidableEq

structure BrokerDelivery.Fields where
  deliveryId : String
  notification : WorkNotification
  deriving DecidableEq

def BrokerDelivery.postInit (r : BrokerDelivery.Fields) : Except PyError Unit :=
  requireText "delivery_id" r.deliveryId

abbrev BrokerDelivery := Checked BrokerDelivery.postInit

structure TerminalWorkItemRecord.Fields where
  jobId : String
  itemId : String
  idempotencyKey : String
  state : TerminalWorkItemState
  failureCode : Option String
  failureDetails : Option String
  configuration : ConfigurationReference
  attemptCount : Nat
  resultReference : Option ObjectReference
  recordedAt : DateTime
  deriving DecidableEq

/-- `not code or not code.strip()`. -/
def missingCode (code : Option String) : Bool := code.all blank

def TerminalWorkItemRecord.postInit (r : TerminalWorkItemRecord.Fields) : Except PyError Unit := do
  requireTexts [("job_id", r.jobId), ("item_id", r.itemId), ("idempotency_key", r.idempotencyKey)]
  require (1 ≤ r.attemptCount)
    (.valueError "terminal work item attempt count must be positive")
  require (r.recordedAt.aware = true)
    (.valueError "terminal work item timestamp must be timezone-aware")
  require (¬(r.state = .succeeded ∧ (r.failureCode ≠ none ∨ r.failureDetails ≠ none)))
    (.valueError "succeeded work cannot contain failure details")
  require (¬(r.state ≠ .succeeded ∧ missingCode r.failureCode))
    (.valueError "nonsuccess terminal work requires a failure code")

abbrev TerminalWorkItemRecord := Checked TerminalWorkItemRecord.postInit

structure DeadLetterEntry.Fields where
  jobId : String
  itemId : String
  idempotencyKey : String
  failureCode : String
  failureDetails : Option String
  attemptCount : Nat
  configuration : ConfigurationReference
  resultReference : Option ObjectReference
  persistedAt : DateTime
  deriving DecidableEq

def DeadLetterEntry.postInit (r : DeadLetterEntry.Fields) : Except PyError Unit := do
  requireTexts [("job_id", r.jobId), ("item_id", r.itemId),
    ("idempotency_key", r.idempotencyKey), ("failure_code", r.failureCode)]
  require (1 ≤ r.attemptCount) (.valueError "dead-letter attempt count must be positive")
  require (r.persistedAt.aware = true)
    (.valueError "dead-letter timestamp must be timezone-aware")

abbrev DeadLetterEntry := Checked DeadLetterEntry.postInit

structure PersistenceFailureOutcome.Fields where
  jobId : String
  itemId : String
  operation : String
  reason : String
  recordedAt : DateTime
  deriving DecidableEq

def PersistenceFailureOutcome.postInit (r : PersistenceFailureOutcome.Fields) :
    Except PyError Unit :=
  requireTexts [("job_id", r.jobId), ("item_id", r.itemId), ("operation", r.operation),
    ("reason", r.reason)]

abbrev PersistenceFailureOutcome := Checked PersistenceFailureOutcome.postInit

inductive TerminalJobClassification where
  | succeeded
  | partiallySucceeded
  | failed
  | budgetExhausted
  | cancelled
  deriving DecidableEq

inductive JobTerminalCause where
  | completed
  | budgetExhausted
  | cancelled
  deriving DecidableEq

structure TerminalStateGroup.Fields where
  state : TerminalWorkItemState
  count : Nat
  itemIds : List String
  deriving DecidableEq

def TerminalStateGroup.postInit (r : TerminalStateGroup.Fields) : Except PyError Unit := do
  require (r.count = r.itemIds.length)
    (.valueError "terminal state count must equal identifier count")
  require ((∀ i ∈ r.itemIds, blank i = false) ∧ r.itemIds.Nodup)
    (.valueError "terminal state identifiers must be unique and non-blank")

abbrev TerminalStateGroup := Checked TerminalStateGroup.postInit

structure TerminalJobReport.Fields where
  jobId : String
  classification : TerminalJobClassification
  groups : List TerminalStateGroup
  totalCount : Nat
  terminalCause : JobTerminalCause
  completedAt : DateTime
  deriving DecidableEq

def TerminalJobReport.postInit (r : TerminalJobReport.Fields) : Except PyError Unit := do
  requireText "job_id" r.jobId
  require (0 < r.totalCount)
    (.valueError "terminal job reports require at least one work item")
  require (r.groups.map (·.val.state) = TerminalWorkItemState.all)
    (.valueError "terminal job report must contain every state in deterministic order")
  let identifiers := r.groups.flatMap (·.val.itemIds)
  require (r.totalCount = identifiers.length ∧ identifiers.Nodup)
    (.valueError "terminal report groups must form a complete disjoint partition")

abbrev TerminalJobReport := Checked TerminalJobReport.postInit

structure BulkStateTelemetry.Fields where
  jobId : String
  countsByState : List (TerminalWorkItemState × Nat)
  retryCount : Nat
  validationFailureCount : Nat
  deadLetterCount : Nat
  tokenUsage : Nat
  monetaryCostMinorUnits : Nat
  elapsedMs : Nat
  persistenceFailureCount : Nat
  deriving DecidableEq

def BulkStateTelemetry.postInit (r : BulkStateTelemetry.Fields) : Except PyError Unit :=
  require (r.countsByState.map Prod.fst = TerminalWorkItemState.all)
    (.valueError "bulk telemetry must contain every terminal state in deterministic order")

abbrev BulkStateTelemetry := Checked BulkStateTelemetry.postInit

structure WorkItemExecutionResult.Fields where
  state : TerminalWorkItemState
  failureCode : Option String := none
  failureDetails : Option String := none
  result : Option Bytes := none
  tokenUsage : Nat := 0
  monetaryCostMinorUnits : Nat := 0
  deriving DecidableEq

def WorkItemExecutionResult.postInit (r : WorkItemExecutionResult.Fields) :
    Except PyError Unit := do
  require (¬(r.state = .succeeded ∧ (r.failureCode ≠ none ∨ r.failureDetails ≠ none)))
    (.valueError "succeeded execution cannot contain failure details")
  require (¬(r.state ≠ .succeeded ∧ missingCode r.failureCode))
    (.valueError "nonsuccess execution requires a failure code")

abbrev WorkItemExecutionResult := Checked WorkItemExecutionResult.postInit

theorem WorkItemRecord.lease_iff (r : WorkItemRecord) :
    (r.val.leaseOwner.isSome ↔ r.val.state = .inProgress) ∧
      (r.val.leaseExpiresAt.isSome ↔ r.val.state = .inProgress) := by
  have h := r.passed
  simp only [WorkItemRecord.postInit, except_seq_eq_ok, require_eq_ok] at h
  unfold WorkItemRecord.Fields.active at h
  tauto

theorem WorkItemRecord.texts (r : WorkItemRecord) :
    blank r.val.jobId = false ∧ blank r.val.itemId = false ∧
      blank r.val.idempotencyKey = false := by
  have h := r.passed
  simp only [WorkItemRecord.postInit, except_seq_eq_ok, requireTexts_eq_ok,
    List.forall_mem_cons] at h
  exact ⟨h.1.1, h.1.2.1, h.1.2.2.1⟩

theorem WorkItemRecord.postInit_eq_ok {f : WorkItemRecord.Fields}
    (ht : blank f.jobId = false ∧ blank f.itemId = false ∧ blank f.idempotencyKey = false)
    (ho : f.leaseOwner.isSome ↔ f.state = .inProgress)
    (he : f.leaseExpiresAt.isSome ↔ f.state = .inProgress) :
    WorkItemRecord.postInit f = .ok () := by
  simp only [WorkItemRecord.postInit, except_seq_eq_ok, require_eq_ok, requireTexts_eq_ok,
    List.forall_mem_cons]
  unfold WorkItemRecord.Fields.active
  refine ⟨⟨ht.1, ht.2.1, ht.2.2, by simp⟩, ?_⟩
  tauto

end AiRetrieval
