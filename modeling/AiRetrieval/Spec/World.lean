import AiRetrieval.Library.Texts
import AiRetrieval.Spec.MemoryAdapters
import AiRetrieval.Spec.WriteBackRecords

/-! The state the bulk subsystem runs over and the outside it asks. Every answer
of the outside is a function of the number of answers given before, so a clock, an
identifier source, an adapter or a sink is any sequence of values and raises. -/

namespace AiRetrieval

/-- What is outside the subsystem: clocks, identifier sources, adapters and sinks,
the digest, and the text and float functions of the standard library. -/
structure Environment where
  sha256 : Bytes → String
  /-- `int(delta.total_seconds() * 1000)`, in binary64. -/
  elapsedMs : TimeDelta → Int
  /-- `json.dumps(value, sort_keys=True, separators=(",", ":"), ensure_ascii=False)`, which
  raises for an integer of too many digits. -/
  jsonDumps : PyValue → Except PyError CodeText
  /-- `repr(value)`, which raises there too and escapes what is no character. -/
  repr : PyValue → Except PyError String
  /-- The code points of a text; a lone surrogate among them is no character of a `String`. -/
  points : String → CodeText
  startedAt : DateTime
  failItemIds : List String
  clock : Nat → Except PyError DateTime
  identifier : Nat → Except PyError String
  brokerIdentifier : Nat → Except PyError String
  telemetry : Nat → BulkStateTelemetry → Except PyError Unit
  audit : Nat → WriteBackAuditEvent → Except PyError Unit
  authorization : Nat → String → String → Except PyError AuthorizationSnapshot
  executeShared : Nat → EffectRequest → ExecutionContext → Except PyError EffectEvidence
  verifyEffect : Nat → String → String → ExecutionContext → Except PyError EffectEvidence
  executeNonShared : Nat → ApprovedEffect → String → ExecutionContext → Except PyError EffectAttempt

inductive AdapterOperation where
  | executeShared
  | verifyEffect
  | executeNonShared
  deriving DecidableEq

/-- One call of the effect adapter: the request it served, the durable store and the
clock at that moment, and the outcome it reported, if it returned. -/
structure AdapterCall where
  operation : AdapterOperation
  request : EffectRequest
  store : WorkRepository
  clock : Except PyError DateTime
  report : Option EffectEvidenceStatus

def WorkRepository.recordedStages (s : WorkRepository) (key : Key) : List CheckpointStage :=
  (s.checkpointsOf key).map (·.val.completedStage)

/-- One run of `process_stage`: the item, the stages recorded when it started and the
stage it works on. -/
structure StageRun where
  key : Key
  recorded : List CheckpointStage
  stage : Option CheckpointStage

/-- One `execute` of the write-back executor that returned: its arguments, the durable
store and the number of answers given when it started, the reported status and the
durable store it left. -/
structure WriteBackReport where
  command : WriteBackCommand
  context : ExecutionContext
  before : WorkRepository
  moment : Nat
  status : WriteBackExecutionStatus
  after : WorkRepository

structure Usage where
  tokens : Nat := 0
  cost : Nat := 0
  deriving DecidableEq

structure World where
  store : WorkRepository
  objects : ObjectResultStore
  broker : NotificationBroker
  deadLetters : DeadLetterQueue
  usage : Dict String Usage
  /-- `_BulkPipeline.statuses`. -/
  statuses : Dict String String
  /-- The number of answers the outside has given. -/
  moment : Nat
  /-- The effect adapter's calls so far, oldest first. -/
  adapterCalls : List AdapterCall
  /-- The stages processed so far, oldest first. -/
  stageRuns : List StageRun
  /-- The model invocations so far: the item and the stages recorded at that moment. -/
  modelCalls : List (Key × List CheckpointStage)
  /-- The write-back executions that returned so far, oldest first. -/
  writeBacks : List WriteBackReport

namespace World

def empty : World :=
  ⟨.empty, .empty, .empty, .empty, .empty, .empty, 0, [], [], [], []⟩

end World

abbrev Action := Program PyError World

namespace Action

def onStore {α : Type} (x : WorkRepository.Op α) : Action α :=
  Program.zoom World.store (fun w s => { w with store := s }) x

def onObjects {α : Type} (x : ObjectResultStore.Op α) : Action α :=
  Program.zoom World.objects (fun w s => { w with objects := s }) x

def onBroker {α : Type} (x : NotificationBroker.Op α) : Action α :=
  Program.zoom World.broker (fun w s => { w with broker := s }) x

def onDeadLetters {α : Type} (x : DeadLetterQueue.Op α) : Action α :=
  Program.zoom World.deadLetters (fun w s => { w with deadLetters := s }) x

/-- `put_result(result) if result is not None else None`. -/
def putResult? (sha256 : Bytes → String) : Option Bytes → Action (Option ObjectReference)
  | some data => some <$> onObjects (ObjectResultStore.putResult sha256 data)
  | none => pure none

/-- The next answer of the outside. -/
def ask {α : Type} (answer : Nat → Except PyError α) : Action α := do
  let w ← get
  set { w with moment := w.moment + 1 }
  answer w.moment

end Action

end AiRetrieval
