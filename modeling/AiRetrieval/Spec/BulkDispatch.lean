import AiRetrieval.Library.Escapes
import AiRetrieval.Spec.Budget
import AiRetrieval.Spec.Coordinator
import AiRetrieval.Spec.InteractiveRecords
import AiRetrieval.Spec.TaskPacker

/-! `_BulkDispatcher` of `composition/prototype.py` and the batch jobs of `domain/work.py`: the
items of a job are submitted one by one, and the outbox is relayed after the last of them. -/

namespace AiRetrieval

structure BulkTaskWork.Fields where
  function : String
  parameters : FrozenMapping
  sourceRows : FrozenMapping := []
  requestedDefinitionVersion : Option String := none

def BulkTaskWork.postInit (r : BulkTaskWork.Fields) : Except PyError Unit := do
  require (blank r.function = false) (.valueError "bulk task function must not be blank")
  require (r.requestedDefinitionVersion.all fun version => blank version = false)
    (.valueError "requested task definition version must not be blank")

abbrev BulkTaskWork := Checked BulkTaskWork.postInit

structure BatchJob.Fields where
  jobId : String
  itemIds : List String
  modelWork : List ModelWork := []
  task : Option BulkTaskWork := none

def BatchJob.postInit (r : BatchJob.Fields) : Except PyError Unit := do
  require (blank r.jobId = false) (.valueError "job_id must not be blank")
  require (r.itemIds ≠ [] ∧ ∀ value ∈ r.itemIds, blank value = false)
    (.valueError "a batch job requires non-blank item identifiers")
  require (r.task.isNone ∨ r.modelWork.isEmpty)
    (.valueError "batch job cannot mix task work and legacy ModelWork")

abbrev BatchJob := Checked BatchJob.postInit

structure BulkDispatchResult where
  jobId : String
  itemCount : Nat
  submittedItemIds : List String
  deriving DecidableEq

structure Dispatching where
  world : World
  controller : Option InMemoryBudgetController

namespace BulkDispatcher

/-- `json.dumps(value, sort_keys=True)`. -/
def defaultStyle : JsonValue.Style where
  quote := JsonValue.quotedAscii
  comma := CodeText.ofString ", "
  colon := CodeText.ofString ": "

variable (runtime : PythonRuntime)

/-- The payload of an item of a job without a task. -/
def legacyPayload (itemId : String) : Except PyError Bytes :=
  let document : Document := .object [
    (CodeText.ofString "id", .text (CodeText.ofString itemId)),
    (CodeText.ofString "label", .text (CodeText.ofString "ok"))]
  encodeText (document.sorted.write defaultStyle runtime.numberText)

def source (task : BulkTaskWork) (itemId : String) : FrozenMapping :=
  match task.val.sourceRows.get itemId with
  | some (.mapping source) => source
  | _ => [("text", .str itemId)]

def taskPayload (task : BulkTaskWork) (itemId : String) : Except PyError Bytes :=
  (do
    let parameters ← CanonicalPayload.plain (.mapping task.val.parameters)
    let row ← CanonicalPayload.plain (.mapping (source task itemId))
    let version : Document := match task.val.requestedDefinitionVersion with
      | none => .null
      | some version => .text (CodeText.ofString version)
    let document : Document := .object [
      (CodeText.ofString "kind", .text (CodeText.ofString "task_invocation")),
      (CodeText.ofString "function", .text (CodeText.ofString task.val.function)),
      (CodeText.ofString "parameters", parameters),
      (CodeText.ofString "rows", .array [.object [
        (CodeText.ofString "id", .text (CodeText.ofString itemId)),
        (CodeText.ofString "source", row)]]),
      (CodeText.ofString "requested_definition_version", version)]
    encodeText (← CanonicalPayload.dumps runtime document)).mapError
      CanonicalPayload.serializationError

def payload (job : BatchJob) (itemId : String) : Except PyError Bytes :=
  match job.val.task with
  | none => legacyPayload runtime itemId
  | some task => taskPayload runtime task itemId

/-- `f"{job.job_id}:{item_id}"`. -/
def idempotencyKey (job : BatchJob) (itemId : String) : String :=
  job.val.jobId ++ ":" ++ itemId

variable (env : Environment) (job : BatchJob) (context : ExecutionContext)

/-- The body of the loop. -/
def submitItem (itemId : String) : Action Unit := do
  let data ← payload runtime job itemId
  let submission ← Checked.make WorkSubmission.postInit
    ⟨job.val.jobId, itemId, idempotencyKey job itemId, data⟩
  let _ ← BulkCoordinator.submit env submission context
  return ()

/-- The loop over the items. -/
def submitItems : List String → Action Unit
  | [] => return ()
  | itemId :: rest => do
    submitItem runtime env job context itemId
    submitItems rest

def onWorld {α : Type} (x : Action α) : Program PyError Dispatching α :=
  Program.zoom Dispatching.world (fun s w => { s with world := w }) x

/-- `self._controller.bind(context, (self._scope,))`, where there is a controller. -/
def bindBudget (scope : String) : Program PyError Dispatching Unit := do
  let s ← get
  match s.controller with
  | none => return ()
  | some controller =>
    let bound := (InMemoryBudgetController.bind context [scope]).exec controller
    set { s with controller := some bound.2 }
    let _ ← bound.1
    return ()

def dispatch (scope : String) : Program PyError Dispatching BulkDispatchResult := do
  bindBudget context scope
  onWorld (submitItems runtime env job context job.val.itemIds)
  let _ ← onWorld (BulkCoordinator.relayPending env)
  return ⟨job.val.jobId, job.val.itemIds.length, job.val.itemIds⟩

end BulkDispatcher

end AiRetrieval
