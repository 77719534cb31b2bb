import AiRetrieval.Library.Programs
import AiRetrieval.Spec.TaskRuntime

/-! `DeterministicTaskPacker` of `tasks/packing.py`: the canonical payload of some rows, the loop
that cuts the rows into packs, and the payloads that are stored for them. -/

namespace AiRetrieval

namespace CanonicalPayload

mutual

def plain : FrozenValue → Except PyError Document
  | .none => .ok .null
  | .bool value => .ok (.bool value)
  | .int value => .ok (.int value)
  | .float value =>
    if value.isFinite then .ok (.float value)
    else .error (.valueError "canonical JSON numbers must be finite")
  | .str value => .ok (.text (CodeText.ofString value))
  | .tuple items => .array <$> plainItems items
  | .frozenset _ => .error (.typeError "unsupported canonical JSON value: frozenset")
  | .mapping entries => .object <$> plainEntries [] entries

def plainItems : List FrozenValue → Except PyError (List Document)
  | [] => .ok []
  | value :: rest => do return (← plain value) :: (← plainItems rest)

/-- The comprehension over `items()`, which gives the first value under a key each time. -/
def plainEntries (seen : List String) :
    List (String × FrozenValue) → Except PyError (List (CodeText × Document))
  | [] => .ok []
  | (key, value) :: rest =>
    if key ∈ seen then plainEntries seen rest
    else do
      let item ← plain value
      return (CodeText.ofString key, item) :: (← plainEntries (key :: seen) rest)

end

def rowObject (row : RowInput) : Except PyError Document := do
  let source ← plain (.mapping row.val.sourceFields)
  return .object [(CodeText.ofString "id", .text (CodeText.ofString row.val.identifier)),
    (CodeText.ofString "source", source)]

/-- `_canonical_plain(_payload_object(...))`. -/
def payloadObject (definition : TaskDefinition) (parameters : FrozenMapping)
    (rows : List RowInput) : Except PyError Document := do
  let plainParameters ← plain (.mapping parameters)
  let plainRows ← rows.mapM rowObject
  let plainSchema ← plain (.mapping definition.outputSchema)
  return .object [
    (CodeText.ofString "task", .text (CodeText.ofString definition.function.value)),
    (CodeText.ofString "definition_version", .text (CodeText.ofString definition.version)),
    (CodeText.ofString "instructions", .text (CodeText.ofString definition.promptTemplate)),
    (CodeText.ofString "parameters", plainParameters),
    (CodeText.ofString "rows", .array plainRows),
    (CodeText.ofString "output_schema", plainSchema)]

/-- `canonical_payload_bytes(_payload_object(...))`. -/
def payloadBytes (runtime : PythonRuntime) (definition : TaskDefinition)
    (parameters : FrozenMapping) (rows : List RowInput) : Except PyError Bytes :=
  (do encodeText (← dumps runtime (← payloadObject definition parameters rows))).mapError
    serializationError

end CanonicalPayload

structure TokenEstimator where
  estimateInput : Bytes → PyValue
  estimateOutput : TaskDefinition → Nat → PyValue

abbrev PayloadReferenceStore := List (Bytes × String) → Bytes → String → String

structure CandidatePack where
  rows : List RowInput
  payload : Bytes
  inputTokens : Nat
  outputTokens : Nat

/-- What stops the packing: `_OversizedRow`, or what else is raised. -/
inductive PackingStop where
  | oversizedRow (rowId : String)
  | raised (error : PyError)

/-- A packer, with the interpreter it runs in. -/
structure DeterministicTaskPacker where
  runtime : PythonRuntime
  estimator : TokenEstimator
  payloadStore : PayloadReferenceStore

/-- A program that puts payloads; its state is what was put. -/
abbrev Packing.Storing := Program PyError (List (Bytes × String))

namespace DeterministicTaskPacker

variable (packer : DeterministicTaskPacker)

def estimate (value : PyValue) (name : String) : Except PyError Nat :=
  value.natural (name ++ " must be a nonnegative integer")

def candidate (definition : TaskDefinition) (parameters : FrozenMapping) (rows : List RowInput) :
    Except PyError CandidatePack := do
  let payload ← CanonicalPayload.payloadBytes packer.runtime definition parameters rows
  let inputTokens ← estimate (packer.estimator.estimateInput payload) "input token estimate"
  let outputTokens ← estimate (packer.estimator.estimateOutput definition rows.length)
    "output token estimate"
  return ⟨rows, payload, inputTokens, outputTokens⟩

def fits (definition : TaskDefinition) (candidate : CandidatePack) : Bool :=
  let limits := definition.packingLimits
  decide ((candidate.rows.length : Int) ≤ limits.maxItems) &&
    decide ((candidate.inputTokens : Int) ≤ limits.maxInputTokens) &&
    decide ((candidate.outputTokens : Int) ≤ limits.maxOutputTokens) &&
    decide ((candidate.payload.length : Int) ≤ limits.maxPayloadBytes)

/-- The loop of `_build_candidates`, with the rows of the pack that is open. -/
def buildFrom (definition : TaskDefinition) (parameters : FrozenMapping)
    (current : List RowInput) : List RowInput → Except PackingStop (List CandidatePack)
  | [] =>
    if current.isEmpty then .ok []
    else do
      return [← (packer.candidate definition parameters current).mapError PackingStop.raised]
  | row :: rest => do
    let proposed ←
      (packer.candidate definition parameters (current ++ [row])).mapError PackingStop.raised
    if fits definition proposed then buildFrom definition parameters proposed.rows rest
    else if current.isEmpty then throw (.oversizedRow row.val.identifier)
    else do
      let full ← (packer.candidate definition parameters current).mapError PackingStop.raised
      let single ← (packer.candidate definition parameters [row]).mapError PackingStop.raised
      if fits definition single then
        return full :: (← buildFrom definition parameters single.rows rest)
      else throw (.oversizedRow row.val.identifier)

def buildCandidates (resolved : ResolvedTask) : Except PackingStop (List CandidatePack) :=
  packer.buildFrom resolved.val.definition resolved.val.invocation.val.parameters []
    resolved.val.invocation.val.rows

def packingFailure (code : TaskFailureCode) (ruleId : String) (details : FrozenMapping) :
    Except PyError TaskFailure :=
  Checked.make TaskFailure.postInit ⟨.packing, code, [ruleId], details⟩

/-- The failure of a packing that stopped; what is no `TypeError` or `ValueError` escapes. -/
def stopped : PackingStop → Except PyError TaskFailure
  | .oversizedRow rowId => packingFailure .oversizedRow "task_payload.row_fits_empty_pack"
    [("reason", .str "oversized_row"), ("row_id", .str rowId)]
  | .raised (.raised (.other "CanonicalSerializationError") _) =>
    packingFailure .invalidTaskInvocation "task_payload.canonical_json"
      [("error_type", .str "CanonicalSerializationError"),
        ("reason", .str "unsupported_canonical_value")]
  | .raised (.raised .typeError _) =>
    packingFailure .invalidTaskInvocation "task_payload.estimate"
      [("error_type", .str "TypeError"), ("reason", .str "invalid_token_estimate")]
  | .raised (.raised .valueError _) =>
    packingFailure .invalidTaskInvocation "task_payload.estimate"
      [("error_type", .str "ValueError"), ("reason", .str "invalid_token_estimate")]
  | .raised error => .error error

/-- The pack at `index`, once its payload is stored under a reference. -/
def packed (definition : TaskDefinition) (index : Nat) (candidate : CandidatePack) :
    Except PyError PackedRequest :=
  Checked.make PackedRequest.postInit {
    function := definition.function
    definitionVersion := definition.version
    packIndex := index
    inputIds := candidate.rows.map (·.val.identifier)
    payload := candidate.payload
    estimatedInputTokens := candidate.inputTokens
    estimatedOutputTokens := candidate.outputTokens }

def modelWork (definition : TaskDefinition) (reference : String) (candidate : CandidatePack) :
    Except PyError ModelWork :=
  Checked.make ModelWork.postInit {
    taskType := definition.function.value
    payloadReference := reference
    inputIds := candidate.rows.map (·.val.identifier)
    requiredCapabilities := definition.requiredCapabilities
    taskDefinitionVersion := some definition.version
    estimatedInputTokens := some candidate.inputTokens
    estimatedOutputTokens := some candidate.outputTokens }

/-- `self._payload_store.put(payload, content_hash)`. -/
def put (payload : Bytes) : Packing.Storing String := do
  let stored ← get
  let contentHash := packer.runtime.sha256 payload
  set (stored ++ [(payload, contentHash)])
  return packer.payloadStore stored payload contentHash

/-- The loop that stores the candidates, from the index on. -/
def storeFrom (definition : TaskDefinition) :
    Nat → List CandidatePack → Packing.Storing (List (PackedRequest × ModelWork))
  | _, [] => return []
  | index, candidate :: rest => do
    let reference ← packer.put candidate.payload
    let pack ← liftM (packed definition index candidate)
    let work ← liftM (modelWork definition reference candidate)
    return (pack, work) :: (← storeFrom definition (index + 1) rest)

def prepare (resolved : ResolvedTask) : Packing.Storing (Except TaskFailure PreparedTask) := do
  match packer.buildCandidates resolved with
  | .error stop => return .error (← liftM (stopped stop))
  | .ok candidates =>
    let stored ← packer.storeFrom resolved.val.definition 0 candidates
    let prepared ← liftM (Checked.make PreparedTask.postInit {
      definition := resolved.val.definition
      invocation := resolved.val.invocation
      packs := stored.map Prod.fst
      modelWork := stored.map Prod.snd })
    return .ok prepared

end DeterministicTaskPacker

end AiRetrieval
