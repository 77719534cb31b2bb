import AiRetrieval.Spec.BudgetRecords
import AiRetrieval.Spec.WriteBackRecords

/-! The records of `tasks/models.py` and of the model work a task is packed into. A
constructor that is given values of any type raises where a field check does. -/

namespace AiRetrieval

inductive TaskFunction where
  | classify
  | summarize
  deriving DecidableEq

def TaskFunction.all : List TaskFunction := [.classify, .summarize]

def TaskFunction.value : TaskFunction → String
  | .classify => "ai_classify"
  | .summarize => "ai_summarize"

def TaskFunction.of (repr : PyValue → Except PyError String) (value : PyValue) :
    Except PyError TaskFunction :=
  match TaskFunction.all.find? fun function => value.isText function.value with
  | some function => .ok function
  | none => do throw (.valueError ((← repr value) ++ " is not a valid TaskFunction"))

inductive TaskFailureStage where
  | definition
  | resolution
  | invocation
  | packing
  | parsing
  | validation
  deriving DecidableEq

def TaskFailureStage.value : TaskFailureStage → String
  | .definition => "definition"
  | .resolution => "resolution"
  | .invocation => "invocation"
  | .packing => "packing"
  | .parsing => "parsing"
  | .validation => "validation"

inductive TaskFailureCode where
  | invalidTaskDefinition
  | taskDefinitionUnavailable
  | taskDefinitionIncompatible
  | invalidTaskInvocation
  | oversizedRow
  | responseTooLarge
  | unsupportedRepresentation
  | malformedStructuredOutput
  | outputSchemaViolation
  | exactRowMappingViolation
  | labelNotAllowed
  | summaryWordLimitExceeded
  | summaryCharacterLimitExceeded
  deriving DecidableEq

def TaskFailureCode.value : TaskFailureCode → String
  | .invalidTaskDefinition => "invalid_task_definition"
  | .taskDefinitionUnavailable => "task_definition_unavailable"
  | .taskDefinitionIncompatible => "task_definition_incompatible"
  | .invalidTaskInvocation => "invalid_task_invocation"
  | .oversizedRow => "oversized_row"
  | .responseTooLarge => "response_too_large"
  | .unsupportedRepresentation => "unsupported_representation"
  | .malformedStructuredOutput => "malformed_structured_output"
  | .outputSchemaViolation => "output_schema_violation"
  | .exactRowMappingViolation => "exact_row_mapping_violation"
  | .labelNotAllowed => "label_not_allowed"
  | .summaryWordLimitExceeded => "summary_word_limit_exceeded"
  | .summaryCharacterLimitExceeded => "summary_character_limit_exceeded"

structure TaskFailure.Fields where
  stage : TaskFailureStage
  code : TaskFailureCode
  failedRuleIds : List String := []
  details : FrozenMapping := []

def TaskFailure.postInit (r : TaskFailure.Fields) : Except PyError Unit := do
  require (∀ ruleId ∈ r.failedRuleIds, blank ruleId = false)
    (.valueError "task failure rule identifiers must not be blank")
  require r.failedRuleIds.Nodup (.valueError "task failure rule identifiers must be unique")

abbrev TaskFailure := Checked TaskFailure.postInit

structure PackingLimits where
  maxItems : Int
  maxInputTokens : Int
  maxOutputTokens : Int
  maxPayloadBytes : Int

structure SummaryLengthLimits where
  maxSourceCharacters : Int
  maxWords : Int
  maxSummaryCharacters : Int

/-- The checks of a definition are checks of the types of its fields. -/
structure TaskDefinition where
  function : TaskFunction
  version : String
  promptTemplate : String
  parameterContract : FrozenMapping
  payloadContract : FrozenMapping
  outputSchema : FrozenMapping
  requiredCapabilities : FrozenSet
  validationRulesVersion : String
  packingLimits : PackingLimits
  responseSizeLimit : Int
  labelCountLimit : Option Int := none
  labelCharacterLimit : Option Int := none
  summaryLimits : Option SummaryLengthLimits := none

structure RowInput.Fields where
  identifier : String
  sourceFields : FrozenMapping

def RowInput.postInit (r : RowInput.Fields) : Except PyError Unit :=
  require (blank r.identifier = false) (.valueError "row identifier must not be blank")

abbrev RowInput := Checked RowInput.postInit

def RowInput.of (identifier : PyValue) (sourceFields : FrozenValue) : Except PyError RowInput :=
  match sourceFields with
  | .mapping fields => do Checked.make RowInput.postInit ⟨← identifier.text, fields⟩
  | _ => .error (.typeError "source_fields must be a FrozenMapping")

structure TaskInvocation.Fields where
  function : TaskFunction
  parameters : FrozenMapping
  rows : List RowInput
  requestedDefinitionVersion : Option String := none

def TaskInvocation.postInit (r : TaskInvocation.Fields) : Except PyError Unit := do
  require (r.rows.isEmpty = false)
    (.valueError "task invocation requires at least one row")
  require (r.rows.map (·.val.identifier)).Nodup
    (.valueError "task invocation row identifiers must be unique")
  require (r.requestedDefinitionVersion.all fun version => blank version = false)
    (.valueError "requested task definition version must not be blank")

abbrev TaskInvocation := Checked TaskInvocation.postInit

/-- `TaskInvocation(...)` with a requested version of any type. -/
def TaskInvocation.of (function : TaskFunction) (parameters : FrozenMapping)
    (rows : List RowInput) (requestedDefinitionVersion : PyValue) :
    Except PyError TaskInvocation := do
  -- the version is read after the rows were checked
  let unversioned ← Checked.make TaskInvocation.postInit ⟨function, parameters, rows, none⟩
  match requestedDefinitionVersion with
  | .none => return unversioned
  | version =>
    Checked.make TaskInvocation.postInit ⟨function, parameters, rows, some (← version.text)⟩

structure PackedRequest.Fields where
  function : TaskFunction
  definitionVersion : String
  packIndex : Nat
  inputIds : List String
  payload : Bytes
  estimatedInputTokens : Nat
  estimatedOutputTokens : Nat
  deriving DecidableEq

def PackedRequest.postInit (r : PackedRequest.Fields) : Except PyError Unit := do
  require (blank r.definitionVersion = false)
    (.valueError "packed request definition version must not be blank")
  require (r.inputIds ≠ [] ∧ ∀ identifier ∈ r.inputIds, blank identifier = false)
    (.valueError "packed request requires non-blank input identifiers")
  require r.inputIds.Nodup (.valueError "packed request input identifiers must be unique")
  require (r.payload ≠ []) (.valueError "packed request payload must not be empty")

abbrev PackedRequest := Checked PackedRequest.postInit

/-- The identifier `any(not identifier.strip() ...)` passes over. -/
def PackedRequest.inputId (identifier : PyValue) : Except PyError String := do
  let text ← identifier.text
  require (blank text = false)
    (.valueError "packed request requires non-blank input identifiers")
  return text

/-- `PackedRequest(...)` with an index, identifiers and estimates of any type. -/
def PackedRequest.of (function : TaskFunction) (definitionVersion : String) (packIndex : PyValue)
    (inputIds : List PyValue) (payload : Bytes)
    (estimatedInputTokens estimatedOutputTokens : PyValue) : Except PyError PackedRequest := do
  require (blank definitionVersion = false)
    (.valueError "packed request definition version must not be blank")
  let index ← packIndex.natural "packed request index must be a nonnegative integer"
  let identifiers ← inputIds.mapM PackedRequest.inputId
  -- the estimates are read last
  let unestimated ← Checked.make PackedRequest.postInit
    ⟨function, definitionVersion, index, identifiers, payload, 0, 0⟩
  let inputTokens ← estimatedInputTokens.natural
    "packed request token estimates must be nonnegative integers"
  let outputTokens ← estimatedOutputTokens.natural
    "packed request token estimates must be nonnegative integers"
  Checked.make PackedRequest.postInit { unestimated.val with
    estimatedInputTokens := inputTokens
    estimatedOutputTokens := outputTokens }

structure ModelWork.Fields where
  taskType : String
  payloadReference : String
  inputIds : List String
  requiredCapabilities : FrozenSet
  taskDefinitionVersion : Option String := none
  estimatedInputTokens : Option Nat := none
  estimatedOutputTokens : Option Nat := none
  deriving DecidableEq

def ModelWork.postInit (r : ModelWork.Fields) : Except PyError Unit := do
  require (blank r.taskType = false ∧ blank r.payloadReference = false)
    (.valueError "model task_type and payload_reference must not be blank")
  require (∀ identifier ∈ r.inputIds, blank identifier = false)
    (.valueError "model input identifiers must not be blank")
  require (r.taskDefinitionVersion.all fun version => blank version = false)
    (.valueError "task definition version must not be blank")

abbrev ModelWork := Checked ModelWork.postInit

structure PreparedTask.Fields where
  definition : TaskDefinition
  invocation : TaskInvocation
  packs : List PackedRequest
  modelWork : List ModelWork

def PreparedTask.checkPack (definition : TaskDefinition) (index : Nat) (pack : PackedRequest)
    (work : ModelWork) : Except PyError Unit := do
  require (pack.val.function = definition.function)
    (.valueError "prepared task pack function must match its definition")
  require (pack.val.definitionVersion = definition.version)
    (.valueError "prepared task pack version must match its definition")
  require (pack.val.packIndex = index)
    (.valueError "prepared task pack indexes must be contiguous from zero")
  require (work.val.taskType = definition.function.value ∧ work.val.inputIds = pack.val.inputIds)
    (.valueError "prepared task ModelWork must match its packed request")

def PreparedTask.checkPacks (definition : TaskDefinition) :
    Nat → List (PackedRequest × ModelWork) → Except PyError Unit
  | _, [] => .ok ()
  | index, (pack, work) :: rest => do
    checkPack definition index pack work
    checkPacks definition (index + 1) rest

def PreparedTask.postInit (r : PreparedTask.Fields) : Except PyError Unit := do
  require (r.definition.function = r.invocation.val.function)
    (.valueError "prepared task definition and invocation functions must match")
  require (r.packs ≠ []) (.valueError "prepared task requires at least one packed request")
  require (r.packs.length = r.modelWork.length)
    (.valueError "prepared task requires one ModelWork per packed request")
  require (r.packs.flatMap (·.val.inputIds) = r.invocation.val.rows.map (·.val.identifier))
    (.valueError "prepared task packs must exactly preserve invocation row order")
  PreparedTask.checkPacks r.definition 0 (r.packs.zip r.modelWork)

abbrev PreparedTask := Checked PreparedTask.postInit

structure ModelInvocationResult where
  output : PyValue
  actualUsage : ModelUsage := {}

end AiRetrieval
