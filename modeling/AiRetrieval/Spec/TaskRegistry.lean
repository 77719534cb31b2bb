import AiRetrieval.Library.Dictionaries
import AiRetrieval.Library.Histories
import AiRetrieval.Library.Programs
import AiRetrieval.Library.SortedKeys
import AiRetrieval.Spec.CanonicalValues
import AiRetrieval.Spec.TaskRuntime
import Mathlib.Data.Prod.Lex
import Mathlib.Data.String.Basic

/-! `tasks/registry.py`: definitions kept under the digest of their content, whose fields have
the types they are declared with. -/

namespace AiRetrieval

def PackingLimits.document (limits : PackingLimits) : Document := .object [
  (CodeText.ofString "max_items", .int limits.maxItems),
  (CodeText.ofString "max_input_tokens", .int limits.maxInputTokens),
  (CodeText.ofString "max_output_tokens", .int limits.maxOutputTokens),
  (CodeText.ofString "max_payload_bytes", .int limits.maxPayloadBytes)]

def SummaryLengthLimits.document (limits : SummaryLengthLimits) : Document := .object [
  (CodeText.ofString "max_source_characters", .int limits.maxSourceCharacters),
  (CodeText.ofString "max_words", .int limits.maxWords),
  (CodeText.ofString "max_summary_characters", .int limits.maxSummaryCharacters)]

namespace TaskDefinition

/-- The canonical form of contracts, with the `json.dumps` of `_plain`. -/
def form : CanonicalForm where
  notFinite := "canonical task definitions require finite numbers"
  style := ⟨JsonValue.quoted, CodeText.ofString ", ", CodeText.ofString ": "⟩

def text (value : String) : Document := .text (CodeText.ofString value)

def optional : Option Int → Document
  | some value => .int value
  | none => .null

def optionalLimits (limits : Option SummaryLengthLimits) : Document :=
  (limits.map (·.document)).getD .null

variable (runtime : PythonRuntime) (definition : TaskDefinition)

def content : Except PyError Document := do
  let parameters ← form.canonicalValue runtime (.mapping definition.parameterContract)
  let payload ← form.canonicalValue runtime (.mapping definition.payloadContract)
  let schema ← form.canonicalValue runtime (.mapping definition.outputSchema)
  return .object [
    (CodeText.ofString "function", text definition.function.value),
    (CodeText.ofString "prompt_template", text definition.promptTemplate),
    (CodeText.ofString "parameter_contract", parameters),
    (CodeText.ofString "payload_contract", payload),
    (CodeText.ofString "output_schema", schema),
    (CodeText.ofString "required_capabilities",
      .array (definition.requiredCapabilities.items.map text)),
    (CodeText.ofString "validation_rules_version", text definition.validationRulesVersion),
    (CodeText.ofString "packing_limits", definition.packingLimits.document),
    (CodeText.ofString "response_size_limit", .int definition.responseSizeLimit),
    (CodeText.ofString "label_count_limit", optional definition.labelCountLimit),
    (CodeText.ofString "label_character_limit", optional definition.labelCharacterLimit),
    (CodeText.ofString "summary_limits", optionalLimits definition.summaryLimits)]

def canonicalBytes : Except PyError Bytes := do
  let document ← definition.content runtime
  let text ← CanonicalPayload.dumps runtime document
  encodeText text

/-- `[rule]`, where the check fails. -/
def failing (holds : Prop) [Decidable holds] (rule : String) : List String :=
  if holds then [] else ["task_definition." ++ rule]

def positive (value : Option Int) : Prop := ∃ limit ∈ value, 0 < limit

instance (value : Option Int) : Decidable (positive value) :=
  match value with
  | some limit => decidable_of_iff (0 < limit) (by simp [positive])
  | none => isFalse (by simp [positive])

/-- The checks of `_validate_definition` that depend on the function. -/
def functionFailures : List String :=
  match definition.function with
  | .classify =>
    failing (positive definition.labelCountLimit) "label_count_limit" ++
      failing (positive definition.labelCharacterLimit) "label_character_limit" ++
      failing (definition.summaryLimits.isNone = true) "summary_limits"
  | .summarize =>
    failing (definition.labelCountLimit = none) "label_count_limit" ++
      failing (definition.labelCharacterLimit = none) "label_character_limit" ++
      match definition.summaryLimits with
      | none => ["task_definition.summary_limits"]
      | some limits =>
        failing (0 < limits.maxSourceCharacters) "summary_limits.max_source_characters" ++
          failing (0 < limits.maxWords) "summary_limits.max_words" ++
          failing (0 < limits.maxSummaryCharacters) "summary_limits.max_summary_characters"

def validate (available : String → Bool) : List String :=
  failing (blank definition.promptTemplate = false) "prompt_template" ++
    failing (definition.parameterContract ≠ []) "parameter_contract" ++
    failing (definition.payloadContract ≠ []) "payload_contract" ++
    failing (definition.outputSchema ≠ []) "output_schema" ++
    failing (definition.requiredCapabilities.items ≠ [] ∧
      ∀ value ∈ definition.requiredCapabilities.items, blank value = false)
      "required_capabilities" ++
    (if blank definition.validationRulesVersion then ["task_definition.validation_rules_version"]
      else failing (available definition.validationRulesVersion = true)
        "validation_rules_unavailable") ++
    failing (0 < definition.packingLimits.maxItems) "packing_limits.max_items" ++
    failing (0 < definition.packingLimits.maxInputTokens) "packing_limits.max_input_tokens" ++
    failing (0 < definition.packingLimits.maxOutputTokens) "packing_limits.max_output_tokens" ++
    failing (0 < definition.packingLimits.maxPayloadBytes) "packing_limits.max_payload_bytes" ++
    failing (0 < definition.responseSizeLimit) "response_size_limit" ++
    definition.functionFailures

end TaskDefinition

structure TaskDefinitionRegistry where
  definitions : Dict (TaskFunction × String) TaskDefinition := .empty
  canonicalByVersion : Dict String Bytes := .empty

def TaskDefinitionRegistry.empty : TaskDefinitionRegistry := {}

/-- `TaskDefinitionValidationError`, or what `register` does not catch. -/
inductive RegistrationError where
  | invalid (failedRuleIds : List String)
  | raised (error : PyError)
  deriving DecidableEq

/-- One call of `register`, with the versions of the rules that are available to it. -/
structure Registration where
  candidate : TaskDefinition
  available : String → Bool

namespace TaskDefinitionRegistry

variable (runtime : PythonRuntime)

/-- The canonical content, or none with the error caught. -/
def canonical (candidate : TaskDefinition) : Except RegistrationError (Option Bytes) :=
  match candidate.canonicalBytes runtime with
  | .ok bytes => .ok (some bytes)
  | .error (.raised .typeError _) | .error (.raised .valueError _)
  | .error (.raised (.other "UnicodeEncodeError") _) => .ok none
  | .error error => .error (.raised error)

def versionFailures (registry : TaskDefinitionRegistry) (supplied : String)
    (canonical : Option Bytes) : List String :=
  TaskDefinition.failing (∀ bytes ∈ canonical, supplied = "" ∨ supplied = runtime.sha256 bytes)
      "version" ++
    TaskDefinition.failing (supplied = "" ∨
      ∀ registered ∈ registry.canonicalByVersion.get? supplied, some registered = canonical)
      "version_immutable"

def register (call : Registration) :
    Program RegistrationError TaskDefinitionRegistry TaskDefinition := do
  let registry ← get
  let candidate := call.candidate
  let canonical ← liftM (canonical runtime candidate)
  let failed := candidate.validate call.available ++
    TaskDefinition.failing (canonical.isSome = true) "canonical_content" ++
    versionFailures runtime registry candidate.version canonical
  if failed ≠ [] then throw (.invalid (fromKeys failed))
  else match canonical with
    | none => throw (.raised (.raised (.other "AssertionError") ""))
    | some bytes =>
      let version := runtime.sha256 bytes
      if (registry.canonicalByVersion.get? version).any (· ≠ bytes) then
        throw (.invalid ["task_definition.version_immutable"])
      else
        let definition := { candidate with version := version }
        match registry.definitions.get? (definition.function, version) with
        | some existing => return existing
        | none =>
          set (TaskDefinitionRegistry.mk
            (registry.definitions.insert (definition.function, version) definition)
            (registry.canonicalByVersion.insert version bytes))
          return definition

def resolve (registry : TaskDefinitionRegistry) : TaskDefinitionLookup := fun function version =>
  if version = "" then none else registry.definitions.get? (function, version)

def listingKey (entry : (TaskFunction × String) × TaskDefinition) : String ×ₗ String :=
  toLex (entry.1.1.value, entry.1.2)

def registeredDefinitions (registry : TaskDefinitionRegistry) : List TaskDefinition :=
  (SortedKeys.sorted listingKey registry.definitions.entries).map Prod.snd

end TaskDefinitionRegistry

def taskRegistryMachine (runtime : PythonRuntime) :
    Machine Registration (Except RegistrationError TaskDefinition) TaskDefinitionRegistry :=
  fun call registry => (TaskDefinitionRegistry.register runtime call).exec registry

end AiRetrieval
