import AiRetrieval.Library.Programs
import AiRetrieval.Spec.TaskParser

/-! `DeterministicValidator` of `validation/validator.py`, `TaskOutputValidator` of
`tasks/validation.py` and the `parse_and_validate` of `interactive/tasking.py` over them. -/

namespace AiRetrieval

/-- The number a value compares as; a boolean is one. -/
def documentNumber : Document → Option PyNumber
  | .bool value => some (.int value.toNat)
  | .int value => some (.int value)
  | .float value => some (.float value)
  | _ => none

def sameScalar (a b : Document) : Bool :=
  match a, b with
  | .null, .null => true
  | .text x, .text y => decide (x = y)
  | a, b =>
    match documentNumber a, documentNumber b with
    | some x, some y => x.same y
    | _, _ => false

namespace FrozenValue

mutual

/-- `a is b or a == b` of a frozen value and a decoded one that was frozen. -/
def equals : FrozenValue → Document → Bool
  | .none, .null => true
  | .str value, .text text => decide (CodeText.ofString value = text)
  | .tuple items, .array others => equalsItems items others
  | .mapping entries, .object others => equalsEntries entries others
  | .bool value, other => ((documentNumber other).map (PyNumber.int value.toNat).same).getD false
  | .int value, other => ((documentNumber other).map (PyNumber.int value).same).getD false
  | .float value, other => ((documentNumber other).map (PyNumber.float value).same).getD false
  | _, _ => false

def equalsItems : List FrozenValue → List Document → Bool
  | [], [] => true
  | value :: rest, item :: others => value.equals item && equalsItems rest others
  | _, _ => false

def equalsEntries : List (String × FrozenValue) → List (CodeText × Document) → Bool
  | [], [] => true
  | (name, value) :: rest, (key, item) :: others =>
    decide (CodeText.ofString name = key) && value.equals item && equalsEntries rest others
  | _, _ => false

end

end FrozenValue

section Rules

inductive FieldType where
  | string
  | integer
  | number
  | boolean
  deriving DecidableEq

structure FieldRule.Fields where
  ruleId : String
  field : String
  valueType : FieldType
  required : Bool := true
  nullable : Bool := false
  allowedValues : Option (List Document) := none
  minimum : Option PyNumber := none
  maximum : Option PyNumber := none

def FieldRule.postInit (r : FieldRule.Fields) : Except PyError Unit := do
  require (blank r.ruleId = false ∧ blank r.field = false)
    (.valueError "validation rule and field identifiers must not be blank")
  require (¬∃ minimum ∈ r.minimum, ∃ maximum ∈ r.maximum, maximum.less minimum = true)
    (.valueError "validation rule minimum must not exceed maximum")

abbrev FieldRule := Checked FieldRule.postInit

structure ValidationRules.Fields where
  version : String
  identifierField : String
  fieldRules : List FieldRule
  allowAdditionalFields : Bool := false

def ValidationRules.postInit (r : ValidationRules.Fields) : Except PyError Unit := do
  require (blank r.version = false ∧ blank r.identifierField = false)
    (.valueError "validation version and identifier field must not be blank")
  require ((r.fieldRules.map (·.val.ruleId)).Nodup ∧ (r.fieldRules.map (·.val.field)).Nodup)
    (.valueError "validation rule identifiers and fields must be unique")

abbrev ValidationRules := Checked ValidationRules.postInit

abbrev ValidationRulesRegistry := Dict String ValidationRules

def ValidationRulesRegistry.resolve (registry : ValidationRulesRegistry)
    (version : Option String) : Option ValidationRules :=
  match version with
  | some version => if version = "" then none else registry.get? version
  | none => none

end Rules

inductive ValidationStatus where
  | accepted
  | validationFailed
  deriving DecidableEq

structure DeterministicOutcome extends ValidationOutcome where
  status : ValidationStatus
  inputIdentifierDigest : String
  outputIdentifierDigest : String

structure ValidationMetadata where
  rulesVersion : String
  outcome : ValidationStatus
  failedRuleIds : List String
  reasonCodes : List String
  inputIdentifierDigest : String
  outputIdentifierDigest : String

/-- `ValidationResult`, of records whose texts hold any code points. -/
structure ValidatedOutput.Fields where
  outcome : DeterministicOutcome
  acceptedRecords : List ProviderRecord := []
  metadataRecorded : Bool := false

def ValidatedOutput.postInit (r : ValidatedOutput.Fields) : Except PyError Unit :=
  require (r.outcome.accepted = true ∨ r.acceptedRecords.isEmpty = true)
    (.valueError "validation-failed results must withhold output")

abbrev ValidatedOutput := Checked ValidatedOutput.postInit

/-- What a validator is composed of. The sink answers by what it holds whether it records. -/
structure ValidationPorts where
  runtime : PythonRuntime
  registry : ValidationRulesRegistry
  sinkRecords : List ValidationMetadata → ValidationMetadata → Bool

/-- A program that hands metadata to the sink; its state is what the sink holds. -/
abbrev Validating := Program PyError (List ValidationMetadata)

def identifierDigest (runtime : PythonRuntime) (values : List CodeText) :
    Except PyError String := do
  let sorted := values.insertionSort (· ≤ ·)
  let canonical := (JsonValue.array (sorted.map JsonValue.text)).render runtime.numberText
  return runtime.sha256 (← encodeText canonical)

namespace DeterministicValidator

def matchesType (value : Document) : FieldType → Bool
  | .string => match value with
    | .text _ => true
    | _ => false
  | .integer => match value with
    | .int _ => true
    | _ => false
  | .number => match value with
    | .int _ => true
    | .float _ => true
    | _ => false
  | .boolean => match value with
    | .bool _ => true
    | _ => false

def domainFailure (rule : FieldRule) (value : Document) : Option String :=
  if matchesType value rule.val.valueType = false then some "type_mismatch"
  else if rule.val.allowedValues.any fun allowed => !allowed.any (sameScalar value) then
    some "value_not_allowed"
  else if (documentNumber value).any fun number => rule.val.minimum.any number.less then
    some "value_below_minimum"
  else if (documentNumber value).any fun number => rule.val.maximum.any (·.less number) then
    some "value_above_maximum"
  else none

/-- `record.get(rules.identifier_field)`, unless it is `None`. -/
def identifierOf (rules : ValidationRules) (record : ProviderRecord) : Option Document :=
  match record.lookup (CodeText.ofString rules.val.identifierField) with
  | some .null => none
  | value => value

def ruleFailure (record : ProviderRecord) (rule : FieldRule) : Option String :=
  match record.lookup (CodeText.ofString rule.val.field) with
  | none => if rule.val.required then some "required_field_missing" else none
  | some .null => if rule.val.nullable then none else some "null_not_allowed"
  | some value => domainFailure rule value

def recordFailures (rules : ValidationRules) (record : ProviderRecord) : List (String × String) :=
  let known := rules.val.fieldRules.map fun rule => CodeText.ofString rule.val.field
  (if (identifierOf rules record).isNone then [("identifiers.present", "identifier_missing")]
    else []) ++
  (if rules.val.allowAdditionalFields = false ∧ ¬∀ entry ∈ record, entry.1 ∈ known then
    [("schema.additional_fields", "additional_fields")] else []) ++
  rules.val.fieldRules.filterMap fun rule =>
    (ruleFailure record rule).map fun reason => (rule.val.ruleId, reason)

/-- `str(identifier)`. -/
def identifierText (runtime : PythonRuntime) : Document → Except PyError CodeText
  | .text text => .ok text
  | value =>
    if CanonicalPayload.printable value then .ok (runtime.textOf value)
    else .error CanonicalPayload.tooManyDigits

/-- `map(str, output_ids)`, of the records that have an identifier. -/
def outputIds (runtime : PythonRuntime) (rules : ValidationRules) (output : List ProviderRecord) :
    Except PyError (List CodeText) :=
  (output.filterMap (identifierOf rules)).mapM (identifierText runtime)

/-- The failures of the records together. -/
def setFailures (inputIds : List String) (outputIds : List CodeText) (count : Nat) :
    List (String × String) :=
  let asked := inputIds.map CodeText.ofString
  (if outputIds.Nodup then [] else [("identifiers.unique", "duplicate_identifiers")]) ++
  (if (∀ text ∈ outputIds, text ∈ asked) ∧ ∀ text ∈ asked, text ∈ outputIds then []
    else [("identifiers.exact_set", "identifier_set_mismatch")]) ++
  (if count = inputIds.length then [] else [("cardinality.equal", "cardinality_mismatch")])

/-- The failures of an output under bound rules, in the order they are added. -/
def failures (rules : ValidationRules) (inputIds : List String) (outputIds : List CodeText)
    (output : List ProviderRecord) : List (String × String) :=
  output.flatMap (recordFailures rules) ++ setFailures inputIds outputIds output.length

/-- `_add_failure`, for the rule or for the reason. -/
def distinct (values : List String) : List String :=
  values.foldl (fun added value => if value ∈ added then added else added ++ [value]) []

variable (ports : ValidationPorts)

/-- `self._metadata_sink.record(metadata)`, and whether it was recorded. -/
def recordMetadata (metadata : ValidationMetadata) : Validating Bool := do
  let held ← get
  if ports.sinkRecords held metadata then
    set (held ++ [metadata])
    return true
  else return false

def finish (version : String) (inputIds : List String) (outputIds : List CodeText)
    (records : List ProviderRecord) (failed reasons : List String) :
      Validating ValidatedOutput := do
  let accepted := failed.isEmpty
  let status : ValidationStatus := if accepted then .accepted else .validationFailed
  let inputDigest ← identifierDigest ports.runtime (inputIds.map CodeText.ofString)
  let outputDigest ← identifierDigest ports.runtime outputIds
  let recorded ← recordMetadata ports
    ⟨version, status, failed, reasons, inputDigest, outputDigest⟩
  Checked.make ValidatedOutput.postInit {
    outcome := ⟨⟨accepted, failed, reasons, version⟩, status, inputDigest, outputDigest⟩
    acceptedRecords := if accepted then records else []
    metadataRecorded := recorded }

def validate (inputIds : List String) (output : List ProviderRecord) (context : ExecutionContext) :
    Validating ValidatedOutput :=
  let version := context.configuration.validationRulesVersion
  match ports.registry.resolve version with
  | none =>
    let bound := match version with
      | some version => if version = "" then "unavailable" else version
      | none => "unavailable"
    finish ports bound inputIds [] [] ["validation.rules.bound"] ["rules_unavailable"]
  | some rules => do
    let outputIds ← outputIds ports.runtime rules output
    let failures := failures rules inputIds outputIds output
    finish ports rules.val.version inputIds outputIds
      (output.map StructuredOutputParser.frozenRecord) (distinct (failures.map Prod.fst))
      (distinct (failures.map Prod.snd))

end DeterministicValidator

/-- The characters `str.split` separates words at; no lone surrogate is one. -/
def isSpacePoint (p : CodePoint) : Bool := p.char?.any isSpace

namespace TaskOutputValidator

def classifyLabelRule : String := "task_output.classify.label.membership"
def summaryWordRule : String := "task_output.summarize.summary.word_limit"
def summaryCharacterRule : String := "task_output.summarize.summary.character_limit"

def field (record : ProviderRecord) (name : String) : Except PyError Document :=
  match record.lookup (CodeText.ofString name) with
  | some value => .ok value
  | none => .error (PyValue.missing name)

/-- `record["summary"]`, where it has the operations of a text. -/
def summary (record : ProviderRecord) : Except PyError CodeText := do
  match ← field record "summary" with
  | .text text => return text
  | _ => throw (.raised .attributeError "object has no attribute 'split'")

def anyRecord (failing : ProviderRecord → Except PyError Bool) :
    List ProviderRecord → Except PyError Bool
  | [] => .ok false
  | record :: rest => do
    if ← failing record then return true else anyRecord failing rest

def allowedLabels (prepared : PreparedTask) : List FrozenValue :=
  match FrozenMapping.get prepared.val.invocation.val.parameters "labels" with
  | some (.tuple labels) => labels
  | _ => []

def summaryConstraints (prepared : PreparedTask) : Option (Int × SummaryLengthLimits) :=
  match FrozenMapping.get prepared.val.invocation.val.parameters "max_words",
    prepared.val.definition.summaryLimits with
  | some (.int maxWords), some limits => some (maxWords, limits)
  | _, _ => none

def labelOutside (prepared : PreparedTask) (record : ProviderRecord) : Except PyError Bool := do
  let label ← field record "label"
  return !(allowedLabels prepared).any (·.equals label)

/-- `len(record["summary"].split()) > max_words`. -/
def tooManyWords (maxWords : Int) (record : ProviderRecord) : Except PyError Bool := do
  let text ← summary record
  return decide (maxWords < (text.words isSpacePoint).length)

/-- `len(record["summary"]) > limits.max_summary_characters`. -/
def tooManyCharacters (limits : SummaryLengthLimits) (record : ProviderRecord) :
    Except PyError Bool := do
  let text ← summary record
  return decide (limits.maxSummaryCharacters < text.length)

def noted (fails : Bool) (value : String) : List String := if fails then [value] else []

def taskFailures (prepared : PreparedTask) (records : List ProviderRecord) :
    Except PyError (List String × List String) :=
  match prepared.val.invocation.val.function with
  | .classify => do
    let outside ← anyRecord (labelOutside prepared) records
    return (noted outside classifyLabelRule, noted outside "label_not_allowed")
  | .summarize =>
    match summaryConstraints prepared with
    | none => throw (.valueError "prepared summary task has invalid invocation constraints")
    | some (maxWords, limits) => do
      let wordy ← anyRecord (tooManyWords maxWords) records
      let long ← anyRecord (tooManyCharacters limits) records
      return (noted wordy summaryWordRule ++ noted long summaryCharacterRule,
        noted wordy "summary_word_limit_exceeded" ++ noted long "summary_character_limit_exceeded")

/-- `by_identifier[identifier]`, where a later record replaced an earlier one. -/
def recordOf (entries : List (Document × ProviderRecord)) (identifier : String) :
    Except PyError ProviderRecord :=
  match entries.reverse.find? fun entry => match entry.1 with
    | .text text => text = CodeText.ofString identifier
    | _ => false with
  | some entry => .ok entry.2
  | none => .error (PyValue.missing identifier)

def orderRecords (records : List ProviderRecord) (inputIds : List String) :
    Except PyError (List ProviderRecord) := do
  let entries ← records.mapM fun record => do return (← field record "id", record)
  inputIds.mapM (recordOf entries)

def failedResult (base : ValidatedOutput) (failedRules reasons : List String) :
    Except PyError ValidatedOutput :=
  let outcome := base.val.outcome
  Checked.make ValidatedOutput.postInit {
    outcome := { outcome with
      accepted := false
      status := .validationFailed
      failedRuleIds := DeterministicValidator.distinct (outcome.failedRuleIds ++ failedRules)
      reasonCodes := DeterministicValidator.distinct (outcome.reasonCodes ++ reasons) } }

variable (ports : ValidationPorts)

def validate (prepared : PreparedTask) (pack : PackedRequest) (output : List ProviderRecord)
    (context : ExecutionContext) : Validating ValidatedOutput := do
  (require (pack ∈ prepared.val.packs)
    (.valueError "packed request does not belong to the prepared task") : Except PyError Unit)
  let base ← DeterministicValidator.validate ports pack.val.inputIds output context
  if base.val.outcome.accepted = false then return base
  else
    let (failed, reasons) ← taskFailures prepared base.val.acceptedRecords
    if failed = [] then
      let ordered ← orderRecords base.val.acceptedRecords pack.val.inputIds
      Checked.make ValidatedOutput.postInit { base.val with acceptedRecords := ordered }
    else failedResult base failed reasons

def combinedOutputDigest (runtime : PythonRuntime) (outcomes : List DeterministicOutcome) :
    Except PyError String := do
  let digests := outcomes.map fun outcome =>
    JsonValue.text (CodeText.ofString outcome.outputIdentifierDigest)
  return runtime.sha256 (← encodeText ((JsonValue.array digests).render runtime.numberText))

def combinedOutcome (runtime : PythonRuntime) (prepared : PreparedTask)
    (outcomes : List DeterministicOutcome) (accepted : Bool) :
      Except PyError DeterministicOutcome := do
  match outcomes with
  | [] => throw (.raised .indexError "list index out of range")
  | first :: _ =>
    let failedRules := DeterministicValidator.distinct (outcomes.flatMap (·.failedRuleIds))
    let reasons := DeterministicValidator.distinct (outcomes.flatMap (·.reasonCodes))
    let inputIds := prepared.val.packs.flatMap (·.val.inputIds)
    let inputDigest ← identifierDigest runtime (inputIds.map CodeText.ofString)
    let outputDigest ← if accepted then pure inputDigest else combinedOutputDigest runtime outcomes
    return ⟨⟨accepted, failedRules, reasons, first.rulesVersion⟩,
      if accepted then .accepted else .validationFailed, inputDigest, outputDigest⟩

abbrev PackOutput := PackedRequest × PackedRequest × List ProviderRecord

/-- The loop of `validate_packs`. -/
def validateEach (prepared : PreparedTask) (context : ExecutionContext) :
    List PackOutput → Validating (List ValidatedOutput)
  | [] => return []
  | (expected, pack, output) :: rest => do
    (require (pack = expected) (.valueError "pack outputs must match the prepared task") :
      Except PyError Unit)
    let result ← validate ports prepared pack output context
    return result :: (← validateEach prepared context rest)

/-- `sorted(outputs, key=lambda item: item[0].pack_index)`. -/
def byPackIndex (outputs : List (PackedRequest × List ProviderRecord)) :
    List (PackedRequest × List ProviderRecord) :=
  outputs.insertionSort fun a b => a.1.val.packIndex ≤ b.1.val.packIndex

def validatePacks (prepared : PreparedTask) (outputs : List (PackedRequest × List ProviderRecord))
    (context : ExecutionContext) : Validating ValidatedOutput := do
  let ordered := byPackIndex outputs
  (require (ordered.map (fun item => item.1.val.packIndex) = List.range prepared.val.packs.length)
    (.valueError "pack outputs must contain every prepared pack exactly once") :
      Except PyError Unit)
  let validated ← validateEach ports prepared context (prepared.val.packs.zip ordered)
  let outcomes := validated.map (·.val.outcome)
  let accepted := validated.filter (·.val.outcome.accepted)
  if outcomes.any fun outcome => !outcome.accepted then
    let outcome ← combinedOutcome ports.runtime prepared outcomes false
    Checked.make ValidatedOutput.postInit { outcome := outcome }
  else
    let outcome ← combinedOutcome ports.runtime prepared outcomes true
    Checked.make ValidatedOutput.postInit {
      outcome := outcome
      acceptedRecords := accepted.flatMap (·.val.acceptedRecords)
      metadataRecorded := validated.all (·.val.metadataRecorded) }

end TaskOutputValidator

def parseAndValidate (ports : ValidationPorts) (extractors : EnvelopeExtractors)
    (prepared : PreparedTask) (pack : PackedRequest) (response : ProviderValue)
    (context : ExecutionContext) : Validating (Except TaskFailure ValidatedOutput) := do
  match ← StructuredOutputParser.parse ports.runtime extractors response
    prepared.val.definition none with
  | .error failed => return .error failed
  | .ok records =>
    return .ok (← TaskOutputValidator.validate ports prepared pack records context)

end AiRetrieval
