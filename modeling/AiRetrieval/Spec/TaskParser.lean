import AiRetrieval.Library.Dictionaries
import AiRetrieval.Spec.ProviderValues
import AiRetrieval.Spec.TaskRecords
import AiRetrieval.Spec.Values

/-! `StructuredOutputParser` of `tasks/parser.py`. A parse that fails is a value; what it raises
escapes. -/

namespace AiRetrieval

/-- The items of a frozen record. -/
abbrev ProviderRecord := List (CodeText × Document)

/-- What the decoding hooks raise. -/
inductive HookError where
  | duplicateKey
  | nonFiniteNumber
  deriving DecidableEq

/-- What `_normalize` raises. -/
inductive NormalizeError where
  | hook (error : HookError)
  | unsupportedValue
  | recursion
  deriving DecidableEq

/-- A result of the parser, or a failure it returns. -/
abbrev Parsed (α : Type) := Except PyError (Except TaskFailure α)

abbrev EnvelopeExtractors := Dict String (ProviderValue → Except PyError ProviderValue)

namespace StructuredOutputParser

section Decoding

/-- The loop of `_object_from_pairs`. -/
def objectFromPairs : List (CodeText × Document) → List (CodeText × Document) →
    Except HookError (List (CodeText × Document))
  | result, [] => .ok result
  | result, (key, value) :: rest =>
    if key ∈ result.map Prod.fst then .error .duplicateKey
    else objectFromPairs (result ++ [(key, value)]) rest

def rejectConstant (_name : String) : Except HookError Document := .error .nonFiniteNumber

def representation : ProviderValue → String
  | .bytes _ => "bytes"
  | .str _ => "text"
  | .mapping _ => "mapping"
  | .bytearray _ => "sequence"
  | .list _ => "sequence"
  | .tuple _ => "sequence"
  | .sequence _ _ => "sequence"
  | _ => "unsupported"

mutual

/-- `_normalize`, with the number of calls that may still nest. -/
def normalize : ProviderValue → Nat → Except NormalizeError Document
  | _, 0 => .error .recursion
  | .none, _ + 1 => .ok .null
  | .bool value, _ + 1 => .ok (.bool value)
  | .int value, _ + 1 => .ok (.int value)
  | .str value, _ + 1 => .ok (.text value)
  | .float value, _ + 1 =>
    if value.isFinite then .ok (.float value) else .error (.hook .nonFiniteNumber)
  | .mapping items, n + 1 => .object <$> normalizeEntries items n []
  | .list items, n + 1 => .array <$> normalizeItems items n
  | .tuple items, n + 1 => .array <$> normalizeItems items n
  | .sequence _ items, n + 1 => .array <$> normalizeItems items n
  | _, _ + 1 => .error .unsupportedValue

def normalizeItems : List ProviderValue → Nat → Except NormalizeError (List Document)
  | [], _ => .ok []
  | item :: rest, n => do
    return (← normalize item n) :: (← normalizeItems rest n)

/-- The loop over the items of a mapping, with the keys seen. -/
def normalizeEntries : List (ProviderValue × ProviderValue) → Nat → List CodeText →
    Except NormalizeError (List (CodeText × Document))
  | [], _, _ => .ok []
  | (key, item) :: rest, n, seen =>
    match key with
    | .str name =>
      if name ∈ seen then .error (.hook .duplicateKey)
      else do
        let value ← normalize item n
        return (name, value) :: (← normalizeEntries rest n (name :: seen))
    | _ => .error .unsupportedValue

end

end Decoding

section Failures

def failure (code : TaskFailureCode) (ruleId : String) (details : List (String × PyValue)) :
    Except PyError TaskFailure := do
  let frozen ← (PyValue.dict (details.map fun item => (.str item.1, item.2))).freeze
  let items ← PyValue.asserted frozen
  Checked.make TaskFailure.postInit ⟨.parsing, code, [ruleId], items⟩

variable {α : Type}

def refuse (code : TaskFailureCode) (ruleId : String) (details : List (String × PyValue)) :
    Parsed α := (failure code ruleId details).map .error

def unsupportedRepresentation (representation : String) : Parsed α :=
  refuse .unsupportedRepresentation "structured_output.representation"
    [("representation", .str representation)]

def malformed (representation reason : String) : Parsed α :=
  refuse .malformedStructuredOutput "structured_output.document"
    [("representation", .str representation), ("reason", .str reason)]

def tooLarge (representation : String) (size : Nat) (limit : Int) : Parsed α :=
  refuse .responseTooLarge "structured_output.response_size"
    [("representation", .str representation), ("response_size", .int size),
      ("response_size_limit", .int limit)]

def schemaFailure (representation reason : String) (index : Option Nat) : Parsed α :=
  refuse .outputSchemaViolation "structured_output.schema"
    ([("representation", .str representation), ("reason", .str reason)] ++
      (index.map fun (n : Nat) => ("record_index", PyValue.int n)).toList)

def hookFailure (representation : String) : HookError → Parsed α
  | .duplicateKey => malformed representation "duplicate_object_key"
  | .nonFiniteNumber => malformed representation "non_finite_number"

end Failures

section Parsing

variable (runtime : PythonRuntime)

def decodeJson (text : CodeText) (representation : String) : Parsed Document :=
  match (runtime.scan text).load (objectFromPairs []) rejectConstant with
  | .ok value => .ok (.ok value)
  | .error (.hook error) => hookFailure representation error
  | .error (.stopped .malformed) => malformed representation "invalid_json"
  | .error (.stopped .nesting) => malformed representation "invalid_json"
  -- a `ValueError` that is no `JSONDecodeError` is not caught
  | .error (.stopped (.integer digits)) => .error (.valueError
      ("Exceeds the limit (4300 digits) for integer string conversion: value has " ++
        toString digits ++ " digits; use sys.set_int_max_str_digits() to increase the limit"))

/-- The branch of `_decode` for mappings and sequences. -/
def decodeStructured (response : ProviderValue) (representation : String) : Parsed Document :=
  match normalize response runtime.nesting with
  | .ok value => .ok (.ok value)
  | .error (.hook error) => hookFailure representation error
  | .error .unsupportedValue => unsupportedRepresentation representation
  | .error .recursion => .error recursionError

def decode (response : ProviderValue) (definition : TaskDefinition) (representation : String) :
    Except PyError (Except TaskFailure Document) :=
  match response with
  | .bytes data =>
    if definition.responseSizeLimit < data.length then
      tooLarge representation data.length definition.responseSizeLimit
    else match decodeUtf8? data with
      | none => malformed representation "invalid_utf8"
      | some text => decodeJson runtime text representation
  | .str text => do
    let encoded ← encodeText text
    if definition.responseSizeLimit < encoded.length then
      tooLarge representation encoded.length definition.responseSizeLimit
    else decodeJson runtime text representation
  | .mapping _ | .list _ | .tuple _ | .sequence _ _ =>
    decodeStructured runtime response representation
  | _ => unsupportedRepresentation representation

/-- `_schema_fields`; the first is always the identifier. -/
def schemaFields (function : TaskFunction) : CodeText × CodeText :=
  match function with
  | .classify => (CodeText.ofString "id", CodeText.ofString "label")
  | .summarize => (CodeText.ofString "id", CodeText.ofString "summary")

def isText : Option Document → Bool
  | some (.text _) => true
  | _ => false

/-- `set(record) == expected`. -/
def exactFields (fields : CodeText × CodeText) (entries : List (CodeText × Document)) : Bool :=
  entries.all (fun entry => entry.1 = fields.1 || entry.1 = fields.2) &&
    (entries.lookup fields.1).isSome && (entries.lookup fields.2).isSome

/-- `freeze(record)` of decoded entries. -/
def frozenRecord (entries : List (CodeText × Document)) : ProviderRecord :=
  JsonValue.sortEntries (JsonValue.sortedEntries entries)

def validateRecord (fields : CodeText × CodeText) (representation : String) (index : Nat) :
    Document → Parsed ProviderRecord
  | .object entries =>
    if exactFields fields entries = false then
      schemaFailure representation "exact_fields_required" (some index)
    else if (isText (entries.lookup fields.1) && isText (entries.lookup fields.2)) = false then
      schemaFailure representation "string_fields_required" (some index)
    else .ok (.ok (frozenRecord entries))
  | _ => schemaFailure representation "record_object_required" (some index)

/-- The loop of `_validate_records`. -/
def validateItems (fields : CodeText × CodeText) (representation : String) :
    Nat → List Document → Except PyError (Except TaskFailure (List ProviderRecord))
  | _, [] => .ok (.ok [])
  | index, item :: rest => do
    match ← validateRecord fields representation index item with
    | .error failed => return .error failed
    | .ok record =>
      match ← validateItems fields representation (index + 1) rest with
      | .error failed => return .error failed
      | .ok records => return .ok (record :: records)

def validateRecords (value : Document) (definition : TaskDefinition) (representation : String) :
    Parsed (List ProviderRecord) :=
  match value with
  | .array items => validateItems (schemaFields definition.function) representation 0 items
  | _ => schemaFailure representation "array_root_required" none

/-- What follows the envelope in `parse`. -/
def parseResponse (response : ProviderValue) (definition : TaskDefinition)
    (representation : String) : Except PyError (Except TaskFailure (List ProviderRecord)) := do
  match ← decode runtime response definition representation with
  | .error failed => return .error failed
  | .ok value => validateRecords value definition representation

def parse (extractors : EnvelopeExtractors) (response : ProviderValue)
    (definition : TaskDefinition) (envelope : Option String) : Parsed (List ProviderRecord) :=
  match envelope with
  | none => parseResponse runtime response definition (representation response)
  | some name =>
    match extractors.get? name with
    | none =>
      refuse .unsupportedRepresentation "structured_output.representation"
        [("representation", .str "envelope"), ("envelope_configured", .bool false)]
    | some extract =>
      match extract response with
      | .ok inner =>
        parseResponse runtime inner definition ("envelope:" ++ representation inner)
      | .error .interrupt => .error .interrupt
      | .error _ =>
        refuse .malformedStructuredOutput "structured_output.envelope"
          [("representation", .str "envelope"), ("envelope_configured", .bool true)]

end Parsing

end StructuredOutputParser

end AiRetrieval
