import AiRetrieval.Library.Json
import AiRetrieval.Spec.Records

/-! What a model provider can return, and `canonical_payload_bytes` of `tasks/packing.py`. Texts
hold any code points; what a function of the standard library does is given where the code
relies on more than its definition here. -/

namespace AiRetrieval

/-- A value a provider returns. A mapping is what its `items()` lists; `sequence` is any
sequence but a list, a tuple or bytes, and `object` anything else, a set included. -/
inductive ProviderValue where
  | none
  | bool (value : Bool)
  | int (value : Int)
  | float (value : PyFloat)
  | str (value : CodeText)
  | bytes (value : Bytes)
  | bytearray (value : Bytes)
  | mapping (items : List (ProviderValue × ProviderValue))
  | list (items : List ProviderValue)
  | tuple (items : List ProviderValue)
  | sequence (typeName : String) (items : List ProviderValue)
  | object (typeName : String)

/-- A decoded JSON value. -/
abbrev Document := JsonValue PyFloat

/-- The standard library and the interpreter, as the task code relies on them. -/
structure PythonRuntime where
  /-- What `json.loads` reads of a text. -/
  scan : CodeText → JsonScan PyFloat
  /-- How many calls of `_normalize` may nest. -/
  nesting : Nat
  /-- How many calls of `_canonical_plain` may nest. -/
  canonicalNesting : Nat
  /-- `repr` of a float. -/
  floatText : PyFloat → String
  /-- `str` of a value that is no text. -/
  textOf : Document → CodeText
  sha256 : Bytes → String
  /-- `b64encode(data).decode("ascii")`. -/
  b64encode : Bytes → String
  /-- `b64decode(text, validate=True)`. -/
  b64decode : CodeText → Except PyError Bytes

/-- `repr` of a float, as JSON writes it. -/
def PythonRuntime.numberText (runtime : PythonRuntime) (number : PyFloat) : CodeText :=
  CodeText.ofString (runtime.floatText number)

/-- `math.isfinite`. -/
def PyFloat.isFinite : PyFloat → Bool
  | .finite _ _ => true
  | _ => false

def encodeText (text : CodeText) : Except PyError Bytes :=
  match text.string? with
  | some s => .ok (encodeUtf8 s)
  | none => .error (.raised (.other "UnicodeEncodeError")
      "'utf-8' codec can't encode: surrogates not allowed")

def decodeUtf8? (data : Bytes) : Option CodeText :=
  (String.fromUTF8? ⟨data.toArray⟩).map CodeText.ofString

def recursionError : PyError :=
  .raised (.other "RecursionError") "maximum recursion depth exceeded"

namespace CanonicalPayload

def isStr : ProviderValue → Bool
  | .str _ => true
  | _ => false

def typeName : ProviderValue → String
  | .none => "NoneType"
  | .bool _ => "bool"
  | .int _ => "int"
  | .float _ => "float"
  | .str _ => "str"
  | .bytes _ => "bytes"
  | .bytearray _ => "bytearray"
  | .mapping _ => "dict"
  | .list _ => "list"
  | .tuple _ => "tuple"
  | .sequence name _ => name
  | .object name => name

def unsupported (value : ProviderValue) : PyError :=
  .typeError ("unsupported canonical JSON value: " ++ typeName value)

mutual

/-- `_canonical_plain`, with the number of calls that may still nest. -/
def canonicalPlain : ProviderValue → Nat → Except PyError Document
  | _, 0 => .error recursionError
  | .none, _ + 1 => .ok .null
  | .bool value, _ + 1 => .ok (.bool value)
  | .int value, _ + 1 => .ok (.int value)
  | .float value, _ + 1 =>
    if value.isFinite then .ok (.float value)
    else .error (.valueError "canonical JSON numbers must be finite")
  | .str value, _ + 1 => .ok (.text value)
  | .mapping items, n + 1 =>
    if items.all fun item => isStr item.1 then
      (fun entries => .object (dictEntries entries)) <$> canonicalEntries items n
    else .error (.typeError "canonical JSON object keys must be strings")
  | .list items, n + 1 => .array <$> canonicalItems items n
  | .tuple items, n + 1 => .array <$> canonicalItems items n
  | value, _ + 1 => .error (unsupported value)

def canonicalItems : List ProviderValue → Nat → Except PyError (List Document)
  | [], _ => .ok []
  | item :: rest, n => do
    return (← canonicalPlain item n) :: (← canonicalItems rest n)

def canonicalEntries : List (ProviderValue × ProviderValue) → Nat →
    Except PyError (List (CodeText × Document))
  | [], _ => .ok []
  | (key, item) :: rest, n => do
    let plain ← canonicalPlain item n
    let entries ← canonicalEntries rest n
    -- the keys are texts where this is called
    match key with
    | .str name => return (name, plain) :: entries
    | _ => return entries

end

/-- `sys.get_int_max_str_digits()`. -/
def maxStrDigits : Nat := 4300

mutual

/-- No integer has too many digits to be written. -/
def printable : Document → Bool
  | .int value => value.natAbs < 10 ^ maxStrDigits
  | .array items => printableItems items
  | .object entries => printableEntries entries
  | _ => true

def printableItems : List Document → Bool
  | [] => true
  | item :: rest => printable item && printableItems rest

def printableEntries : List (CodeText × Document) → Bool
  | [] => true
  | (_, item) :: rest => printable item && printableEntries rest

end

def tooManyDigits : PyError :=
  .valueError ("Exceeds the limit (4300 digits) for integer string conversion; " ++
    "use sys.set_int_max_str_digits() to increase the limit")

/-- `json.dumps(value, ensure_ascii=False, sort_keys=True, separators=(",", ":"))`. -/
def dumps (runtime : PythonRuntime) (value : Document) : Except PyError CodeText :=
  if printable value then .ok (value.sorted.render runtime.numberText)
  else .error tooManyDigits

/-- `CanonicalSerializationError(str(error))` of the errors that are caught. -/
def serializationError (error : PyError) : PyError :=
  match error with
  | .raised .typeError message | .raised .valueError message
  | .raised (.other "UnicodeEncodeError") message =>
    .raised (.other "CanonicalSerializationError") message
  | error => error

def canonicalPayloadBytes (runtime : PythonRuntime) (value : ProviderValue) :
    Except PyError Bytes :=
  (do
    let plain ← canonicalPlain value runtime.canonicalNesting
    let text ← dumps runtime plain
    encodeText text).mapError serializationError

end CanonicalPayload

end AiRetrieval
