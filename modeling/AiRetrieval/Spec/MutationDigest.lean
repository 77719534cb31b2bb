import AiRetrieval.Library.Escapes
import AiRetrieval.Spec.EffectRecords
import AiRetrieval.Spec.ProviderValues

/-! `_mutation_digest` and the request of `_effect_request` in `write_back/executor.py`, and
`_assert_same_effect` of `bulk/effects.py`, over texts with any code points: `repr` and
`json.dumps` write these texts in different ways. -/

namespace AiRetrieval

structure TextSet where
  items : List CodeText
  ordered : items.Pairwise fun a b => a ≤ b
  distinct : items.Nodup

/-- The value of a mutation parameter that is a text, an integer, a boolean or null. -/
inductive ParameterValue where
  | none
  | bool (value : Bool)
  | int (value : Int)
  | str (value : CodeText)

/-- `repr(value)`; `isPrintable` is `str.isprintable` of a character. -/
def ParameterValue.repr (isPrintable : Char → Bool) : ParameterValue → Except PyError CodeText
  | .none => .ok (CodeText.ofString "None")
  | .bool value => .ok (CodeText.ofString (if value then "True" else "False"))
  | .int value =>
    if value.natAbs < 10 ^ CanonicalPayload.maxStrDigits then
      .ok (CodeText.ofString (toString value))
    else .error CanonicalPayload.tooManyDigits
  | .str value => .ok (value.repr isPrintable)

/-- What a mutation is of a command: the fields that `_mutation_digest` reads. -/
structure CommandMutation where
  dataScope : CodeText
  targetDataset : CodeText
  rowScope : CodeText
  columns : TextSet
  mutationType : OperationKind
  parameters : List (CodeText × ParameterValue)

namespace CommandMutation

/-- The dictionary that is digested, given its texts. -/
def canonical (dataScope targetDataset rowScope : CodeText) (columns : List CodeText)
    (mutationType : CodeText) (parameters : List (CodeText × CodeText))
    (validatedOutputHash : CodeText) : Document :=
  .object [
    (CodeText.ofString "data_scope", .text dataScope),
    (CodeText.ofString "target_dataset", .text targetDataset),
    (CodeText.ofString "row_scope", .text rowScope),
    (CodeText.ofString "columns", .array (columns.map .text)),
    (CodeText.ofString "mutation_type", .text mutationType),
    (CodeText.ofString "parameters",
      .array (parameters.map fun item => .array [.text item.1, .text item.2])),
    (CodeText.ofString "validated_output_hash", .text validatedOutputHash)]

/-- `[(name, repr(value)) for name, value in command.parameters]`. -/
def reprsOf {α : Type} (repr : α → Except PyError CodeText) (parameters : List (CodeText × α)) :
    Except PyError (List (CodeText × CodeText)) :=
  parameters.mapM fun item => do return (item.1, ← repr item.2)

/-- The digest of the dictionary, in which there is no float. -/
def digestOf (sha256 : Bytes → String) (document : Document) : Except PyError String := do
  return sha256 (← encodeText (document.sorted.write JsonValue.asciiStyle fun _ => []))

variable (runtime : PythonRuntime) (isPrintable : Char → Bool) (mutation : CommandMutation)
  (payload : Bytes)

def reprs : Except PyError (List (CodeText × CodeText)) :=
  reprsOf (·.repr isPrintable) mutation.parameters

def digest : Except PyError String := do
  let parameters ← reprs isPrintable mutation
  digestOf runtime.sha256 (canonical mutation.dataScope mutation.targetDataset mutation.rowScope
    mutation.columns.items (CodeText.ofString mutation.mutationType.value) parameters
    (CodeText.ofString (runtime.sha256 payload)))

end CommandMutation

/-- The work item of a request. -/
structure EffectItem where
  jobId : CodeText
  itemId : CodeText
  idempotencyKey : CodeText
  deriving DecidableEq

/-- What an effect record and a request are compared by. -/
structure EffectIdentity where
  item : EffectItem
  targetDataset : CodeText
  rowScopeDigest : String
  mutationDigest : String
  deriving DecidableEq

namespace EffectIdentity

def ofCommand (runtime : PythonRuntime) (isPrintable : Char → Bool) (item : EffectItem)
    (mutation : CommandMutation) (payload : Bytes) : Except PyError EffectIdentity := do
  let rowScopeDigest := runtime.sha256 (← encodeText mutation.rowScope)
  let mutationDigest ← mutation.digest runtime isPrintable payload
  return ⟨item, mutation.targetDataset, rowScopeDigest, mutationDigest⟩

def assertSame (record request : EffectIdentity) : Except PyError Unit :=
  require (record = request)
    (.raised .effectConflictError "idempotency key is committed to a different mutation")

end EffectIdentity

end AiRetrieval
