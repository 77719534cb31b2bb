import AiRetrieval.Library.JsonEncoding
import AiRetrieval.Spec.ProviderValues
import AiRetrieval.Spec.Values

/-! The canonical JSON of frozen values: `_canonical_value` of `control_plane/configuration.py`
and `_plain` of `tasks/registry.py`, which read a set as the list of its members in the order
of their encodings; and `==` of frozen values. -/

namespace AiRetrieval

namespace FrozenValue

mutual

def equal : FrozenValue → FrozenValue → Bool
  | .none, .none => true
  | .str value, .str other => value == other
  | .tuple items, .tuple others => equalItems items others
  | .frozenset items, .frozenset others => items.length == others.length && subset items others
  | .mapping entries, .mapping others => equalEntries entries others
  | .bool value, other => (other.number.map (PyNumber.int value.toNat).equal).getD false
  | .int value, other => (other.number.map (PyNumber.int value).equal).getD false
  | .float value, other => (other.number.map (PyNumber.float value).equal).getD false
  | _, _ => false

def equalItems : List FrozenValue → List FrozenValue → Bool
  | [], [] => true
  | value :: rest, other :: others => value.equal other && equalItems rest others
  | _, _ => false

/-- Every member of the one is a member of the other. -/
def subset : List FrozenValue → List FrozenValue → Bool
  | [], _ => true
  | value :: rest, others => others.any (value.equal ·) && subset rest others

def equalEntries : List (String × FrozenValue) → List (String × FrozenValue) → Bool
  | [], [] => true
  | (key, value) :: rest, (name, other) :: others =>
    key == name && value.equal other && equalEntries rest others
  | _, _ => false

end

end FrozenValue

/-- A canonical reading of frozen values: what it raises at a number that is not finite, and
the style of the texts it sorts the members of a set by. -/
structure CanonicalForm where
  notFinite : String
  style : JsonValue.Style

namespace CanonicalForm

variable (form : CanonicalForm) (runtime : PythonRuntime)

/-- `json.dumps(item, sort_keys=True, ...)`, the key a set is sorted by. -/
def sortText (item : Document) : Except PyError CodeText :=
  if CanonicalPayload.printable item then
    .ok (item.sorted.write form.style runtime.numberText)
  else .error CanonicalPayload.tooManyDigits

def sortMembers (items : List Document) : Except PyError (List Document) := do
  let keyed ← items.mapM fun item => do return (← sortText form runtime item, item)
  return (keyed.insertionSort fun a b => a.1 ≤ b.1).map Prod.snd

mutual

def canonicalValue : FrozenValue → Except PyError Document
  | .none => .ok .null
  | .bool value => .ok (.bool value)
  | .int value => .ok (.int value)
  | .float value => if value.isFinite then .ok (.float value)
    else .error (.valueError form.notFinite)
  | .str value => .ok (.text (CodeText.ofString value))
  | .tuple items => .array <$> canonicalItems items
  | .frozenset items => do
    let members ← canonicalItems items
    .array <$> sortMembers form runtime members
  | .mapping entries => .object <$> canonicalEntries [] entries

def canonicalItems : List FrozenValue → Except PyError (List Document)
  | [] => .ok []
  | value :: rest => do return (← canonicalValue value) :: (← canonicalItems rest)

/-- The comprehension over `items()`, which gives the first value under a key each time. -/
def canonicalEntries (seen : List String) :
    List (String × FrozenValue) → Except PyError (List (CodeText × Document))
  | [] => .ok []
  | (key, value) :: rest =>
    if key ∈ seen then canonicalEntries seen rest
    else do
      let item ← canonicalValue value
      return (CodeText.ofString key, item) :: (← canonicalEntries (key :: seen) rest)

end

end CanonicalForm

end AiRetrieval
