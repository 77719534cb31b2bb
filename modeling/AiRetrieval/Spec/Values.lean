import AiRetrieval.Spec.Records

/-! The values of the language where the code does not fix their type, and what it asks
of them: a subscript, `get`, an iteration, `strip`, `freeze` and a comparison. -/

namespace AiRetrieval

/-- A value of the language where the code does not fix its type; `object` stands for
an instance of any other class. -/
inductive PyValue where
  | none
  | bool (value : Bool)
  | int (value : Int)
  | float (value : PyFloat)
  | str (value : String)
  | bytes (value : List UInt8)
  | list (items : List PyValue)
  | tuple (items : List PyValue)
  | set (items : List PyValue)
  | frozenset (items : List PyValue)
  | dict (items : List (PyValue × PyValue))
  | frozenMapping (items : FrozenMapping)
  | object (typeName : String)

inductive PyNumber where
  | int (value : Int)
  | float (value : PyFloat)

namespace PyNumber

/-- Where a number stands on the line with its two ends; no `NaN` stands anywhere. -/
def rank : PyNumber → Option (Int × Rat)
  | .int value => some (0, value)
  | .float (.nan _) => none
  | .float (.infinite negative) => some (if negative then -1 else 1, 0)
  | .float (.finite negative magnitude) => some (0, if negative then -magnitude else magnitude)

def less (a b : PyNumber) : Bool :=
  match a.rank, b.rank with
  | some x, some y => decide (x.1 < y.1 ∨ x.1 = y.1 ∧ x.2 < y.2)
  | _, _ => false

def equal (a b : PyNumber) : Bool :=
  match a.rank, b.rank with
  | some x, some y => decide (x = y)
  | _, _ => false

/-- `a is b or a == b`, as a container compares: a `NaN` is only itself. -/
def same : PyNumber → PyNumber → Bool
  | .float (.nan a), .float (.nan b) => decide (a = b)
  | a, b => a.equal b

end PyNumber

/-- The number a value compares as; a boolean is one. -/
def FrozenValue.number : FrozenValue → Option PyNumber
  | .bool value => some (.int value.toNat)
  | .int value => some (.int value)
  | .float value => some (.float value)
  | _ => Option.none

mutual

def FrozenValue.object : FrozenValue → PyValue
  | .none => .none
  | .bool value => .bool value
  | .int value => .int value
  | .float value => .float value
  | .str value => .str value
  | .tuple items => .tuple (objects items)
  | .frozenset items => .frozenset (objects items)
  | .mapping items => .frozenMapping items

def FrozenValue.objects : List FrozenValue → List PyValue
  | [] => []
  | value :: rest => value.object :: objects rest

end

namespace PyValue

def typeName : PyValue → String
  | .none => "NoneType"
  | .bool _ => "bool"
  | .int _ => "int"
  | .float _ => "float"
  | .str _ => "str"
  | .bytes _ => "bytes"
  | .list _ => "list"
  | .tuple _ => "tuple"
  | .set _ => "set"
  | .frozenset _ => "frozenset"
  | .dict _ => "dict"
  | .frozenMapping _ => "FrozenMapping"
  | .object name => name

def isText (text : String) : PyValue → Bool
  | .str value => value == text
  | _ => false

def entry (items : List (PyValue × PyValue)) (key : String) : Option PyValue :=
  (items.find? fun item => item.1.isText key).map Prod.snd

/-- `KeyError(key)`. -/
def missing (key : String) : PyError := .raised .keyError ("'" ++ key ++ "'")

/-- `value[key]`. -/
def item (value : PyValue) (key : String) : Except PyError PyValue :=
  match value with
  | .dict items => (entry items key).elim (.error (missing key)) .ok
  | .frozenMapping items =>
    (FrozenMapping.get items key).elim (.error (missing key)) fun value => .ok value.object
  | .str _ => .error (.typeError "string indices must be integers, not 'str'")
  | .bytes _ => .error (.typeError "byte indices must be integers or slices, not str")
  | .list _ => .error (.typeError "list indices must be integers or slices, not str")
  | .tuple _ => .error (.typeError "tuple indices must be integers or slices, not str")
  | value => .error (.typeError ("'" ++ value.typeName ++ "' object is not subscriptable"))

def noAttribute (value : PyValue) (name : String) : PyError :=
  .raised .attributeError ("'" ++ value.typeName ++ "' object has no attribute '" ++ name ++ "'")

/-- `value.get(key, default)`. -/
def find (value : PyValue) (key : String) (default : PyValue) : Except PyError PyValue :=
  match value with
  | .dict items => .ok ((entry items key).getD default)
  | .frozenMapping items => .ok (((FrozenMapping.get items key).map (·.object)).getD default)
  | value => .error (value.noAttribute "get")

/-- `tuple(value)`. -/
def iterate : PyValue → Except PyError (List PyValue)
  | .list items => .ok items
  | .tuple items => .ok items
  | .set items => .ok items
  | .frozenset items => .ok items
  | .dict items => .ok (items.map Prod.fst)
  | .frozenMapping items => .ok (items.map fun item => .str item.1)
  | .str value => .ok (value.toList.map fun c => .str (String.ofList [c]))
  | .bytes value => .ok (value.map fun byte => .int byte.toNat)
  | value => .error (.typeError ("'" ++ value.typeName ++ "' object is not iterable"))

def text : PyValue → Except PyError String
  | .str value => .ok value
  | value => .error (value.noAttribute "strip")

/-- `not isinstance(value, bool) and isinstance(value, int) and value >= 0`, or a raise. -/
def natural (message : String) : PyValue → Except PyError Nat
  | .int value => if 0 ≤ value then .ok value.toNat else .error (.valueError message)
  | _ => .error (.valueError message)

def isNumber (number : Nat) : PyValue → Bool
  | .int value => value == number
  | .bool value => value.toNat == number
  | .float (.finite negative magnitude) =>
    (if negative then -magnitude else magnitude) == (number : Rat)
  | _ => false

/-- `hash(value)` of a value used as a key. -/
def hashable (value : PyValue) : Except PyError Unit :=
  match value with
  | .list _ | .set _ | .dict _ =>
    .error (.typeError ("unhashable type: '" ++ value.typeName ++ "'"))
  | _ => .ok ()

mutual

def freeze : PyValue → Except PyError FrozenValue
  | .none => .ok .none
  | .bool value => .ok (.bool value)
  | .int value => .ok (.int value)
  | .float value => .ok (.float value)
  | .str value => .ok (.str value)
  | .list items => .tuple <$> freezeItems items
  | .tuple items => .tuple <$> freezeItems items
  | .set items => .frozenset <$> freezeItems items
  | .frozenset items => .frozenset <$> freezeItems items
  | .dict items =>
    if items.all fun item => item.1 matches .str _ then
      (fun entries => .mapping (entries.insertionSort fun a b => a.1 ≤ b.1)) <$>
        freezeEntries items
    else .error (.typeError "immutable mappings require string keys")
  | .frozenMapping items => .ok (.mapping items)
  | .bytes _ => .error (.typeError "unsupported immutable value: bytes")
  | .object name => .error (.typeError ("unsupported immutable value: " ++ name))

def freezeItems : List PyValue → Except PyError (List FrozenValue)
  | [] => .ok []
  | value :: rest => do return (← freeze value) :: (← freezeItems rest)

def freezeEntries : List (PyValue × PyValue) → Except PyError (List (String × FrozenValue))
  | [] => .ok []
  | (key, value) :: rest => do
    let frozen ← freeze value
    let entries ← freezeEntries rest
    -- the keys are texts where this is called
    match key with
    | .str name => return (name, frozen) :: entries
    | _ => return entries

end

/-- `freeze(value)`, asserted to be a mapping. -/
def asserted : FrozenValue → Except PyError FrozenMapping
  | .mapping items => .ok items
  | _ => .error (.raised .assertionError "")

end PyValue

end AiRetrieval
