import AiRetrieval.Spec.SecurityRecords
import AiRetrieval.Library.Dictionaries

/-! `_mask` of `security/gateway.py` and `_redact` of `observability/telemetry.py`: the same
walk through mappings and sequences, which differ in the path below a key and in what
becomes of a text. -/

namespace AiRetrieval

/-- Where the two walks differ. -/
structure Concealment where
  fields : FrozenSet
  representation : String
  /-- The path below a key. -/
  next : List String → String → List String
  /-- What becomes of a text that is no mapping's key. -/
  text : String → String

/-- `str(key) in sensitive_fields or dotted in sensitive_fields`. -/
def Concealment.hides (c : Concealment) (path : List String) (key : String) : Bool :=
  c.fields.items.contains key || c.fields.items.contains (".".intercalate (c.next path key))

/-- `output[key] = item` for each entry in order. -/
def outputOf (entries : List (String × PyValue)) : PyValue :=
  .dict ((entries.foldl (fun output entry => output.insert entry.1 entry.2)
    (.empty : Dict String PyValue)).entries.map fun entry => (.str entry.1, entry.2))

/-- `value.items()` of a `FrozenMapping`: each key with the first value under it. -/
def firstValues (entries : List (String × PyValue)) : List (String × PyValue) :=
  entries.map fun entry => (entry.1, (entries.lookup entry.1).getD entry.2)

namespace Concealment

variable (c : Concealment)

mutual

/-- The walk over a value of `freeze`. -/
def concealFrozen (path : List String) : FrozenValue → PyValue
  | .mapping items => outputOf (firstValues (concealFrozenEntries path items))
  | .tuple items => .tuple (concealFrozenItems path items)
  | .frozenset items => .frozenset (FrozenValue.objects items)
  | .str value => .str (c.text value)
  | .none => .none
  | .bool value => .bool value
  | .int value => .int value
  | .float value => .float value

def concealFrozenItems (path : List String) : List FrozenValue → List PyValue
  | [] => []
  | value :: rest => concealFrozen path value :: concealFrozenItems path rest

def concealFrozenEntries (path : List String) :
    List (String × FrozenValue) → List (String × PyValue)
  | [] => []
  | (key, value) :: rest =>
    (key, if c.hides path key then .str c.representation
      else concealFrozen (c.next path key) value) ::
      concealFrozenEntries path rest

end

variable (textOf : PyValue → String)

def keyText : PyValue → String
  | .str key => key
  | key => textOf key

mutual

/-- The walk over any value. -/
def conceal (path : List String) : PyValue → PyValue
  | .dict items => outputOf (concealEntries path items)
  | .frozenMapping items => outputOf (firstValues (c.concealFrozenEntries path items))
  | .list items => .tuple (concealItems path items)
  | .tuple items => .tuple (concealItems path items)
  | .str value => .str (c.text value)
  | value => value

def concealItems (path : List String) : List PyValue → List PyValue
  | [] => []
  | value :: rest => conceal path value :: concealItems path rest

def concealEntries (path : List String) : List (PyValue × PyValue) → List (String × PyValue)
  | [] => []
  | (key, value) :: rest =>
    (keyText textOf key, if c.hides path (keyText textOf key) then .str c.representation
      else conceal (c.next path (keyText textOf key)) value) :: concealEntries path rest

end

end Concealment

def masking (policy : SecurityPolicy) : Concealment where
  fields := policy.val.sensitiveFields
  representation := policy.val.maskingRepresentation
  next path key := path ++ [key]
  text value := value

def mask (textOf : PyValue → String) (value : PyValue) (policy : SecurityPolicy)
    (path : List String) : PyValue := (masking policy).conceal textOf path value

def redaction (policy : RedactionPolicy) : Concealment where
  fields := policy.val.sensitiveFields
  representation := policy.val.representation
  next path key := if path = [] ∧ key = "details" then [] else path ++ [key]
  text value :=
    if value ∈ policy.val.sensitiveValues.items then policy.val.representation else value

def redact (textOf : PyValue → String) (value : PyValue) (policy : RedactionPolicy)
    (path : List String) : PyValue := (redaction policy).conceal textOf path value

def serializeRedacted (textOf : PyValue → String) (isoformat : DateTime → String)
    (event : TelemetryEvent) (policy : RedactionPolicy) : Except PyError FrozenMapping :=
  (redact textOf (.dict [
    (.str "correlation_id", .str event.val.correlationId),
    (.str "timestamp", .str (isoformat event.val.timestamp)),
    (.str "event_type", .str event.val.eventType),
    (.str "component", .str event.val.component),
    (.str "outcome", .str event.val.outcome),
    (.str "configuration_version", .str event.val.configurationVersion),
    (.str "details", .frozenMapping event.val.details)]) policy []).freeze >>= PyValue.asserted

end AiRetrieval
