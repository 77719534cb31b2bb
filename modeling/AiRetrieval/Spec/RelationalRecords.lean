import AiRetrieval.Library.DecimalContexts
import AiRetrieval.Library.Texts
import AiRetrieval.Spec.WriteBackRecords

/-! The records of `relational/models.py`: plans, raw results and normalized ones. The texts of
cells hold any code points. -/

namespace AiRetrieval

inductive OperationClassification where
  | retrieval
  | mutation
  | unsupported
  deriving DecidableEq

inductive NormalizedType where
  | string | integer | decimal | boolean | date | datetime | binary
  deriving DecidableEq

def NormalizedType.value : NormalizedType → String
  | .string => "string" | .integer => "integer" | .decimal => "decimal" | .boolean => "boolean"
  | .date => "date" | .datetime => "datetime" | .binary => "binary"

/-- `NormalizedScalar`, over what stands for its decimals. -/
inductive Scalar (δ : Type) where
  | none
  | str (value : CodeText)
  | int (value : Int)
  | decimal (value : δ)
  | bool (value : Bool)
  | date (ordinal : Nat)
  /-- An instant in UTC. -/
  | datetime (instant : Int)
  | bytes (value : Bytes)
  deriving DecidableEq

abbrev NormalizedScalar := Scalar DecimalNumber

/-- What `==` and `<` see of a scalar: of a decimal, the number. -/
abbrev ScalarValue := Scalar Rat

def NormalizedScalar.value : NormalizedScalar → ScalarValue
  | .none => .none
  | .str value => .str value
  | .int value => .int value
  | .decimal number => .decimal number.value
  | .bool value => .bool value
  | .date ordinal => .date ordinal
  | .datetime instant => .datetime instant
  | .bytes value => .bytes value

inductive SortDirection where
  | ascending
  | descending
  deriving DecidableEq

inductive NullPlacement where
  | first
  | last
  deriving DecidableEq

structure QueryPlanReference.Fields where
  planId : String
  version : String
  deriving DecidableEq

def QueryPlanReference.postInit (r : QueryPlanReference.Fields) : Except PyError Unit :=
  require (blank r.planId = false ∧ blank r.version = false)
    (.valueError "query plan identifier and version must not be blank")

abbrev QueryPlanReference := Checked QueryPlanReference.postInit

structure ParameterSpec.Fields where
  name : String
  valueType : NormalizedType
  required : Bool := true
  nullable : Bool := false
  deriving DecidableEq

def ParameterSpec.postInit (r : ParameterSpec.Fields) : Except PyError Unit :=
  require (blank r.name = false) (.valueError "parameter name must not be blank")

abbrev ParameterSpec := Checked ParameterSpec.postInit

structure OrderTerm.Fields where
  column : String
  direction : SortDirection := .ascending
  nulls : NullPlacement := .last
  deriving DecidableEq

def OrderTerm.postInit (r : OrderTerm.Fields) : Except PyError Unit :=
  require (blank r.column = false) (.valueError "order column must not be blank")

abbrev OrderTerm := Checked OrderTerm.postInit

structure QueryPlan.Fields where
  reference : QueryPlanReference
  operation : OperationNode
  parameterSchema : List ParameterSpec
  requiredCapabilities : FrozenSet
  deterministicOrder : List OrderTerm
  intrinsicallyOrdered : Bool
  maxRows : Int
  maxBytes : Int
  authorizedDatasets : FrozenSet

def QueryPlan.postInit (r : QueryPlan.Fields) : Except PyError Unit := do
  require (r.parameterSchema.map (·.val.name)).Nodup
    (.valueError "query parameter names must be unique")
  require (0 < r.maxRows ∧ 0 < r.maxBytes) (.valueError "query plan limits must be positive")
  require (∀ value ∈ r.requiredCapabilities.items ++ r.authorizedDatasets.items,
    blank value = false) (.valueError "capabilities and datasets must not be blank")

abbrev QueryPlan := Checked QueryPlan.postInit

structure ProtectionMetadata where
  policyVersion : String
  serviceIdentity : String
  transportEncryption : String
  persistenceEncryption : String
  deriving DecidableEq

inductive PyDecimal where
  | finite (number : DecimalNumber)
  | infinite (negative : Bool)
  | nan (signaling : Bool)
  deriving DecidableEq

/-- A cell an adapter returns; `object` stands for an instance of any other class. -/
inductive RelationalValue where
  | none
  | str (value : CodeText)
  | int (value : Int)
  | decimal (value : PyDecimal)
  | float (value : PyFloat)
  | bool (value : Bool)
  | date (ordinal : Nat)
  | datetime (value : DateTime)
  | bytes (value : Bytes)
  | bytearray (value : Bytes)
  | memoryview (value : Bytes)
  | object (typeName : String)

/-- `RawColumn`, and `NormalizedColumn`, which has the same fields. -/
structure RelationalColumn where
  name : String
  valueType : NormalizedType
  nullable : Bool := true
  deriving DecidableEq

structure RawRelationalResult where
  columns : List RelationalColumn
  rows : List (List RelationalValue)
  affectedRows : Option Int := none
  transactionOutcome : Option String := none

abbrev NormalizedRow := List NormalizedScalar

structure NormalizedResult where
  columns : List RelationalColumn
  rows : List NormalizedRow
  affectedRows : Option Int
  transactionOutcome : Option String
  adapterVersion : String
  protection : ProtectionMetadata

/-- What `==` sees of a row. -/
def NormalizedRow.values (row : NormalizedRow) : List ScalarValue := row.map (·.value)

end AiRetrieval
