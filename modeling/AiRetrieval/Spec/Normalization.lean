import AiRetrieval.Library.Comparators
import AiRetrieval.Spec.RelationalRecords

/-! `relational/normalization.py`. -/

namespace AiRetrieval

/-- What the standard library makes of decimals. -/
structure RelationalRuntime where
  /-- The current decimal context; it rounds half to even and traps overflow. -/
  context : DecimalContext
  /-- `Decimal(str(value))`. -/
  decimalOf : RelationalValue → Except PyError PyDecimal

def defaultContext : DecimalContext := ⟨28, -999999, 999999, by decide, by decide⟩

/-- What `normalize_result` raises: its own error, or what it does not catch. -/
inductive NormalizationFailure where
  | normalizationError (message : String)
  | raised (error : PyError)
  deriving DecidableEq

/-- `except (InvalidOperation, ValueError)`. -/
def notDecimal : PyError → Bool
  | .raised .valueError _ => true
  | .raised (.other name) _ => name = "InvalidOperation"
  | _ => false

def decimalOverflow : PyError := .raised (.other "Overflow") "[<class 'decimal.Overflow'>]"

instance : LE Bytes := List.instLE

/-- `a < b`. Two values of different types never meet: they are of one column. -/
def ScalarValue.less : ScalarValue → ScalarValue → Bool
  | .str a, .str b => !decide (b ≤ a)
  | .int a, .int b => decide (a < b)
  | .decimal a, .decimal b => decide (a < b)
  | .bool a, .bool b => !a && b
  | .date a, .date b => decide (a < b)
  | .datetime a, .datetime b => decide (a < b)
  | .bytes a, .bytes b => !decide (b ≤ a)
  | _, _ => false

namespace Normalization

variable (runtime : RelationalRuntime)

def columnFails {α : Type} (column : RelationalColumn) (message : String) :
    Except NormalizationFailure α :=
  .error (.normalizationError ("column " ++ column.name ++ message))

/-- `value if isinstance(value, Decimal) else Decimal(str(value))`. -/
def asDecimal : RelationalValue → Except PyError PyDecimal
  | .decimal decimal => .ok decimal
  | value => runtime.decimalOf value

/-- The branch for a decimal column. -/
def normalizeDecimal (value : RelationalValue) (column : RelationalColumn) :
    Except NormalizationFailure NormalizedScalar :=
  match asDecimal runtime value with
  | .error error => if notDecimal error then columnFails column " is not decimal"
      else .error (.raised error)
  | .ok (.finite number) =>
    match runtime.context.normalize number with
    | some normal => .ok (.decimal normal)
    | none => .error (.raised decimalOverflow)
  | .ok _ => columnFails column " must be finite"

/-- The branch for a datetime column: `value.astimezone(timezone.utc)`, if it has a timezone. -/
def normalizeDateTime (value : DateTime) (column : RelationalColumn) :
    Except NormalizationFailure NormalizedScalar :=
  if value.aware = false then columnFails column " datetime must include timezone"
  else if 0 ≤ value.instant ∧ value.instant ≤ DateTime.maxInstant then
    .ok (.datetime value.instant)
  else .error (.raised (.raised .overflowError "date value out of range"))

def normalizeValue (value : RelationalValue) (column : RelationalColumn) :
    Except NormalizationFailure NormalizedScalar :=
  match column.valueType, value with
  | _, .none => if column.nullable then .ok .none else columnFails column " is not nullable"
  | .string, .str text => .ok (.str text)
  | .integer, .int number => .ok (.int number)
  | .decimal, value => normalizeDecimal runtime value column
  | .boolean, .bool truth => .ok (.bool truth)
  | .date, .date ordinal => .ok (.date ordinal)
  | .datetime, .datetime value => normalizeDateTime value column
  | .binary, .bytes data => .ok (.bytes data)
  | .binary, .bytearray data => .ok (.bytes data)
  | .binary, .memoryview data => .ok (.bytes data)
  | expected, _ => columnFails column (" does not match " ++ expected.value)

def normalizeRow (columns : List RelationalColumn) (row : List RelationalValue) :
    Except NormalizationFailure NormalizedRow :=
  if row.length ≠ columns.length then
    .error (.normalizationError "row width does not match result columns")
  else (row.zip columns).mapM fun cell => normalizeValue runtime cell.1 cell.2

/-- `_order_indexes`; the names of the columns are distinct. -/
def orderIndexes (plan : QueryPlan) (columns : List RelationalColumn) :
    Except NormalizationFailure (List (Nat × OrderTerm)) :=
  let names := columns.map (·.name)
  plan.val.deterministicOrder.mapM fun term =>
    if term.val.column ∈ names then .ok (names.idxOf term.val.column, term)
    else .error (.normalizationError
      ("order column " ++ term.val.column ++ " is absent from result"))

/-- One pass of the loop of `_compare_rows`. -/
def compareCells (term : OrderTerm) (first second : ScalarValue) : Int :=
  if first = .none ∨ second = .none then
    let comparison := if first = .none ∧ second = .none then 0 else if first = .none then -1 else 1
    if term.val.nulls = .last then -comparison else comparison
  else
    let comparison := threeWay (ScalarValue.less second first) (ScalarValue.less first second)
    if term.val.direction = .descending then -comparison else comparison

def compareRows (left right : List ScalarValue) : List (Nat × OrderTerm) → Int
  | [] => 0
  | (index, term) :: rest =>
    let comparison := compareCells term (left.getD index .none) (right.getD index .none)
    if comparison ≠ 0 then comparison else compareRows left right rest

/-- `rows`, as `normalize_result` has them before it orders them. -/
def normalizeRows (raw : RawRelationalResult) : Except NormalizationFailure (List NormalizedRow) :=
  if (raw.columns.map (·.name)).Nodup then raw.rows.mapM (normalizeRow runtime raw.columns)
  else .error (.normalizationError "result column names must be unique")

def orderRows (plan : QueryPlan) (columns : List RelationalColumn) (rows : List NormalizedRow) :
    Except NormalizationFailure (List NormalizedRow) :=
  if plan.val.deterministicOrder = [] then .ok rows
  else do
    let indexes ← orderIndexes plan columns
    return sortBy (fun left right => compareRows left.values right.values indexes) rows

def normalizeResult (raw : RawRelationalResult) (plan : QueryPlan)
    (protection : ProtectionMetadata) (adapterVersion : String) :
    Except NormalizationFailure NormalizedResult := do
  let rows ← normalizeRows runtime raw
  let ordered ← orderRows plan raw.columns rows
  return {
    columns := raw.columns
    rows := ordered
    affectedRows := raw.affectedRows
    transactionOutcome := raw.transactionOutcome
    adapterVersion := adapterVersion
    protection := protection }

end Normalization

end AiRetrieval
