import AiRetrieval.Library.Dictionaries
import AiRetrieval.Library.Histories
import AiRetrieval.Library.Programs
import AiRetrieval.Spec.BudgetRecords
import AiRetrieval.Spec.Values

/-! `InMemoryBudgetController` of `control_plane/budget.py`. Its lock makes every call one
step of the ledger; a call that raises keeps what it wrote before the raise. -/

namespace AiRetrieval

structure MutableBalance where
  limit : ModelUsage
  reserved : ModelUsage := {}
  actual : ModelUsage := {}
  revision : Nat := 0
  deriving DecidableEq

structure ReservationRecord where
  reservation : BudgetReservation
  receipt : Option ReconciliationReceipt := none
  deriving DecidableEq

structure InMemoryBudgetController where
  balances : Dict String MutableBalance
  bindings : Dict String BudgetBinding
  reservations : Dict String ReservationRecord
  deriving DecidableEq

namespace InMemoryBudgetController

abbrev Op := Program PyError InMemoryBudgetController

def bindingError (message : String) : PyError := .raised (.other "BudgetBindingError") message

def notFoundError (message : String) : PyError :=
  .raised (.other "ReservationNotFoundError") message

def stateError (message : String) : PyError := .raised (.other "ReservationStateError") message

def of (limits : List BudgetLimit) : Except PyError InMemoryBudgetController := do
  require (limits.map (·.val.scope)).Nodup (.valueError "budget scope limits must be unique")
  return {
    balances := limits.foldl (fun balances limit => balances.insert limit.val.scope
      { limit := ⟨limit.val.costMinorUnits, limit.val.tokenUnits, 0⟩ }) .empty
    bindings := .empty
    reservations := .empty }

section Amounts

def add (left right : ModelUsage) : ModelUsage where
  costMinorUnits := left.costMinorUnits + right.costMinorUnits
  inputTokens := left.inputTokens + right.inputTokens
  outputTokens := left.outputTokens + right.outputTokens

def negative (name : String) : PyError :=
  .valueError (name ++ " must be a non-negative fixed-point integer")

/-- `_subtract`; a difference below zero is no `Usage`. -/
def subtract (left right : ModelUsage) : Except PyError ModelUsage := do
  require (right.costMinorUnits ≤ left.costMinorUnits) (negative "cost_minor_units")
  require (right.inputTokens ≤ left.inputTokens) (negative "input_tokens")
  require (right.outputTokens ≤ left.outputTokens) (negative "output_tokens")
  return {
    costMinorUnits := left.costMinorUnits - right.costMinorUnits
    inputTokens := left.inputTokens - right.inputTokens
    outputTokens := left.outputTokens - right.outputTokens }

/-- The `released` usage of a receipt: what the estimate had over, in each component. -/
def released (estimate actual : ModelUsage) : ModelUsage where
  costMinorUnits := estimate.costMinorUnits - actual.costMinorUnits
  inputTokens := estimate.inputTokens - actual.inputTokens
  outputTokens := estimate.outputTokens - actual.outputTokens

def availableCost (balance : MutableBalance) : Int :=
  balance.limit.costMinorUnits - balance.reserved.costMinorUnits - balance.actual.costMinorUnits

def availableTokens (balance : MutableBalance) : Int :=
  balance.limit.totalTokens - balance.reserved.totalTokens - balance.actual.totalTokens

end Amounts

section Lookups

variable (s : InMemoryBudgetController)

/-- `self._balances[scope]`. -/
def balanceOf (scope : String) : Except PyError MutableBalance :=
  (s.balances.get? scope).elim (.error (PyValue.missing scope)) .ok

def requireKnownScopes (scopes : List String) : Except PyError Unit :=
  let missing := scopes.filter fun scope => ¬s.balances.contains scope
  require (missing = []) (bindingError ("unknown budget scopes: " ++ ", ".intercalate missing))

/-- What a scope lacks for an estimate. -/
structure Shortage where
  scope : String
  cost : Bool
  tokens : Bool

def shortage (usage : ModelUsage) (scope : String) : Except PyError Shortage := do
  let balance ← s.balanceOf scope
  return {
    scope := scope
    cost := (usage.costMinorUnits : Int) > availableCost balance
    tokens := (usage.totalTokens : Int) > availableTokens balance }

def exhaustion (scopes : List String) (usage : ModelUsage) :
    Except PyError (Option BudgetExhaustion) := do
  let shortages ← scopes.mapM (s.shortage usage)
  let exhaustedScopes := (shortages.filter fun short => short.cost || short.tokens).map (·.scope)
  if exhaustedScopes = [] then
    return none
  else
    let cost := if shortages.any (·.cost) then [BudgetDimension.cost] else []
    let tokens := if shortages.any (·.tokens) then [BudgetDimension.tokens] else []
    return some (← Checked.make BudgetExhaustion.postInit ⟨exhaustedScopes, cost ++ tokens⟩)

def newReservationId (identifier : Except PyError PyValue) : Except PyError String := do
  match ← identifier with
  | .str reservationId =>
    if blank reservationId then
      .error (.valueError "reservation identifier must not be blank")
    else if s.reservations.contains reservationId then
      .error (.valueError ("duplicate reservation identifier: " ++ reservationId))
    else .ok reservationId
  | _ => .error (.valueError "reservation identifier must not be blank")

end Lookups

def normalizeScopes (scopes : List String) : Except PyError (List String) :=
  let normalized := (Dict.fromKeys scopes).keys
  if normalized = [] then
    .error (bindingError "at least one applicable budget scope is required")
  else .ok normalized

def bind (context : ExecutionContext) (scopes : List String) : Op BudgetBinding := do
  let executionId := context.executionId.val
  let normalizedScopes ← normalizeScopes scopes
  let s ← get
  s.requireKnownScopes normalizedScopes
  let proposed ← Checked.make BudgetBinding.postInit
    ⟨executionId, context.configuration.reference.val.version, normalizedScopes⟩
  match s.bindings.get? executionId with
  | some existing =>
    if existing ≠ proposed then
      throw (bindingError "execution budget binding is immutable")
    else
      set { s with bindings := s.bindings.insert executionId proposed }
      return proposed
  | none =>
    set { s with bindings := s.bindings.insert executionId proposed }
    return proposed

/-- One pass of the loops of `reserve` and `reconcile`: the balance of the scope changes and
its revision goes up. -/
def post (change : MutableBalance → Except PyError MutableBalance) (scope : String) :
    Op (String × Nat) := do
  let s ← get
  let balance ← s.balanceOf scope
  let changed ← change balance
  let posted := { changed with revision := changed.revision + 1 }
  set { s with balances := s.balances.insert scope posted }
  return (scope, posted.revision)

def hold (estimate : ModelUsage) (balance : MutableBalance) : Except PyError MutableBalance :=
  .ok { balance with reserved := add balance.reserved estimate }

/-- What `reconcile` does to the balance of a scope. -/
def settle (estimate actual : ModelUsage) (balance : MutableBalance) :
    Except PyError MutableBalance := do
  let reserved ← subtract balance.reserved estimate
  return { balance with reserved := reserved, actual := add balance.actual actual }

/-- `identifier` is what the identifier source answers if it is asked. -/
def reserve (executionId : String) (estimate : ModelUsage) (identifier : Except PyError PyValue) :
    Op ReservationDecision := do
  let s ← get
  match s.bindings.get? executionId with
  | none => throw (bindingError ("execution has no budget binding: " ++ executionId))
  | some binding =>
    match ← s.exhaustion binding.val.scopes estimate with
    | some exhaustion => return .exhausted exhaustion
    | none =>
      -- every balance is debited before the identifier is asked for
      let revisions ← binding.val.scopes.mapM (post (hold estimate))
      let reservationId ← s.newReservationId identifier
      let reservation ← Checked.make BudgetReservation.postInit {
        reservationId := reservationId
        executionId := executionId
        scopes := binding.val.scopes
        estimate := estimate
        scopeRevisions := revisions }
      modify fun s =>
        { s with reservations := s.reservations.insert reservationId ⟨reservation, none⟩ }
      return .reserved reservation

def reconcile (reservationId : String) (actual : ModelUsage) : Op ReconciliationReceipt := do
  let s ← get
  match s.reservations.get? reservationId with
  | none => throw (notFoundError ("unknown reservation: " ++ reservationId))
  | some { receipt := some receipt, .. } =>
    if receipt.val.actual ≠ actual then
      throw (stateError "reservation already reconciled with different actual usage")
    else
      return receipt
  | some { reservation, receipt := none } =>
    let revisions ← reservation.val.scopes.mapM (post (settle reservation.val.estimate actual))
    let receipt ← Checked.make ReconciliationReceipt.postInit
      ⟨reservationId, actual, released reservation.val.estimate actual, revisions⟩
    let reconciled ← Checked.make BudgetReservation.postInit
      { reservation.val with state := .reconciled }
    modify fun s =>
      { s with reservations := s.reservations.insert reservationId ⟨reconciled, some receipt⟩ }
    return receipt

end InMemoryBudgetController

inductive BudgetCall where
  | bind (context : ExecutionContext) (scopes : List String)
  | reserve (executionId : String) (estimate : ModelUsage) (identifier : Except PyError PyValue)
  | reconcile (reservationId : String) (actual : ModelUsage)

inductive BudgetReply where
  | bound (binding : BudgetBinding)
  | decided (decision : ReservationDecision)
  | reconciled (receipt : ReconciliationReceipt)

def BudgetCall.program : BudgetCall → InMemoryBudgetController.Op BudgetReply
  | .bind context scopes => .bound <$> InMemoryBudgetController.bind context scopes
  | .reserve executionId estimate identifier =>
    .decided <$> InMemoryBudgetController.reserve executionId estimate identifier
  | .reconcile reservationId actual =>
    .reconciled <$> InMemoryBudgetController.reconcile reservationId actual

/-- The controller takes its lock for each call, so a call is one transition. -/
def budgetMachine : Machine BudgetCall (Except PyError BudgetReply) InMemoryBudgetController :=
  fun call s => call.program.exec s

abbrev BudgetTransition :=
  Transition BudgetCall (Except PyError BudgetReply) InMemoryBudgetController

end AiRetrieval
