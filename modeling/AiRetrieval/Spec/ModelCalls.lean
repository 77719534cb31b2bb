import AiRetrieval.Library.Scripts
import AiRetrieval.Spec.Budget
import AiRetrieval.Spec.Router

/-! One model operation as `_task_model` and `_model` of `interactive/coordinator.py` and the
loop of `_invoke_packs` run it over the shared budget controller and router: plan, reserve,
invoke and conclude in a `try` block, then reconcile and complete in its `finally` block. The
durations and totals the coordinator adds up for its metrics are left out. -/

namespace AiRetrieval

/-- What a model operation raises. -/
inductive ModelCallError where
  | planning (error : PlanningError)
  /-- `_BudgetExhausted`. -/
  | budgetExhausted (scopes : List String)
  /-- `_TaskFailed`. -/
  | taskFailed (failure : TaskFailure)
  /-- `_ValidationFailed`. -/
  | validationFailed (reasons failedRuleIds : List String)
  | raised (error : PyError)
  /-- `asyncio.CancelledError`. -/
  | cancelled

/-- What a model operation returns: accepted records, or the entry of `responses`. -/
inductive ModelCallResult where
  | records (records : List FrozenMapping)
  | response (packIndex : Nat) (encoding : String) (output : PyValue)

/-- What the model operations ask besides the planner's questions. -/
structure ServiceEnvironment extends RoutingEnvironment where
  /-- The reservation identifiers. -/
  identifier : Nat → Except PyError PyValue
  /-- How `await model_executor.invoke` ends. -/
  invoke : Nat → ModelPlan → ExecutionContext → Except ModelCallError ModelInvocationResult
  /-- `task_pipeline.parse_and_validate`. -/
  parseAndValidate : Nat → PreparedTask → PackedRequest → PyValue → ExecutionContext →
    Except ModelCallError (Except TaskFailure ValidationResult)
  /-- `validator.validate`. -/
  validate : Nat → List String → List PyValue → ExecutionContext →
    Except ModelCallError ValidationResult
  /-- `b64encode(data).decode("ascii")`. -/
  b64encode : Bytes → String

/-- The components all executions share, with the number of answers the outside has given. -/
structure Services where
  budget : InMemoryBudgetController
  routing : RoutingState
  moment : Nat

/-- What a model operation obtained and settled so far. -/
inductive SettlementEvent where
  | planned (plan : ModelPlan)
  | reserved (reservation : BudgetReservation)
  | invoked (actual : ModelUsage)
  /-- A `reconcile` that returned, and whether the reservation was still open before it. -/
  | reconciled (reservationId : String) (usage : ModelUsage) (wasOpen : Bool)
  /-- A `complete` that returned, and whether the lease was still out before it. -/
  | released (lease : CapacityLease) (wasOut : Bool)
  deriving DecidableEq

/-- The locals of a model operation, with the events it went through. -/
structure CallLocals where
  plan : Option ModelPlan := none
  reservationId : Option String := none
  invoked : Option ModelInvocationResult := none
  result : Option ModelCallResult := none
  events : List SettlementEvent := []

def CallLocals.actual (locals : CallLocals) : Option ModelUsage :=
  locals.invoked.map (·.actualUsage)

abbrev CallStep := Program ModelCallError (Services × CallLocals) Unit

/-- Where the three copies of the code differ. -/
structure CallSite where
  operationId : String
  work : ModelWork
  context : ExecutionContext
  responseReserveMs : Nat
  /-- What a refused reservation raises. -/
  exhausted : BudgetExhaustion → ModelCallError
  /-- What follows the invocation. -/
  conclude : Nat → ModelInvocationResult → Except ModelCallError ModelCallResult

namespace CallSite

/-- The next answer of the outside. -/
def ask {α : Type} (answer : Nat → Except ModelCallError α) :
    Program ModelCallError (Services × CallLocals) α := do
  let (s, locals) ← get
  set ({ s with moment := s.moment + 1 }, locals)
  answer s.moment

def onRouting {α : Type} (x : Program ModelCallError RoutingState α) :
    Program ModelCallError (Services × CallLocals) α :=
  Program.zoom (fun s => s.1.routing) (fun s routing => ({ s.1 with routing := routing }, s.2)) x

def onBudget {α : Type} (x : Program PyError InMemoryBudgetController α) :
    Program ModelCallError (Services × CallLocals) α :=
  Program.zoom (fun s => s.1.budget) (fun s budget => ({ s.1 with budget := budget }, s.2))
    (Program.raising .raised x)

/-- `'NoneType' object has no attribute 'estimate'`. -/
def unplanned : ModelCallError :=
  .raised (.raised .attributeError "'NoneType' object has no attribute 'estimate'")

variable (env : ServiceEnvironment) (site : CallSite)

def planStep : CallStep := do
  let plan ← onRouting (Program.raising .planning (RoutedModelPlanner.plan
    env.toRoutingEnvironment site.operationId site.work site.context site.responseReserveMs))
  modify fun (s, locals) =>
    (s, { locals with plan := some plan, events := locals.events ++ [.planned plan] })

def reserveStep : CallStep := do
  let (s, locals) ← get
  match locals.plan with
  | none => throw unplanned
  | some plan =>
    set ({ s with moment := s.moment + 1 }, locals)
    let decision ← onBudget (InMemoryBudgetController.reserve site.context.executionId.val
      plan.estimate (env.identifier s.moment))
    match decision with
    | .exhausted exhaustion => throw (site.exhausted exhaustion)
    | .reserved reservation => modify fun (s, locals) => (s, { locals with
        reservationId := some reservation.val.reservationId
        events := locals.events ++ [.reserved reservation] })

def invokeStep : CallStep := do
  let (_, locals) ← get
  match locals.plan with
  | none => throw unplanned
  | some plan =>
    let invoked ← ask fun n => env.invoke n plan site.context
    modify fun (s, locals) => (s, { locals with
      invoked := some invoked
      events := locals.events ++ [.invoked invoked.actualUsage] })

def concludeStep : CallStep := do
  let (_, locals) ← get
  match locals.invoked with
  | none => throw unplanned
  | some invoked =>
    let result ← ask fun n => site.conclude n invoked
    modify fun (s, locals) => (s, { locals with result := some result })

/-- `reconcile(reservation_id, actual or plan.estimate)` where there is a reservation. -/
def reconcileStep : CallStep := do
  let (s, locals) ← get
  match locals.reservationId, locals.plan with
  | none, _ => return ()
  | some _, none => throw unplanned
  | some reservationId, some plan =>
    let usage := locals.actual.getD plan.estimate
    let wasOpen := (s.budget.reservations.get? reservationId).any fun record =>
      record.receipt.isNone
    let _ ← onBudget (InMemoryBudgetController.reconcile reservationId usage)
    modify fun (s, locals) => (s, { locals with
      events := locals.events ++ [.reconciled reservationId usage wasOpen] })

def completeStep : CallStep := do
  let (s, locals) ← get
  match locals.plan with
  | none => return ()
  | some plan =>
    let wasOut := decide
      (s.routing.capacity.leases.get? plan.lease.operationId = some plan.lease)
    onRouting (Program.raising .raised (RoutedModelPlanner.complete plan))
    modify fun (s, locals) => (s, { locals with
      events := locals.events ++ [.released plan.lease wasOut] })

/-- The `try` and the `finally` block of a model operation. -/
def script : Script ModelCallError Services CallLocals where
  body := [planStep env site, reserveStep env site, invokeStep env site, concludeStep site]
  cleanup := [reconcileStep, completeStep]
  locals := {}

end CallSite

def taskModel (env : ServiceEnvironment) (prepared : PreparedTask) (pack : PackedRequest)
    (work : ModelWork) (context : ExecutionContext) (responseReserveMs : Nat) : CallSite where
  operationId := packId pack
  work := work
  context := context
  responseReserveMs := responseReserveMs
  exhausted exhaustion := .budgetExhausted exhaustion.val.exhaustedScopes
  conclude n invoked := do
    match ← env.parseAndValidate n prepared pack invoked.output context with
    | .error failure => throw (.taskFailed failure)
    | .ok validation =>
      if validation.val.outcome.accepted then return .records validation.val.acceptedRecords
      else throw (.validationFailed validation.val.outcome.reasonCodes
        validation.val.outcome.failedRuleIds)

def model (env : ServiceEnvironment) (index : Nat) (work : ModelWork)
    (context : ExecutionContext) (responseReserveMs : Nat) : CallSite where
  operationId := modelId index work
  work := work
  context := context
  responseReserveMs := responseReserveMs
  exhausted exhaustion := .budgetExhausted exhaustion.val.exhaustedScopes
  conclude n invoked := do
    match invoked.output with
    | .tuple records =>
      let validation ← env.validate n work.val.inputIds records context
      if validation.val.outcome.accepted then return .records validation.val.acceptedRecords
      else throw (.validationFailed validation.val.outcome.reasonCodes
        validation.val.outcome.failedRuleIds)
    | _ => throw (.raised (.typeError "legacy model output must be a tuple of records"))

def invokePacksPass (env : ServiceEnvironment) (pack : PackedRequest) (work : ModelWork)
    (context : ExecutionContext) : CallSite where
  operationId := packId pack
  work := work
  context := context
  responseReserveMs := 0
  exhausted exhaustion := .raised (.bulkTaskFailure ⟨.budgetExhausted, "budget_exhausted",
    ",".intercalate exhaustion.val.exhaustedScopes, budgetExhausted_raisable⟩)
  conclude _ invoked :=
    match invoked.output with
    | .bytes data => .ok (.response pack.val.packIndex "base64-bytes" (.str (env.b64encode data)))
    | output => .ok (.response pack.val.packIndex "json" output)

/-- The model operations that run over the shared components. -/
inductive ModelCall where
  | task (prepared : PreparedTask) (pack : PackedRequest) (work : ModelWork)
    (context : ExecutionContext) (responseReserveMs : Nat)
  | legacy (index : Nat) (work : ModelWork) (context : ExecutionContext) (responseReserveMs : Nat)
  | bulk (pack : PackedRequest) (work : ModelWork) (context : ExecutionContext)

def ModelCall.site (env : ServiceEnvironment) : ModelCall → CallSite
  | .task prepared pack work context responseReserveMs =>
    taskModel env prepared pack work context responseReserveMs
  | .legacy index work context responseReserveMs =>
    model env index work context responseReserveMs
  | .bulk pack work context => invokePacksPass env pack work context

/-- A binding of an execution to its budget scopes, made outside the model operations. -/
structure BindCall where
  context : ExecutionContext
  scopes : List String

/-- The model operations over shared components, under any scheduler: each may be interrupted
while it is in its `try` block, by a cancellation or by any other error. -/
def modelCallMachine (env : ServiceEnvironment) :
    Machine (Scripts.Move ModelCall BindCall ModelCallError) Unit
      (Scripts ModelCallError Services CallLocals) :=
  Scripts.machine (fun call => (call.site env).script env) fun bind s => { s with
    budget := (InMemoryBudgetController.bind bind.context bind.scopes).after s.budget }

end AiRetrieval
