import AiRetrieval.Library.Programs
import AiRetrieval.Spec.Capacity

/-! `ModelRouter.admit` of `model_routing/router.py` and `RoutedModelPlanner` of
`interactive/integration.py`. The candidate catalog, the budget's availability and the clock
answer like the rest of the outside. The router's queue is apart: the planner never uses it. -/

namespace AiRetrieval

/-- What the planner and its router ask, the float function of the standard library and the
local time zone. -/
structure RoutingEnvironment where
  /-- `float(value)`. -/
  float : FrozenValue → Except PyError PyFloat
  /-- `catalog.candidates_for`. -/
  candidates : Nat → ModelWork → ExecutionContext → Except PyError (List ModelCandidate)
  /-- `catalog.policy_for`. -/
  policy : Nat → ExecutionContext → Except PyError (Option RoutingPolicy)
  clock : Nat → Except PyError DateTime
  zone : LocalZone
  /-- `budget_availability.is_available`. -/
  isAvailable : Nat → ModelOperation → ModelCandidate → Except PyError Bool

/-- A router over its capacity table, with the number of answers the outside has given. -/
structure RoutingState where
  capacity : HierarchicalCapacity
  moment : Nat

def RoutingState.of (limits : Dict CapacityScope CapacityLimit) : RoutingState := ⟨.of limits, 0⟩

inductive AdmissionFailure where
  | noEligibleModel
  | deadlineIneligible
  | capacityUnavailable
  deriving DecidableEq

def AdmissionFailure.value : AdmissionFailure → String
  | .noEligibleModel => "no_eligible_model"
  | .deadlineIneligible => "deadline_ineligible"
  | .capacityUnavailable => "capacity_unavailable"

inductive ModelAdmission where
  | admitted (candidate : ModelCandidate) (lease : CapacityLease)
    (eligibility : List CandidateEligibility)
  | failed (failure : AdmissionFailure) (eligibility : List CandidateEligibility)
  deriving DecidableEq

/-- What `plan` raises: its own `ModelPlanningError`, or what it was raised by the outside. -/
inductive PlanningError where
  | modelPlanningError (reason : AdmissionFailure)
  | raised (error : PyError)
  deriving DecidableEq

/-- `timedelta(milliseconds=milliseconds)`. -/
def TimeDelta.ofMilliseconds (milliseconds : Nat) : Except PyError TimeDelta :=
  let days := milliseconds / 86400000
  if days ≤ 999999999 then .ok (milliseconds * 1000 : Nat)
  else if days < 2147483648 then
    .error (.raised .overflowError
      ("days=" ++ toString days ++ "; must have magnitude <= 999999999"))
  else .error (.raised .overflowError "Python int too large to convert to C int")

abbrev Routing := Program PyError RoutingState

namespace ModelRouter

/-- The next answer of the outside. -/
def ask {α : Type} (answer : Nat → Except PyError α) : Routing α := do
  let s ← get
  set { s with moment := s.moment + 1 }
  answer s.moment

/-- The sort key `(cost_estimate, -priority, model_id)`, compared. -/
def precedes (a b : ModelCandidate) : Prop :=
  a.val.costEstimate < b.val.costEstimate ∨ a.val.costEstimate = b.val.costEstimate ∧
    (b.val.priority < a.val.priority ∨ a.val.priority = b.val.priority ∧
      a.val.modelId ≤ b.val.modelId)

instance : DecidableRel precedes := fun _ _ => inferInstanceAs (Decidable (_ ∨ _ ∧ (_ ∨ _ ∧ _)))

variable (env : RoutingEnvironment)

def late (operation : ModelOperation) (candidate : ModelCandidate) (now : DateTime) :
    Except PyError Bool := do
  let delta ← TimeDelta.ofMilliseconds
    (candidate.val.predictedLatencyMs + operation.val.completionReserveMs)
  let predictedCompletion ← now.plus delta
  match operation.val.deadline with
  | none => return false
  | some deadline => deadline.before predictedCompletion

def reasons (operation : ModelOperation) (candidate : ModelCandidate)
    (policy : Option RoutingPolicy) (now : DateTime) : Routing (List EligibilityReason) := do
  let reason (holds : Bool) (value : EligibilityReason) := if holds then [value] else []
  match policy with
  | none => return [.policyUnavailable]
  | some policy =>
    if policy.val.available = false then return [.policyUnavailable]
    else if policy.val.valid = false then return [.policyInvalid]
    else if policy.val.decision ≠ .allow then return [.policyDenied]
    else
      let allows (values : List String) (allowed : FrozenSet) :=
        values.all fun value => value ∈ allowed.items
      let data := operation.val.dataClasses
      let decided :=
        reason (candidate.val.providerId ∉ policy.val.allowedProviderIds.items) .providerDenied ++
        reason (!allows data policy.val.allowedDataClasses ||
          !allows data candidate.val.allowedDataClasses) .dataPolicyDenied ++
        reason (!allows operation.val.work.val.requiredCapabilities.items
          candidate.val.capabilities) .capabilityMissing ++
        reason (candidate.val.qualityScore <
          max operation.val.minimumQuality policy.val.minimumQuality) .qualityIneligible
      let available ← ask fun n => env.isAvailable n operation candidate
      let late ← late operation candidate now
      return decided ++ reason (!available) .budgetIneligible ++ reason late .deadlineIneligible

def evaluate (operation : ModelOperation) (candidates : List ModelCandidate)
    (policy : Option RoutingPolicy) (now : DateTime) : Routing (List CandidateEligibility) :=
  candidates.mapM fun candidate => do
    return ⟨candidate, ← reasons env operation candidate policy now⟩

def eligible (eligibility : List CandidateEligibility) : List ModelCandidate :=
  ((eligibility.filter (·.eligible)).map (·.candidate)).insertionSort precedes

def select (operation : ModelOperation) (eligibility : List CandidateEligibility)
    (now : DateTime) : Routing ModelAdmission := do
  if eligible eligibility = [] then
    let reasons := eligibility.flatMap (·.reasons)
    if reasons ≠ [] ∧ ∀ reason ∈ reasons, reason = .deadlineIneligible then
      return .failed .deadlineIneligible eligibility
    else return .failed .noEligibleModel eligibility
  else
    let s ← get
    let (result, capacity) :=
      s.capacity.acquireFirst env.zone operation (eligible eligibility) now
    set { s with capacity := capacity }
    let admission ← result
    match admission with
    | none => return .failed .capacityUnavailable eligibility
    | some admission => return .admitted admission.candidate admission.lease eligibility

def admitOperation (operation : ModelOperation) (candidates : List ModelCandidate)
    (policy : Option RoutingPolicy) (now : DateTime) : Routing ModelAdmission := do
  let eligibility ← evaluate env operation candidates policy now
  select env operation eligibility now

def complete (lease : CapacityLease) : Routing Bool := do
  let s ← get
  let (found, capacity) := s.capacity.release lease
  set { s with capacity := capacity }
  return found

end ModelRouter

namespace RoutedModelPlanner

def interactiveConfiguration (context : ExecutionContext) : FrozenMapping :=
  match FrozenMapping.get context.configuration.content "interactive" with
  | some (.mapping items) => items
  | _ => []

def configurationValue (context : ExecutionContext) (key : String) (default : FrozenValue) :
    FrozenValue :=
  (FrozenMapping.get (interactiveConfiguration context) key).getD default

def configurationString (context : ExecutionContext) (key default : String) : String :=
  match configurationValue context key (.str default) with
  | .str value => if blank value then default else value
  | _ => default

def configurationInt (context : ExecutionContext) (key : String) (default : Nat) : Nat :=
  match configurationValue context key (.int default) with
  | .int value => if 0 ≤ value then value.toNat else default
  | _ => default

def configurationSequence (context : ExecutionContext) (key : String) : List String :=
  let texts (items : List FrozenValue) := items.filterMap fun item => match item with
    | .str value => some value
    | _ => none
  match configurationValue context key (.tuple []) with
  | .tuple items => texts items
  | .frozenset items => texts items
  | _ => []

/-- The quality a float stands for; a value out of range stands for those not finite. -/
def quality : PyFloat → Rat
  | .finite negative magnitude => if negative then -magnitude else magnitude
  | _ => -1

def inputTokens (work : ModelWork) (context : ExecutionContext) : Nat :=
  work.val.estimatedInputTokens.getD (configurationInt context "estimated_model_tokens" 0)

def outputTokens (work : ModelWork) (context : ExecutionContext) : Nat :=
  work.val.estimatedOutputTokens.getD (configurationInt context "estimated_output_tokens" 0)

def routingTokens (work : ModelWork) (context : ExecutionContext) : Nat :=
  if work.val.estimatedInputTokens.isSome ∨ work.val.estimatedOutputTokens.isSome then
    inputTokens work context + outputTokens work context
  else configurationInt context "estimated_model_tokens" 0

variable (env : RoutingEnvironment)

/-- The operation a plan is asked for. -/
def operationFor (operationId : String) (work : ModelWork) (context : ExecutionContext)
    (responseReserveMs : Nat) : Except PyError ModelOperation := do
  let minimumQuality ← env.float
    (configurationValue context "minimum_model_quality" (.float (.finite false 0)))
  Checked.make ModelOperation.postInit {
    operationId := operationId
    tenantId := configurationString context "tenant_id" "interactive"
    scopeId := context.executionId.val
    path := context.path
    work := work
    estimatedTotalTokens := routingTokens work context
    minimumQuality := quality minimumQuality
    dataClasses := configurationSequence context "data_classes"
    deadline := context.timing.val.deadline
    completionReserveMs := responseReserveMs }

/-- What `plan` asks its router to admit. -/
structure Request where
  operation : ModelOperation
  candidates : List ModelCandidate
  policy : Option RoutingPolicy
  now : DateTime

/-- The arguments of `admit`, in the order they are computed. -/
def request (operationId : String) (work : ModelWork) (context : ExecutionContext)
    (responseReserveMs : Nat) : Routing Request := do
  let operation ← operationFor env operationId work context responseReserveMs
  let candidates ← ModelRouter.ask fun n => env.candidates n work context
  let policy ← ModelRouter.ask fun n => env.policy n context
  let now ← ModelRouter.ask env.clock
  return ⟨operation, candidates, policy, now⟩

def plan (operationId : String) (work : ModelWork) (context : ExecutionContext)
    (responseReserveMs : Nat) : Program PlanningError RoutingState ModelPlan := do
  let asked ← Program.raising .raised (request env operationId work context responseReserveMs)
  let admission ← Program.raising .raised
    (ModelRouter.admitOperation env asked.operation asked.candidates asked.policy asked.now)
  match admission with
  | .failed failure _ => throw (.modelPlanningError failure)
  | .admitted candidate lease _ => return {
      operation := asked.operation
      candidate := candidate
      lease := lease
      estimate :=
        ⟨candidate.val.costEstimate, inputTokens work context, outputTokens work context⟩ }

def complete (plan : ModelPlan) : Routing Unit := do
  let _ ← ModelRouter.complete plan.lease
  return ()

end RoutedModelPlanner

/-- `_pack_id`, also written out in `_invoke_packs`. -/
def packId (pack : PackedRequest) : String :=
  "task:" ++ pack.val.function.value ++ ":" ++ pack.val.definitionVersion ++ ":pack:" ++
    toString pack.val.packIndex

def modelId (index : Nat) (work : ModelWork) : String :=
  "model:" ++ toString index ++ ":" ++ work.val.taskType

inductive PlannerCall where
  | plan (operationId : String) (work : ModelWork) (context : ExecutionContext)
    (responseReserveMs : Nat)
  | complete (plan : ModelPlan)

inductive PlannerReply where
  | planned (result : Except PlanningError ModelPlan)
  | completed (result : Except PyError Unit)
  deriving DecidableEq

/-- The calls of all executions that share the router, in the order they take effect; a
`plan` takes effect where it acquires. -/
def plannerMachine (env : RoutingEnvironment) : Machine PlannerCall PlannerReply RoutingState :=
  fun call s => match call with
  | .plan operationId work context responseReserveMs =>
    let (result, after) :=
      (RoutedModelPlanner.plan env operationId work context responseReserveMs).exec s
    (.planned result, after)
  | .complete plan =>
    let (result, after) := (RoutedModelPlanner.complete plan).exec s
    (.completed result, after)

abbrev PlannerTransition := Transition PlannerCall PlannerReply RoutingState

end AiRetrieval
