import AiRetrieval.Spec.Router

/-! The queue of `ModelRouter` of `model_routing/router.py`, and `schedule_next` over its
three orders. -/

namespace AiRetrieval

inductive SchedulingOrder where
  | fifo
  | interactiveFirst
  | tenantRoundRobin
  deriving DecidableEq

structure QueuedOperation where
  sequence : Nat
  operation : ModelOperation
  candidates : List ModelCandidate
  policy : Option RoutingPolicy
  deriving DecidableEq

def QueuedOperation.tenant (item : QueuedOperation) : String := item.operation.val.tenantId

/-- What a router with a queue is made with. -/
structure Scheduler where
  env : RoutingEnvironment
  /-- `repr` of a string. -/
  repr : String → String
  order : SchedulingOrder

structure SchedulerState where
  routing : RoutingState
  queue : List QueuedOperation
  nextSequence : Nat
  lastTenant : Option String

/-- A router whose queue is empty. -/
def SchedulerState.of (limits : Dict CapacityScope CapacityLimit) : SchedulerState :=
  ⟨.of limits, [], 0, none⟩

def SchedulerState.tenants (s : SchedulerState) : List String := s.queue.map (·.tenant)

abbrev Scheduling := Program PyError SchedulerState

/-- One pass after another over the groups, each taking the head of every group, until
nothing is left; `fuel` bounds the passes. -/
def inRounds {α : Type} : Nat → List (List α) → List α
  | 0, _ => []
  | fuel + 1, groups =>
    if groups.any (!·.isEmpty) then
      groups.filterMap List.head? ++ inRounds fuel (groups.map List.tail)
    else []

namespace Scheduler

variable (router : Scheduler)

def routed {α : Type} (x : Routing α) : Scheduling α :=
  Program.zoom (·.routing) (fun s routing => { s with routing := routing }) x

def enqueue (operation : ModelOperation) (candidates : List ModelCandidate)
    (policy : Option RoutingPolicy) : Scheduling Unit := do
  let s ← get
  if s.queue.any fun item => item.operation.val.operationId = operation.val.operationId then
    throw (.valueError
      ("operation " ++ router.repr operation.val.operationId ++ " is already queued"))
  modify fun s => { s with
    queue := s.queue ++ [⟨s.nextSequence, operation, candidates, policy⟩]
    nextSequence := s.nextSequence + 1 }

/-- `sorted(self._queue, key=lambda item: item.sequence)`. -/
def queued (s : SchedulerState) : List QueuedOperation :=
  s.queue.insertionSort fun a b => a.sequence ≤ b.sequence

/-- The sort key `(path is not INTERACTIVE, sequence)`, compared. -/
def interactiveBefore (a b : QueuedOperation) : Prop :=
  a.operation.val.path = .interactive ∧ b.operation.val.path ≠ .interactive ∨
    (a.operation.val.path = .interactive ↔ b.operation.val.path = .interactive) ∧
      a.sequence ≤ b.sequence

instance : DecidableRel interactiveBefore :=
  fun _ _ => inferInstanceAs (Decidable (_ ∧ _ ∨ (_ ↔ _) ∧ _))

def tenantOrder (s : SchedulerState) : List String :=
  let order := ((queued s).map (·.tenant)).eraseDups
  match s.lastTenant with
  | none => order
  | some last =>
    if last ∈ order then
      let pivot := order.idxOf last + 1
      order.drop pivot ++ order.take pivot
    else order

def perTenant (s : SchedulerState) : List (List QueuedOperation) :=
  (tenantOrder s).map fun tenant => (queued s).filter fun item => item.tenant = tenant

def orderedQueue (s : SchedulerState) : List QueuedOperation :=
  match router.order with
  | .fifo => queued s
  | .interactiveFirst => (queued s).insertionSort interactiveBefore
  | .tenantRoundRobin => inRounds (queued s).length (perTenant s)

/-- The loop of `schedule_next`. -/
def scheduleFrom (now : DateTime) : List QueuedOperation → Scheduling (Option ModelAdmission)
  | [] => return none
  | item :: rest => do
    let decision ← routed
      (ModelRouter.admitOperation router.env item.operation item.candidates item.policy now)
    match decision with
    | .admitted candidate lease eligibility =>
      modify fun s => { s with
        queue := s.queue.erase item
        lastTenant := some item.tenant }
      return some (.admitted candidate lease eligibility)
    | .failed _ _ => scheduleFrom now rest

def scheduleNext (now : DateTime) : Scheduling (Option ModelAdmission) := do
  let s ← get
  scheduleFrom router now (router.orderedQueue s)

end Scheduler

inductive SchedulerCall where
  | enqueue (operation : ModelOperation) (candidates : List ModelCandidate)
    (policy : Option RoutingPolicy)
  | scheduleNext (now : DateTime)
  | admission (operation : ModelOperation) (candidates : List ModelCandidate)
    (policy : Option RoutingPolicy) (now : DateTime)
  | complete (lease : CapacityLease)

inductive SchedulerReply where
  | enqueued (result : Except PyError Unit)
  | scheduled (result : Except PyError (Option ModelAdmission))
  | admission (result : Except PyError ModelAdmission)
  | completed (result : Except PyError Bool)

def schedulerMachine (router : Scheduler) : Machine SchedulerCall SchedulerReply SchedulerState :=
  fun call s => match call with
  | .enqueue operation candidates policy =>
    let (result, after) := (router.enqueue operation candidates policy).exec s
    (.enqueued result, after)
  | .scheduleNext now =>
    let (result, after) := (router.scheduleNext now).exec s
    (.scheduled result, after)
  | .admission operation candidates policy now =>
    let (result, after) := (Scheduler.routed
      (ModelRouter.admitOperation router.env operation candidates policy now)).exec s
    (.admission result, after)
  | .complete lease =>
    let (result, after) := (Scheduler.routed (ModelRouter.complete lease)).exec s
    (.completed result, after)

abbrev SchedulerTransition := Transition SchedulerCall SchedulerReply SchedulerState

end AiRetrieval
