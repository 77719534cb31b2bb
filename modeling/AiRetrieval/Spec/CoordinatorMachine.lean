import AiRetrieval.Library.Histories
import AiRetrieval.Spec.Coordinator

/-! Runs of the bulk coordinator, its store and its broker over one world, with the time
of day beside it. Time passes between the calls; within a call the clock stands, or
raises once where the process dies. -/

namespace AiRetrieval

open AiRetrieval.Action

structure TimedWorld where
  world : World
  now : DateTime

inductive CoordinatorCall where
  | submit (submission : WorkSubmission) (context : ExecutionContext)
  | relayPending
  | receive
  | redeliverUnacknowledged
  | claimDelivery (delivery : BrokerDelivery) (owner : String) (leaseDuration : TimeDelta)
  | checkpoint (claim : WorkClaim) (stage : CheckpointStage) (outcome : String)
      (result : Option Bytes)
  | terminalize (key : Key) (owner : String) (state : TerminalWorkItemState)
      (failureCode failureDetails : Option String) (now : DateTime)
      (resultReference : Option ObjectReference)

inductive CoordinatorReply where
  | item (item : WorkItemRecord)
  | published (count : Nat)
  | delivery (delivery : Option BrokerDelivery)
  | redelivered (count : Nat)
  | claim (claim : WorkClaim)
  | checkpoint (record : CheckpointRecord)
  | terminal (record : TerminalWorkItemRecord)
  | passed

namespace CoordinatorCall

variable (env : Environment)

def receiveNext : Action (Option BrokerDelivery) := do
  let w ← get
  set { w with moment := w.moment + 1 }
  onBroker (NotificationBroker.receive (env.brokerIdentifier w.moment))

def action : CoordinatorCall → Action CoordinatorReply
  | .submit submission context => .item <$> BulkCoordinator.submit env submission context
  | .relayPending => .published <$> BulkCoordinator.relayPending env
  | .receive => .delivery <$> receiveNext env
  | .redeliverUnacknowledged =>
    .redelivered <$> onBroker NotificationBroker.redeliverUnacknowledged
  | .claimDelivery delivery owner leaseDuration =>
    .claim <$> BulkCoordinator.claimDelivery env delivery owner leaseDuration
  | .checkpoint claim stage outcome result =>
    .checkpoint <$> BulkCoordinator.checkpoint env claim stage outcome result
  | .terminalize key owner state code details now ref =>
    .terminal <$> onStore
      (WorkRepository.terminalize key.1 key.2 owner state code details now ref)

end CoordinatorCall

/-- A call, dying at the clock reading `crash` if it gets there, or time passing. -/
inductive CoordinatorInput where
  | call (call : CoordinatorCall) (crash : Option Nat)
  | pass (now : DateTime)

/-- The application at `now`: the clock stands there, and the process dies at the clock
reading `crash`. -/
def Environment.standing (env : Environment) (now : DateTime) (crash : Option Nat) : Environment :=
  { env with clock := fun n => if crash = some n then .error .interrupt else .ok now }

def coordinatorMachine (env : Environment) :
    Machine CoordinatorInput (Except PyError CoordinatorReply) TimedWorld :=
  fun input s => match input with
    | .pass now => (.ok .passed, { s with now := now })
    | .call call crash =>
      let r := (call.action (env.standing s.now crash)).exec s.world
      (r.1, { s with world := r.2 })

abbrev CoordinatorTransition :=
  Transition CoordinatorInput (Except PyError CoordinatorReply) TimedWorld

def TimedWorld.start (now : DateTime) : TimedWorld := ⟨.empty, now⟩

end AiRetrieval
