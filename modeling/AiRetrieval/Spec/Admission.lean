import AiRetrieval.Library.CallLogs
import AiRetrieval.Spec.BulkDispatch
import AiRetrieval.Spec.Failures

/-! `admission/router.py`, with the envelope of `domain/admission.py`, the decision of
`domain/outcomes.py` and the contexts of `control_plane/context.py`. Seconds are exact
microseconds. -/

namespace AiRetrieval

structure CancellationContext.Fields where
  token : String
  timeout : TimeDelta

def CancellationContext.postInit (r : CancellationContext.Fields) : Except PyError Unit := do
  require (blank r.token = false) (.valueError "cancellation token must not be blank")
  require (0 ≤ r.timeout) (.valueError "cancellation timeout must be non-negative")

abbrev CancellationContext := Checked CancellationContext.postInit

structure AdmittedContext extends ExecutionContext where
  cancellation : CancellationContext

structure AdmissionEnvelope.Fields where
  configuration : ConfigurationReference
  interactive : Option InteractiveRequest := none
  bulk : Option BatchJob := none
  discriminator : Option ExecutionPath := none
  interactiveDeadline : Option TimeDelta := none
  cancellationTimeout : TimeDelta := 0

def AdmissionEnvelope.postInit (r : AdmissionEnvelope.Fields) : Except PyError Unit := do
  require (∀ deadline ∈ r.interactiveDeadline, 0 < deadline)
    (.valueError "interactive deadline duration must be positive")
  require (0 ≤ r.cancellationTimeout) (.valueError "cancellation timeout must be non-negative")

abbrev AdmissionEnvelope := Checked AdmissionEnvelope.postInit

inductive OutcomeStatus where
  | accepted
  | rejected
  | completed
  deriving DecidableEq

structure AdmissionDecision.Fields (α : Type) where
  status : OutcomeStatus
  path : Option ExecutionPath
  context : Option AdmittedContext
  outcome : Option α
  failure : Option TypedFailure

def AdmissionDecision.postInit {α : Type} (r : AdmissionDecision.Fields α) :
    Except PyError Unit := do
  require (r.status = .accepted ↔ r.path.isSome ∧ r.context.isSome ∧ r.outcome.isSome)
    (.valueError "accepted decisions require path, context, and outcome")
  require (¬(r.status = .accepted ↔ r.failure.isSome))
    (.valueError "only rejected decisions require a failure")

abbrev AdmissionDecision (α : Type) := Checked (AdmissionDecision.postInit (α := α))

def discriminatePath (envelope : AdmissionEnvelope) : Except TypedFailure ExecutionPath :=
  let discriminator := envelope.val.discriminator
  match envelope.val.interactive.isSome, envelope.val.bulk.isSome with
  | true, true =>
    match discriminator with
    | some path => .ok path
    | none => .error ⟨.ambiguousPath, "both path indicators require one discriminator", false⟩
  | true, false =>
    if discriminator = some .bulk then
      .error ⟨.invalidDiscriminator, "bulk discriminator has no bulk payload", false⟩
    else .ok .interactive
  | false, true =>
    if discriminator = some .interactive then
      .error ⟨.invalidDiscriminator, "interactive discriminator has no interactive payload", false⟩
    else .ok .bulk
  | false, false =>
    .error ⟨.missingPath, "one interactive or bulk payload is required", false⟩

/-- What the router is constructed with, the default factory's clock and identifiers among it.
The binder answers the failure of a `ConfigurationBindingError`; a dispatcher may answer none. -/
structure AdmissionPorts (σ α : Type) where
  bind : ConfigurationReference → Program PyError σ (Except TypedFailure ExecutionConfiguration)
  clock : Program PyError σ DateTime
  identifier : Program PyError σ String
  interactive : InteractiveRequest → AdmittedContext → Program PyError σ (Option α)
  bulk : BatchJob → AdmittedContext → Program PyError σ (Option α)

section Router

variable {σ α : Type} (ports : AdmissionPorts σ α)

/-- `accepted_at + timedelta(seconds=deadline_seconds)`, where there is a deadline. -/
def deadlineFrom (acceptedAt : DateTime) (deadline : Option TimeDelta) :
    Except PyError (Option DateTime) :=
  match deadline with
  | none => .ok none
  | some seconds => some <$> acceptedAt.plus seconds

def createContext (path : ExecutionPath) (configuration : ExecutionConfiguration)
    (deadline : Option TimeDelta) (cancellationTimeout : TimeDelta) :
    Program PyError σ AdmittedContext := do
  let acceptedAt ← ports.clock
  let deadline ← liftM (deadlineFrom acceptedAt deadline)
  let executionId ← ports.identifier
  let executionId ← liftM (Checked.make ExecutionId.postInit executionId)
  let correlationId ← ports.identifier
  let correlationId ← liftM (Checked.make CorrelationId.postInit correlationId)
  let timing ← liftM (Checked.make DeadlineContext.postInit ⟨acceptedAt, deadline⟩)
  let token ← ports.identifier
  let cancellation ← liftM (Checked.make CancellationContext.postInit ⟨token, cancellationTimeout⟩)
  return { executionId, correlationId, path, configuration, timing, cancellation }

namespace AdmissionRouter

def rejected (failure : TypedFailure) : AdmissionDecision α :=
  ⟨⟨.rejected, none, none, none, some failure⟩, rfl⟩

/-- The dispatch to the resolved path; its payload is there, or the assertion fails. -/
def dispatch (envelope : AdmissionEnvelope) (path : ExecutionPath) (context : AdmittedContext) :
    Program PyError σ (Option α) :=
  match path, envelope.val.interactive, envelope.val.bulk with
  | .interactive, some request, _ => ports.interactive request context
  | .bulk, _, some job => ports.bulk job context
  | _, _, _ => throw (.raised .assertionError "")

def admitEnvelope (envelope : AdmissionEnvelope) : Program PyError σ (AdmissionDecision α) :=
  match discriminatePath envelope with
  | .error failure => return rejected failure
  | .ok path => do
    match ← ports.bind envelope.val.configuration with
    | .error failure => return rejected failure
    | .ok configuration =>
      let deadline := if path = .interactive then envelope.val.interactiveDeadline else none
      let context ← createContext ports path configuration deadline envelope.val.cancellationTimeout
      let outcome ← dispatch ports envelope path context
      liftM (Checked.make AdmissionDecision.postInit
        ⟨.accepted, some path, some context, outcome, none⟩)

end AdmissionRouter

def admissionMachine : Machine AdmissionEnvelope (Except PyError (AdmissionDecision α)) σ :=
  fun envelope s => (AdmissionRouter.admitEnvelope ports envelope).exec s

end Router

end AiRetrieval
