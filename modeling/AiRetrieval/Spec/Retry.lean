import AiRetrieval.Library.Dictionaries
import AiRetrieval.Library.Histories
import AiRetrieval.Spec.Router

/-! `model_routing/retry.py`: the transitions of a model call whose attempts fail, and the row
of them as a machine. -/

namespace AiRetrieval

structure RetryPolicy.Fields where
  retryableFailureClasses : FrozenSet
  maxAttempts : Int
  delayScheduleMs : List Int
  fallbackModelIds : List String := []
  deriving DecidableEq

def RetryPolicy.postInit (r : RetryPolicy.Fields) : Except PyError Unit := do
  require (1 ≤ r.maxAttempts) (.valueError "max_attempts must be at least one")
  require (∀ delay ∈ r.delayScheduleMs, 0 ≤ delay)
    (.valueError "retry delays must be non-negative")
  require (∀ modelId ∈ r.fallbackModelIds, blank modelId = false)
    (.valueError "fallback model identifiers must not be blank")

abbrev RetryPolicy := Checked RetryPolicy.postInit

structure AttemptState.Fields where
  currentModelId : String
  attemptsCompleted : Int
  deriving DecidableEq

def AttemptState.postInit (r : AttemptState.Fields) : Except PyError Unit :=
  require (blank r.currentModelId = false ∧ 1 ≤ r.attemptsCompleted)
    (.valueError "attempt state requires a model and at least one completed attempt")

abbrev AttemptState := Checked AttemptState.postInit

structure RetryGateSnapshot where
  budgetAvailable : Bool
  capacityAvailable : Bool
  modelEligible : Bool
  deriving DecidableEq

inductive RetryTransitionKind where
  | retry
  | fallback
  | terminal
  deriving DecidableEq

inductive RetryTerminalReason where
  | nonretryableFailure
  | attemptsExhausted
  | delayNotConfigured
  | modelIneligible
  | budgetIneligible
  | capacityUnavailable
  | deadlineIneligible
  deriving DecidableEq

structure RetryTransition where
  kind : RetryTransitionKind
  modelId : Option String := none
  delayMs : Option Int := none
  terminalReason : Option RetryTerminalReason := none
  deriving DecidableEq

def RetryTransition.invokesModel (t : RetryTransition) : Bool := decide (t.kind ≠ .terminal)

namespace RetryController

def terminal (reason : RetryTerminalReason) : RetryTransition :=
  { kind := .terminal, terminalReason := some reason }

/-- The attempt after the delay would end after the deadline. -/
def late (operation : ModelOperation) (candidate : ModelCandidate) (delayMs : Int)
    (now : DateTime) : Except PyError Bool := do
  let delta ← TimeDelta.ofMilliseconds
    (delayMs.toNat + candidate.val.predictedLatencyMs + operation.val.completionReserveMs)
  let completion ← now.plus delta
  match operation.val.deadline with
  | none => return false
  | some deadline => deadline.before completion

def nextTransition (operation : ModelOperation) (state : AttemptState) (failureClass : String)
    (policy : RetryPolicy) (candidates : Dict String ModelCandidate) (gates : RetryGateSnapshot)
    (now : DateTime) : Except PyError RetryTransition :=
  let retryIndex := (state.val.attemptsCompleted - 1).toNat
  if failureClass ∉ policy.val.retryableFailureClasses.items then
    return terminal .nonretryableFailure
  else if policy.val.maxAttempts ≤ state.val.attemptsCompleted then
    return terminal .attemptsExhausted
  else
    match policy.val.delayScheduleMs[retryIndex]? with
    | none => return terminal .delayNotConfigured
    | some delayMs =>
      let modelId := policy.val.fallbackModelIds[retryIndex]?.getD state.val.currentModelId
      match candidates.get? modelId with
      | none => return terminal .modelIneligible
      | some candidate =>
        if ¬gates.modelEligible then return terminal .modelIneligible
        else if ¬gates.budgetAvailable then return terminal .budgetIneligible
        else if ¬gates.capacityAvailable then return terminal .capacityUnavailable
        else do
          if ← late operation candidate delayMs now then
            return terminal .deadlineIneligible
          else
            let kind := if modelId = state.val.currentModelId then .retry else .fallback
            return ⟨kind, some modelId, some delayMs, none⟩

end RetryController

structure FailedAttempt where
  failureClass : String
  candidates : Dict String ModelCandidate
  gates : RetryGateSnapshot
  now : DateTime

/-- The state once the attempt a transition asks for has failed as well; none after a terminal
transition. -/
def RetryTransition.followed (t : RetryTransition) (state : AttemptState) : Option AttemptState :=
  if t.invokesModel then
    t.modelId.bind fun modelId => (Checked.make AttemptState.postInit
      ⟨modelId, state.val.attemptsCompleted + 1⟩).toOption
  else none

/-- A model call whose attempts fail one after another. -/
def retryMachine (operation : ModelOperation) (policy : RetryPolicy) :
    Machine FailedAttempt (Except PyError (Option RetryTransition)) (Option AttemptState) :=
  fun failed state? => match state? with
    | none => (.ok none, none)
    | some state =>
      match RetryController.nextTransition operation state failed.failureClass policy
        failed.candidates failed.gates failed.now with
      | .error e => (.error e, none)
      | .ok t => (.ok (some t), t.followed state)

end AiRetrieval
