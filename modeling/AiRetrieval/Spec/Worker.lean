import AiRetrieval.Spec.World

/-! `bulk/worker.py`: the worker that claims an item stage by stage and resumes it
from its checkpoints. -/

namespace AiRetrieval

open AiRetrieval.Action

inductive BulkStageAction where
  | checkpointed
  | terminal
  deriving DecidableEq

structure BulkStageResult where
  action : BulkStageAction
  checkpointStage : Option CheckpointStage := none
  terminal : Option TerminalWorkItemRecord := none
  outcome : String := "processed"
  deriving DecidableEq

abbrev StageProcessor := WorkClaim → ExecutionContext → Action BulkStageResult

structure BulkWorker.Fields where
  leaseDuration : TimeDelta

def BulkWorker.postInit (r : BulkWorker.Fields) : Except PyError Unit :=
  require (0 < r.leaseDuration) (.valueError "lease duration must be positive")

abbrev BulkWorker := Checked BulkWorker.postInit

namespace BulkWorker

section Resume

variable (env : Environment) (processStage : StageProcessor) (worker : BulkWorker) (key : Key)
  (owner : String) (context : ExecutionContext) (maxStages : Option Int)

/-- The loop of `resume`, for at most `fuel` rounds; `none` when they do not suffice. -/
def rounds : Nat → List BulkStageResult → Action (Option (List BulkStageResult))
  | 0, _ => return none
  | fuel + 1, results => do
    if maxStages.all fun limit => decide ((results.length : Int) < limit) then
      let state ← onStore (WorkRepository.resumeState key.1 key.2)
      if state.nextStage = none then return some results
      else
        let now ← ask env.clock
        let claim ← onStore
          (WorkRepository.claim key.1 key.2 owner now worker.val.leaseDuration)
        if claim.acquired then
          let result ← processStage claim context
          if result.action = .terminal then return some (results ++ [result])
          else rounds fuel (results ++ [result])
        else return some results
    else return some results

/-- `resume`, for at most `fuel` rounds of its loop. -/
def resume (fuel : Nat) : Action (Option (List BulkStageResult)) := do
  if maxStages.any fun limit => decide (limit ≤ 0) then
    throw (.valueError "max_stages must be positive")
  else rounds env processStage worker key owner context maxStages fuel []

end Resume

end BulkWorker

end AiRetrieval
