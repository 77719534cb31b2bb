import AiRetrieval.Spec.Coordinator
import AiRetrieval.Spec.Pipeline
import AiRetrieval.Spec.StoreMachine

/-! Runs of bulk workers over one repository: resumed items, single stages, direct
write-back executions and submissions, in any order, with any work on the durable store
between them. -/

namespace AiRetrieval

inductive PipelineCall where
  | submit (submission : WorkSubmission) (context : ExecutionContext)
  | resume (key : Key) (owner : String) (context : ExecutionContext) (maxStages : Option Int)
      (fuel : Nat)
  | processStage (claim : WorkClaim) (context : ExecutionContext)
  | writeBack (command : WriteBackCommand) (context : ExecutionContext)
  | work (call : StoreCall)

inductive PipelineReply where
  | item (item : WorkItemRecord)
  | resumed (results : Option (List BulkStageResult))
  | stage (result : BulkStageResult)
  | writeBack (result : WriteBackExecutionResult)
  | work (reply : StoreReply)

def PipelineCall.action (app : PrototypeApplication) (worker : BulkWorker) :
    PipelineCall → Action PipelineReply
  | .submit submission context =>
    .item <$> BulkCoordinator.submit app.toEnvironment submission context
  | .resume key owner context maxStages fuel =>
    .resumed <$> BulkWorker.resume app.toEnvironment
      (BulkPipeline.processStage app) worker key owner
      context maxStages fuel
  | .processStage claim context => .stage <$> BulkPipeline.processStage app claim context
  | .writeBack command context =>
    .writeBack <$> BatchWriteBackExecutor.execute app.toEnvironment command context
  | .work call => .work <$> Action.onStore call.program

def pipelineMachine (app : PrototypeApplication) (worker : BulkWorker) :
    Machine PipelineCall (Except PyError PipelineReply) World :=
  fun call w => (call.action app worker).exec w

end AiRetrieval
