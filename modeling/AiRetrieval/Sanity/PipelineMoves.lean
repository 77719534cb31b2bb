import AiRetrieval.Sanity.WorldMoves
import AiRetrieval.Spec.Pipeline

/-! How the stages of the pipeline move the world: until it checkpoints, writes back or
terminalizes, a stage only reads, stores objects, asks the outside and calls the model. -/

namespace AiRetrieval

open Program AiRetrieval.Action

/-- The model was invoked for the item under `key` alone, with what was recorded for it. -/
structure Invokes (key : Key) (w w' : World) : Prop where
  rest : w' = { w with
    objects := w'.objects
    moment := w'.moment
    modelCalls := w'.modelCalls }
  calls : ∀ call ∈ w'.modelCalls, call ∈ w.modelCalls ∨ call = (key, w.store.recordedStages key)

instance (key : Key) : IsPreorder World (Invokes key) where
  refl _ := ⟨rfl, fun _ h => Or.inl h⟩
  trans a b c h h' := by
    have hstore : b.store = a.store := by rw [h.rest]
    refine ⟨by rw [h'.rest, h.rest], fun call hc => ?_⟩
    rcases h'.calls call hc with hb | hb
    · exact h.calls call hb
    · exact Or.inr (by rw [hb, hstore])

theorem Quiet.invokes {key : Key} {w w' : World} (h : Quiet w w') : Invokes key w w' :=
  ⟨by rw [h], fun call hc => Or.inl (by rw [h] at hc; exact hc)⟩

namespace BulkPipeline

variable {app : PrototypeApplication}

section Quiet

theorem getObject_quiet (reference : Option ObjectReference) :
    Moves Quiet (getObject app reference) := by
  unfold getObject
  refine moves_bind moves_get fun w => ?_
  split
  · exact moves_throw _
  · exact moves_lift _

theorem loadJson_quiet (reference : Option ObjectReference) :
    Moves Quiet (loadJson app reference) :=
  moves_bind (getObject_quiet reference) fun _ => moves_lift _

theorem isTask_quiet (reference : ObjectReference) : Moves Quiet (isTask app reference) := by
  unfold isTask
  refine moves_handling ?_ fun error y hy => ?_
  · exact moves_bind (loadJson_quiet _) fun _ => moves_bind (moves_lift _) fun _ => moves_pure _
  · split at hy <;> cases hy <;> exact moves_pure false

theorem putValue_quiet (value : PyValue) : Moves Quiet (putValue app value) :=
  moves_bind (moves_lift _) fun _ => onObjects_quiet _

theorem runtimePrepare_quiet (invocation : TaskInvocation) (context : ExecutionContext) :
    Moves Quiet (runtimePrepare app invocation context) := fun _ => rfl

theorem prepareTask_quiet (claim : WorkClaim) (context : ExecutionContext) :
    Moves Quiet (prepareTask app claim context) :=
  moves_bind (loadJson_quiet _) fun _ => moves_bind (moves_lift _) fun _ =>
    moves_bind (runtimePrepare_quiet _ _) fun _ => moves_lift _

theorem resolveObject_quiet (reference : PyValue) : Moves Quiet (resolveObject app reference) := by
  unfold resolveObject
  refine moves_bind moves_get fun w => ?_
  split
  · exact moves_lift _
  · exact moves_bind (moves_lift _) fun _ => moves_bind (moves_lift _) fun _ => moves_throw _

theorem loadPack_quiet (function : TaskFunction) (definition : TaskDefinition) (item : PyValue) :
    Moves Quiet (loadPack app function definition item) :=
  moves_bind (moves_lift _) fun _ => moves_bind (resolveObject_quiet _) fun _ =>
    moves_bind (getObject_quiet _) fun _ => moves_lift _

theorem loadPrepared_quiet (reference : Option ObjectReference) :
    Moves Quiet (loadPrepared app reference) :=
  moves_bind (loadJson_quiet _) fun _ => moves_bind (moves_lift _) fun _ =>
    moves_bind (moves_mapM fun item _ => loadPack_quiet _ _ item) fun _ => moves_lift _

theorem preparedFromAcceptedCheckpoint_quiet (claim : WorkClaim) :
    Moves Quiet (preparedFromAcceptedCheckpoint app claim) := by
  unfold preparedFromAcceptedCheckpoint
  refine moves_bind moves_get fun w => ?_
  dsimp only
  split
  · exact moves_throw _
  · exact loadPrepared_quiet _

theorem validateResponses_quiet (prepared : PreparedTask) (parsed : PyValue)
    (context : ExecutionContext) (acceptedFlat : Bool) :
    Moves Quiet (validateResponses app prepared parsed context acceptedFlat) :=
  moves_bind (moves_lift _) fun _ => ask_quiet _

theorem validateLegacy_quiet (claim : WorkClaim) (context : ExecutionContext) :
    Moves Quiet (validateLegacy app claim context) :=
  moves_bind (getObject_quiet _) fun _ => moves_bind (moves_lift _) fun _ => ask_quiet _

end Quiet

section Models

variable {key : Key} {context : ExecutionContext}

theorem ask_invokes {α : Type} (answer : Nat → Except PyError α) :
    Moves (Invokes key) (ask answer) := moves_mono (ask_quiet answer) fun _ _ h => h.invokes

theorem invokeModel_invokes (plan : ModelPlan) :
    Moves (Invokes key) (invokeModel app key plan context) := by
  intro w
  refine ⟨rfl, fun call hc => ?_⟩
  simpa using List.mem_append.1 hc

theorem finallyDo_moves {R : World → World → Prop} [IsPreorder World R] {α : Type}
    {ended : Except PyError α} {block : Action Unit} (h : Moves R block) :
    Moves R (finallyDo ended block) := by
  unfold finallyDo
  split
  · exact moves_throw _
  · exact moves_bind h fun _ => moves_lift _

theorem invokePack_invokes (pack : PackedRequest) (work : ModelWork) :
    Moves (Invokes key) (invokePack app key context pack work) := by
  unfold invokePack
  refine moves_bind (ask_invokes _) fun plan =>
    moves_bind (moves_attempt (ask_invokes _)) fun decision => ?_
  split
  · exact finallyDo_moves (ask_invokes _)
  · exact finallyDo_moves (ask_invokes _)
  · refine moves_bind (moves_attempt (invokeModel_invokes plan)) fun invoked => ?_
    exact finallyDo_moves (moves_bind (ask_invokes _) fun _ => ask_invokes _)

theorem invokePacks_invokes (prepared : PreparedTask) :
    Moves (Invokes key) (invokePacks app key context prepared) :=
  moves_bind (moves_mapM fun _ _ => invokePack_invokes _ _) fun _ => moves_pure _

end Models

section Stages

variable {R : World → World → Prop}

/-- A relation the parts of a stage move along. -/
structure StageMoves (app : PrototypeApplication) (R : World → World → Prop) : Prop where
  quiet : ∀ w w', Quiet w w' → R w w'
  statuses : ∀ w statuses, R w { w with statuses := statuses }
  checkpoint : ∀ jobId key owner stage outcome now ref,
    Moves R (onStore (WorkRepository.checkpoint jobId key owner stage outcome now ref))
  execute : ∀ claim result,
    Moves R (BulkWorkExecutor.executeClaim app.toEnvironment claim fun _ => pure result)
  writeBack : ∀ command context,
    Moves R (BatchWriteBackExecutor.execute app.toEnvironment command context)

theorem StageMoves.ofQuiet (h : StageMoves app R) {α : Type} {x : Action α} (hx : Moves Quiet x) :
    Moves R x := moves_mono hx h.quiet

variable [IsPreorder World R]

theorem checkpointOwned_moves (h : StageMoves app R) (claim : WorkClaim) (stage : CheckpointStage)
    (outcome : String) (now : DateTime) (reference : Option ObjectReference) :
    Moves R (checkpointOwned claim stage outcome now reference) := by
  unfold checkpointOwned
  dsimp only
  split
  · exact h.checkpoint _ _ _ _ _ _ _
  · exact moves_bind moves_get fun _ => moves_bind (moves_lift _) fun _ => moves_throw _

theorem checkpoint_moves (h : StageMoves app R) (claim : WorkClaim) (stage : CheckpointStage)
    (outcome : String) (reference : Option ObjectReference) :
    Moves R (checkpoint app claim stage outcome reference) :=
  moves_bind (h.ofQuiet (ask_quiet _)) fun _ =>
    moves_bind (checkpointOwned_moves h _ _ _ _ _) fun _ => moves_pure _

theorem terminal_moves (h : StageMoves app R) (claim : WorkClaim) (state : TerminalWorkItemState)
    (code details outcome : String) : Moves R (terminal app claim state code details outcome) :=
  moves_bind (moves_lift _) fun _ => moves_bind (h.execute _ _) fun _ => moves_pure _

theorem succeed_moves (h : StageMoves app R) (claim : WorkClaim)
    (outcome : WriteBackExecutionResult) : Moves R (succeed app claim outcome) :=
  moves_bind (h.ofQuiet (getObject_quiet _)) fun _ => moves_bind (moves_lift _) fun _ =>
    moves_bind (h.execute _ _) fun _ => moves_pure _

theorem afterWriteBack_moves (h : StageMoves app R) (claim : WorkClaim)
    (outcome : WriteBackExecutionResult) : Moves R (afterWriteBack app claim outcome) := by
  unfold afterWriteBack
  split
  · exact moves_pure _
  · exact moves_pure _
  · exact succeed_moves h claim outcome
  · exact terminal_moves h _ _ _ _ _

theorem writeAccepted_moves (h : StageMoves app R) (claim : WorkClaim) (context : ExecutionContext)
    (validation : ValidationResult) (function : Option TaskFunction) :
    Moves R (writeAccepted app claim context validation function) :=
  moves_bind (moves_lift _) fun _ => moves_bind (h.writeBack _ _) fun _ =>
    moves_bind (moves_modify fun w => h.statuses w _) fun _ => afterWriteBack_moves h _ _

theorem processLegacy_moves (h : StageMoves app R) (claim : WorkClaim) (context : ExecutionContext)
    (stage : Option CheckpointStage) : Moves R (processLegacy app claim context stage) := by
  unfold processLegacy
  split
  · exact checkpoint_moves h _ _ _ _
  · exact checkpoint_moves h _ _ _ _
  · exact checkpoint_moves h _ _ _ _
  · refine moves_bind (h.ofQuiet (validateLegacy_quiet _ _)) fun validation => ?_
    exact moves_ite (checkpoint_moves h _ _ _ _) (terminal_moves h _ _ _ _ _)
  · exact moves_bind (h.ofQuiet (validateLegacy_quiet _ _)) fun _ => writeAccepted_moves h _ _ _ _
  · exact moves_throw _

theorem processTask_moves (h : StageMoves app R) (claim : WorkClaim) (context : ExecutionContext)
    (stage : Option CheckpointStage)
    (hinvoke : stage = some .modelCompleted → ∀ prepared,
      Moves R (invokePacks app (claimKey claim) context prepared)) :
    Moves R (processTask app claim context stage) := by
  unfold processTask
  split
  · exact moves_bind (h.ofQuiet (prepareTask_quiet _ _)) fun _ => moves_bind (moves_lift _) fun _ =>
      moves_bind (h.ofQuiet (putValue_quiet _)) fun _ => checkpoint_moves h _ _ _ _
  · exact moves_bind (h.ofQuiet (loadPrepared_quiet _)) fun prepared =>
      moves_bind (hinvoke rfl prepared) fun _ => moves_bind (h.ofQuiet (putValue_quiet _)) fun _ =>
        checkpoint_moves h _ _ _ _
  · exact moves_bind (h.ofQuiet (preparedFromAcceptedCheckpoint_quiet _)) fun _ =>
      moves_bind (h.ofQuiet (loadJson_quiet _)) fun _ => moves_bind (moves_lift _) fun _ =>
        moves_bind (h.ofQuiet (putValue_quiet _)) fun _ => checkpoint_moves h _ _ _ _
  · refine moves_bind (h.ofQuiet (preparedFromAcceptedCheckpoint_quiet _)) fun _ =>
      moves_bind (h.ofQuiet (loadJson_quiet _)) fun _ =>
        moves_bind (h.ofQuiet (validateResponses_quiet _ _ _ _)) fun _ =>
          moves_ite ?_ (moves_throw _)
    exact moves_bind (h.ofQuiet (putValue_quiet _)) fun _ => checkpoint_moves h _ _ _ _
  · exact moves_bind (h.ofQuiet (preparedFromAcceptedCheckpoint_quiet _)) fun _ =>
      moves_bind (h.ofQuiet (loadJson_quiet _)) fun _ =>
        moves_bind (h.ofQuiet (validateResponses_quiet _ _ _ _)) fun _ =>
          writeAccepted_moves h _ _ _ _
  · exact moves_throw _

theorem stageFailure_moves (h : StageMoves app R) (claim : WorkClaim) {error : PyError}
    {y : Action BulkStageResult} (hy : stageFailure app claim error = some y) : Moves R y := by
  unfold stageFailure at hy
  split at hy
  · cases hy
  all_goals
    cases hy
    exact terminal_moves h _ _ _ _ _

end Stages

end BulkPipeline

end AiRetrieval
