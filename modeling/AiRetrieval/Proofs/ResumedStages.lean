import AiRetrieval.Sanity.RecordedSuccessors
import AiRetrieval.Spec.PipelineMachine

/-! A resumed item goes through its stages once: whatever is run between them, no stage is run
after its checkpoint is recorded, a stage that checkpoints records its own stage, and a call of
`resume` runs no more stages than remain. -/

namespace AiRetrieval

open Program AiRetrieval.Action WorkRepository

section Stages

variable {recorded : List CheckpointStage} {stage : CheckpointStage}

/-- How many stages are left after those recorded. -/
def remaining (recorded : List CheckpointStage) : Nat :=
  match recorded.getLast? with
  | some last => 4 - last.order
  | none => 5

theorem remaining_eq_zero : remaining recorded = 0 ↔ successor recorded = none := by
  unfold remaining successor
  cases recorded.getLast? with
  | none => decide
  | some last => cases last <;> decide

theorem remaining_append (h : successor recorded = some stage) :
    remaining (recorded ++ [stage]) + 1 = remaining recorded := by
  unfold successor at h
  unfold remaining
  rw [List.getLast?_append, List.getLast?_singleton, Option.some_or]
  cases hlast : recorded.getLast? with
  | none =>
    rw [hlast] at h
    cases h
    rfl
  | some last =>
    rw [hlast] at h
    have hnext := CheckpointStage.order_next h
    have hbound := stage.order_lt
    simp only
    omega

theorem successor_not_mem (hforward : recorded.Pairwise fun a b => a.order < b.order)
    (h : successor recorded = some stage) : stage ∉ recorded := by
  intro hmem
  rcases List.eq_nil_or_concat recorded with rfl | ⟨rest, last, rfl⟩
  · cases hmem
  · rw [List.concat_eq_append] at h hmem hforward
    have hnext : last.next = some stage := by
      simpa [successor] using h
    have horder := CheckpointStage.order_next hnext
    rw [List.pairwise_append] at hforward
    rcases List.mem_append.1 hmem with hrest | hlast
    · have := hforward.2.2 stage hrest last (List.mem_singleton_self _)
      omega
    · rw [List.mem_singleton] at hlast
      rw [hlast] at horder
      omega

theorem StoreInvariant.successor_not_mem {s : WorkRepository} (hs : s.StoreInvariant) {key : Key}
    (h : successor (s.recordedStages key) = some stage) : stage ∉ s.recordedStages key := by
  refine AiRetrieval.successor_not_mem ?_ h
  rw [recordedStages, List.pairwise_map]
  exact hs.recorded.forward key

end Stages

structure NothingRepeated (w : World) : Prop where
  store : w.store.StoreInvariant
  stages : ∀ run ∈ w.stageRuns, ∀ stage, run.stage = some stage → stage ∉ run.recorded
  models : ∀ call ∈ w.modelCalls, .modelCompleted ∉ call.2

structure Unnoted (w w' : World) : Prop where
  changes : Changes w.store w'.store
  runs : w'.stageRuns = w.stageRuns
  models : w'.modelCalls = w.modelCalls

instance : IsPreorder World Unnoted where
  refl w := ⟨refl_of Changes w.store, rfl, rfl⟩
  trans _ _ _ h h' := ⟨trans_of Changes h.changes h'.changes, h'.runs.trans h.runs,
    h'.models.trans h.models⟩

theorem Unnoted.nothingRepeated {w w' : World} (h : Unnoted w w') (hw : NothingRepeated w) :
    NothingRepeated w' where
  store := h.changes.invariant hw.store
  stages := by rw [h.runs]; exact hw.stages
  models := by rw [h.models]; exact hw.models

theorem Quiet.unnoted {w w' : World} (h : Quiet w w') : Unnoted w w' := by
  rw [h]
  exact ⟨refl_of Changes w.store, rfl, rfl⟩

theorem onStore_unnoted {α : Type} {x : WorkRepository.Op α} (h : Moves Changes x) :
    Moves Unnoted (onStore x) := fun w => ⟨h w.store, rfl, rfl⟩

theorem terminalize_changes (jobId idempotencyKey owner : String) (state : TerminalWorkItemState)
    (code details : Option String) (now : DateTime) (ref : Option ObjectReference) :
    Moves Changes (terminalize jobId idempotencyKey owner state code details now ref) :=
  fun _ => (terminalize_outcome ..).change.changes

theorem recovery_unnoted : EffectRecoveryCoordinator.RecoveryMoves Unnoted where
  quiet _ _ h := h.unnoted
  checkpoint _ _ _ _ _ _ _ := onStore_unnoted (checkpoint_changes _ _ _ _ _ _ _)
  saveEffect _ := onStore_unnoted (saveEffect_changes _)
  saveReconciliation _ := onStore_unnoted (saveReconciliation_changes _)

theorem afterTerminal_unnoted : AfterTerminalMoves Unnoted where
  quiet _ _ h := h.unnoted
  deadLetters w _ := ⟨refl_of Changes w.store, rfl, rfl⟩
  usage w _ := ⟨refl_of Changes w.store, rfl, rfl⟩
  failure _ := onStore_unnoted fun _ => (recordPersistenceFailure_change _).changes

theorem writeBack_unnoted (env : Environment) (command : WriteBackCommand)
    (context : ExecutionContext) :
    Moves Unnoted (BatchWriteBackExecutor.execute env command context) :=
  BatchWriteBackExecutor.execute_moves (fun _ _ h => h.unnoted)
    (fun _ => EffectRecoveryCoordinator.execute_moves recovery_unnoted
      fun w _ => ⟨refl_of Changes w.store, rfl, rfl⟩)
    fun w _ => ⟨refl_of Changes w.store, rfl, rfl⟩

theorem stage_unnoted (app : PrototypeApplication) : BulkPipeline.StageMoves app Unnoted where
  quiet _ _ h := h.unnoted
  statuses w _ := ⟨refl_of Changes w.store, rfl, rfl⟩
  checkpoint _ _ _ _ _ _ _ := onStore_unnoted (checkpoint_changes _ _ _ _ _ _ _)
  execute claim _ := executeClaim_moves afterTerminal_unnoted
    (fun _ _ _ _ _ _ _ _ => onStore_unnoted (terminalize_changes _ _ _ _ _ _ _ _))
    claim fun _ => moves_pure _
  writeBack command context := writeBack_unnoted app.toEnvironment command context

/-- A stage of the item under `key`: the model may be called where the stage is
`MODEL_COMPLETED`, with what was recorded when the stage began. -/
structure StageOf (key : Key) (stage : Option CheckpointStage) (w w' : World) : Prop where
  changes : Changes w.store w'.store
  runs : w'.stageRuns = w.stageRuns
  models : ∀ call ∈ w'.modelCalls, call ∈ w.modelCalls ∨
    stage = some .modelCompleted ∧ call = (key, w.store.recordedStages key)

theorem Unnoted.stageOf {w w' : World} (h : Unnoted w w') (key : Key)
    (stage : Option CheckpointStage) : StageOf key stage w w' :=
  ⟨h.changes, h.runs, fun _ hc => Or.inl (h.models ▸ hc)⟩

theorem Invokes.stageOf_comp {w w' w'' : World} {key : Key} (h : Invokes key w w')
    (h' : StageOf key (some .modelCompleted) w' w'') :
    StageOf key (some .modelCompleted) w w'' := by
  have hstore : w'.store = w.store := by rw [h.rest]
  refine ⟨hstore ▸ h'.changes, h'.runs.trans (by rw [h.rest]), fun call hc => ?_⟩
  rcases h'.models call hc with hold | ⟨-, hnew⟩
  · exact (h.calls call hold).imp_right fun heq => ⟨rfl, heq⟩
  · exact Or.inr ⟨rfl, by rw [hnew, hstore]⟩

theorem Invokes.stageOf {w w' : World} {key : Key} (h : Invokes key w w') :
    StageOf key (some .modelCompleted) w w' :=
  h.stageOf_comp ((refl_of Unnoted w').stageOf key _)

section Pipeline

variable (app : PrototypeApplication) (claim : WorkClaim) (context : ExecutionContext)

theorem processTask_stageOf (stage : Option CheckpointStage) :
    Moves (StageOf (claimKey claim) stage) (BulkPipeline.processTask app claim context stage) := by
  have hquiet {α β : Type} {x : Action α} {f : α → Action β} (hx : Moves Quiet x)
      (hf : ∀ a, Moves (StageOf (claimKey claim) (some .modelCompleted)) (f a)) :
      Moves (StageOf (claimKey claim) (some .modelCompleted)) (x >>= f) :=
    moves_bind_comp hx hf (fun _ _ h => h.unnoted.stageOf _ _) fun _ _ _ h h' =>
      h.invokes.stageOf_comp h'
  by_cases hstage : stage = some .modelCompleted
  · subst hstage
    refine hquiet (BulkPipeline.loadPrepared_quiet _) fun prepared => ?_
    refine moves_bind_comp (BulkPipeline.invokePacks_invokes prepared) (fun responses => ?_)
      (fun _ _ h => h.stageOf) fun _ _ _ h h' => h.stageOf_comp h'
    exact moves_mono (moves_bind (moves_mono (BulkPipeline.putValue_quiet _) fun _ _ h => h.unnoted)
      fun _ => BulkPipeline.checkpoint_moves (stage_unnoted app) _ _ _ _) fun _ _ h => h.stageOf _ _
  · refine moves_mono (BulkPipeline.processTask_moves (stage_unnoted app) claim context stage
      fun h => absurd h hstage) fun _ _ h => h.stageOf _ _

/-- One run of `process_stage` for the item under `key`: it is noted unless the item is
missing, and calls the model only where `MODEL_COMPLETED` is next. -/
structure RunsStage (key : Key) (w w' : World) : Prop where
  changes : Changes w.store w'.store
  runs : w'.stageRuns = w.stageRuns ∨ w'.stageRuns = w.stageRuns ++
    [⟨key, w.store.recordedStages key, successor (w.store.recordedStages key)⟩]
  models : ∀ call ∈ w'.modelCalls, call ∈ w.modelCalls ∨
    successor (w.store.recordedStages key) = some .modelCompleted ∧
      call = (key, w.store.recordedStages key)

theorem RunsStage.followed {key : Key} {w w' w'' : World} (h : RunsStage key w w')
    (h' : Unnoted w' w'') : RunsStage key w w'' :=
  ⟨trans_of Changes h.changes h'.changes, by rw [h'.runs]; exact h.runs,
    by rw [h'.models]; exact h.models⟩

theorem RunsStage.nothingRepeated {key : Key} {w w' : World} (h : RunsStage key w w')
    (hw : NothingRepeated w) : NothingRepeated w' := by
  refine ⟨h.changes.invariant hw.store, fun run hrun stage hstage => ?_, fun call hcall => ?_⟩
  · rcases h.runs with hruns | hruns
    · exact hw.stages run (hruns ▸ hrun) stage hstage
    rw [hruns] at hrun
    rcases List.mem_append.1 hrun with hrun | hrun
    · exact hw.stages run hrun stage hstage
    · rw [List.mem_singleton] at hrun
      subst hrun
      exact StoreInvariant.successor_not_mem hw.store hstage
  · rcases h.models call hcall with hold | ⟨hnext, rfl⟩
    · exact hw.models call hold
    · exact StoreInvariant.successor_not_mem hw.store hnext

theorem stageBody_runsStage (w : World) :
    RunsStage (claimKey claim) w ((BulkPipeline.stageBody app claim context).after w) := by
  unfold BulkPipeline.stageBody after
  rw [exec_bind, exec_onStore]
  rcases hitem : w.store.items.get? (claim.item.val.jobId, claim.item.val.idempotencyKey) with
    _ | item
  · obtain ⟨e, hraise⟩ := resumeState_missing hitem
    rw [hraise]
    exact ⟨refl_of Changes w.store, Or.inl rfl, fun _ h => Or.inl h⟩
  obtain ⟨state, hstate, hnext⟩ := resumeState_eq hitem
  rw [hstate]
  simp only
  rw [exec_bind]
  change RunsStage _ w (Program.after _ (withRun w ⟨claimKey claim,
    w.store.recordedStages (claimKey claim), state.nextStage⟩))
  have hbegins : RunsStage (claimKey claim) w (withRun w ⟨claimKey claim,
      w.store.recordedStages (claimKey claim), state.nextStage⟩) := by
    refine ⟨refl_of Changes w.store, Or.inr ?_, fun _ h => Or.inl h⟩
    rw [hnext]
    rfl
  generalize hbegun : withRun w ⟨claimKey claim, w.store.recordedStages (claimKey claim),
    state.nextStage⟩ = begun at hbegins ⊢
  have hsame : begun.store = w.store := by
    rw [← hbegun]
    rfl
  have hmove := @BulkPipeline.isTask_quiet app claim.item.val.payloadReference begun
  refine after_bind_of (fun e t ht => ?_) fun task t ht => ?_
  · rw [after, ht] at hmove
    exact hbegins.followed hmove.unnoted
  rw [after, ht] at hmove
  have hread := hbegins.followed hmove.unnoted
  by_cases htask : task = true
  · rw [if_pos htask]
    have hstage := processTask_stageOf app claim context state.nextStage t
    have hstore : t.store = w.store := hmove.store.trans hsame
    refine ⟨trans_of Changes hread.changes hstage.changes, by rw [hstage.runs]; exact hread.runs,
      fun call hcall => ?_⟩
    rcases hstage.models call hcall with hold | ⟨hmodel, rfl⟩
    · exact hread.models call hold
    · rw [hstore]
      exact Or.inr ⟨hnext.symm.trans hmodel, rfl⟩
  · rw [if_neg htask]
    exact hread.followed (BulkPipeline.processLegacy_moves (stage_unnoted app) claim context _ t)

theorem processStage_runsStage (w : World) :
    RunsStage (claimKey claim) w ((BulkPipeline.processStage app claim context).after w) := by
  refine after_handling (P := RunsStage (claimKey claim) w)
    (stageBody_runsStage app claim context w) fun error y t hfailure hbody => ?_
  exact hbody.followed (BulkPipeline.stageFailure_moves (stage_unnoted app) claim hfailure t)

end Pipeline

section Rounds

variable {app : PrototypeApplication} {worker : BulkWorker} {w : World}

theorem claim_unnoted {key : Key} {owner : String} {now : DateTime} {r : Except PyError WorkClaim}
    {t : World} (hw : NothingRepeated w)
    (h : (onStore (WorkRepository.claim key.1 key.2 owner now worker.val.leaseDuration)).exec w =
      (r, t)) :
    Unnoted w t ∧ SameStages key w t ∧
      ∀ claim, r = .ok claim → claim.acquired → claimKey claim = key := by
  have hout := claim_outcome w.store key.1 key.2 owner now worker.val.leaseDuration
  have hchange := hout.change
  rw [exec_onStore] at h
  generalize (WorkRepository.claim _ _ _ _ _).exec w.store = reply at hout hchange h
  obtain ⟨rfl, rfl⟩ := Prod.mk.inj h
  refine ⟨⟨hchange.changes, rfl, rfl⟩, ?_, fun claim hclaim hacquired => ?_⟩
  · cases hout <;> rfl
  · cases hout with
    | raised e => cases hclaim
    | duplicate current found busy =>
      cases hclaim
      cases hacquired
    | acquired current claimed ha =>
      cases hclaim
      have hinvariant := hchange.invariant hw.store
      exact (hinvariant.announced.keyed key _ (work?_of_get? (Dict.get?_insert_self ..))).symm

/-- What `resume` owes from a world on: it repeats nothing, runs no more stages than remain,
and needs no more rounds than one above these. -/
structure Bounded (key : Key) (fuel : Nat) (w : World)
    (ended : Except PyError (Option (List BulkStageResult)) × World) : Prop where
  kept : NothingRepeated ended.2
  runs : ended.2.stageRuns.length ≤ w.stageRuns.length + remaining (w.store.recordedStages key)
  stops : remaining (w.store.recordedStages key) < fuel → ended.1 ≠ .ok none

theorem Unnoted.bounded {key : Key} {fuel : Nat} {t : World}
    {reply : Except PyError (Option (List BulkStageResult))} (h : Unnoted w t)
    (hw : NothingRepeated w) (hreply : reply ≠ .ok none) : Bounded key fuel w (reply, t) :=
  ⟨h.nothingRepeated hw, by rw [h.runs]; exact Nat.le_add_right _ _, fun _ => hreply⟩

theorem rounds_bounded (key : Key) (owner : String) (context : ExecutionContext)
    (maxStages : Option Int) (fuel : Nat) (results : List BulkStageResult)
    (hw : NothingRepeated w) :
    Bounded key fuel w ((BulkWorker.rounds app.toEnvironment (BulkPipeline.processStage app) worker
      key owner context maxStages fuel results).exec w) := by
  induction fuel generalizing results w with
  | zero => exact ⟨hw, Nat.le_add_right _ _, fun h => absurd h (Nat.not_lt_zero _)⟩
  | succ fuel ih =>
    have hstill := refl_of Unnoted w
    unfold BulkWorker.rounds
    by_cases hlimit : maxStages.all fun limit => decide ((results.length : Int) < limit)
    swap
    · rw [if_neg hlimit]
      exact hstill.bounded hw (by simp)
    rw [if_pos hlimit, exec_bind, exec_onStore]
    rcases hitem : w.store.items.get? (key.1, key.2) with _ | item
    · obtain ⟨e, hraise⟩ := resumeState_missing hitem
      rw [hraise]
      exact hstill.bounded hw (by simp)
    obtain ⟨state, hstate, hnext⟩ := resumeState_eq hitem
    rw [hstate]
    simp only
    by_cases hdone : state.nextStage = none
    · rw [if_pos hdone]
      exact hstill.bounded hw (by simp)
    -- a stage is left, so a run of it fits what remains
    have hleft : remaining (w.store.recordedStages key) ≠ 0 := by
      rw [Ne, remaining_eq_zero]
      exact fun h => hdone (hnext.trans h)
    rw [if_neg hdone, exec_bind, exec_ask]
    rcases app.clock w.moment with e | now
    · exact Unnoted.bounded (t := { w with moment := w.moment + 1 })
        ⟨refl_of Changes w.store, rfl, rfl⟩ hw (by simp)
    simp only
    have hasked : Unnoted w { w with moment := w.moment + 1 } := ⟨refl_of Changes w.store, rfl, rfl⟩
    rw [exec_bind]
    rcases hclaim : (onStore (WorkRepository.claim key.1 key.2 owner now
      worker.val.leaseDuration)).exec { w with moment := w.moment + 1 } with ⟨e | claim, t⟩
    · obtain ⟨hnoted, -, -⟩ := claim_unnoted (hasked.nothingRepeated hw) hclaim
      exact (trans_of Unnoted hasked hnoted).bounded hw (by simp)
    obtain ⟨hnoted, hsame, hkey⟩ := claim_unnoted (hasked.nothingRepeated hw) hclaim
    have hclaimed := trans_of Unnoted hasked hnoted
    have ht := hclaimed.nothingRepeated hw
    have hstages : t.store.recordedStages key = w.store.recordedStages key := hsame
    simp only
    by_cases hacquired : claim.acquired
    swap
    · rw [if_neg hacquired]
      exact hclaimed.bounded hw (by simp)
    rw [if_pos hacquired, exec_bind]
    have hstage := processStage_runsStage app claim context t
    rw [hkey claim rfl hacquired, after] at hstage
    have hlength : ∀ u : World, RunsStage key t u → u.stageRuns.length ≤
      w.stageRuns.length + 1 := by
      intro u hu
      rcases hu.runs with hruns | hruns <;> rw [hruns, hclaimed.runs]
      · exact Nat.le_succ _
      · rw [List.length_append, List.length_singleton]
    rcases hrun : (BulkPipeline.processStage app claim context).exec t with ⟨e | result, u⟩
    · rw [hrun] at hstage
      refine ⟨hstage.nothingRepeated ht, ?_, fun _ => by simp⟩
      have := hlength u hstage
      simp only
      omega
    rw [hrun] at hstage
    have hu : NothingRepeated u := hstage.nothingRepeated ht
    have hruns := hlength u hstage
    simp only
    by_cases hterminal : result.action = .terminal
    · rw [if_pos hterminal]
      refine ⟨hu, ?_, fun _ => by simp⟩
      simp only [exec_pure]
      omega
    rw [if_neg hterminal]
    have hconcludes := BulkPipeline.processStage_concludes hrun
    rw [hkey claim rfl hacquired] at hconcludes
    rcases hconcludes rfl with hends | ⟨next, hsuccessor, hadvances⟩
    · exact absurd hends.1 hterminal
    have hfewer := remaining_append hsuccessor
    rw [← hadvances.recorded, hstages] at hfewer
    obtain ⟨hkept, hmore, hstops⟩ := ih (results ++ [result]) hu
    exact ⟨hkept, by omega, fun h => hstops (by omega)⟩

theorem resume_bounded (key : Key) (owner : String) (context : ExecutionContext)
    (maxStages : Option Int) (fuel : Nat) (hw : NothingRepeated w) :
    Bounded key fuel w ((BulkWorker.resume app.toEnvironment (BulkPipeline.processStage app) worker
      key owner context maxStages fuel).exec w) := by
  unfold BulkWorker.resume
  by_cases hlimit : maxStages.any fun limit => decide (limit ≤ 0)
  · rw [if_pos hlimit]
    exact (refl_of Unnoted w).bounded hw (by simp)
  · rw [if_neg hlimit]
    exact rounds_bounded key owner context maxStages fuel [] hw

end Rounds

section Runs

variable (app : PrototypeApplication) (worker : BulkWorker)

theorem NothingRepeated.empty : NothingRepeated .empty where
  store := empty_invariant
  stages _ h := by cases h
  models _ h := by cases h

/-- Only stages invoke the model. -/
def KeepsModels (w w' : World) : Prop := w'.modelCalls = w.modelCalls

instance : IsPreorder World KeepsModels where
  refl _ := rfl
  trans _ _ _ h h' := Eq.trans h' h

theorem submit_keepsModels (env : Environment) (submission : WorkSubmission)
    (context : ExecutionContext) :
    Moves KeepsModels (BulkCoordinator.submit env submission context) := by
  unfold BulkCoordinator.submit
  refine moves_ite (moves_throw _) ?_
  refine moves_bind (fun _ => rfl) fun _ => moves_bind (moves_lift _) fun _ => ?_
  exact moves_bind (fun _ => rfl) fun _ => moves_bind (moves_lift _) fun _ => fun _ => rfl

theorem submit_nothingRepeated (submission : WorkSubmission)
    (context : ExecutionContext) {w : World}
    (hw : NothingRepeated w) :
    NothingRepeated ((BulkCoordinator.submit app.toEnvironment submission context).after w) := by
  obtain ⟨-, reply, hout⟩ := BulkCoordinator.submit_outcome app.toEnvironment submission context w
  exact Unnoted.nothingRepeated ⟨hout.change.changes,
    submit_keepsRuns app.toEnvironment submission context w,
    submit_keepsModels app.toEnvironment submission context w⟩ hw

theorem pipeline_nothingRepeated (call : PipelineCall) {w : World} (hw : NothingRepeated w) :
    NothingRepeated (pipelineMachine app worker call w).2 := by
  unfold pipelineMachine PipelineCall.action
  cases call with
  | submit submission context =>
    simp only [exec_map]
    exact submit_nothingRepeated app submission context hw
  | resume key owner context maxStages fuel =>
    simp only [exec_map]
    exact (resume_bounded key owner context maxStages fuel hw).kept
  | processStage claim context =>
    simp only [exec_map]
    exact (processStage_runsStage app claim context w).nothingRepeated hw
  | writeBack command context =>
    simp only [exec_map]
    exact (writeBack_unnoted app.toEnvironment command context w).nothingRepeated hw
  | work call =>
    simp only [exec_map]
    exact Unnoted.nothingRepeated (w := w) ⟨(call_change call w.store).changes, rfl, rfl⟩ hw

structure ResumesOnce (w : World) : Prop where
  stages : ∀ run ∈ w.stageRuns, ∀ stage, run.stage = some stage → stage ∉ run.recorded
  models : ∀ call ∈ w.modelCalls, .modelCompleted ∉ call.2
  /-- A stage that returns ends its item or records the stage that was next, also where it is
  run inside a `resume`. -/
  records : ∀ v claim context result v',
    (BulkPipeline.processStage app claim context).exec v = (.ok result, v') →
    Ends (claimKey claim) result v' ∨
      ∃ stage, successor (v.store.recordedStages (claimKey claim)) = some stage ∧
        Advances (claimKey claim) stage v result v'
  /-- A call of `resume` runs no more stages than remain, and with one round more than that
  it comes to its end. -/
  bounded : ∀ key owner context maxStages fuel,
    ((BulkWorker.resume app.toEnvironment (BulkPipeline.processStage app) worker key owner context
        maxStages fuel).after w).stageRuns.length ≤
      w.stageRuns.length + remaining (w.store.recordedStages key) ∧
    (remaining (w.store.recordedStages key) < fuel →
      ((BulkWorker.resume app.toEnvironment (BulkPipeline.processStage app) worker key owner
        context maxStages fuel).exec w).1 ≠ .ok none)

/-- Over any run of resumed items, single stages, write-backs, submissions and other work on the
store, no stage runs after its checkpoint is recorded, and every `resume` stops. -/
theorem resume_never_repeats (calls : List PipelineCall) :
    ResumesOnce app worker ((pipelineMachine app worker).run .empty calls) := by
  have hw := Machine.run_invariant (m := pipelineMachine app worker) (P := NothingRepeated)
    (fun call w hw => pipeline_nothingRepeated app worker call hw) NothingRepeated.empty calls
  refine ⟨hw.stages, hw.models, ?_, fun key owner context maxStages fuel => ?_⟩
  · intro v claim context result v' h
    exact BulkPipeline.processStage_concludes h rfl
  · have hbounded := @resume_bounded app worker _ key owner context maxStages fuel hw
    exact ⟨hbounded.runs, hbounded.stops⟩

end Runs

end AiRetrieval
