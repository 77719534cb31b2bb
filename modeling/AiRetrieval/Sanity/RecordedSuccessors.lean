import AiRetrieval.Sanity.ApprovalGate
import AiRetrieval.Sanity.EffectRecords
import AiRetrieval.Sanity.StageRuns

/-! What a stage that returns has done: it ended its item, or recorded the stage that was
next, itself or through the effect recovery. -/

namespace AiRetrieval

open Program AiRetrieval.Action WorkRepository

theorem resumeState_missing {s : WorkRepository} {jobId idempotencyKey : String}
    (h : s.items.get? (jobId, idempotencyKey) = none) :
    ∃ e, (resumeState jobId idempotencyKey).exec s = (.error e, s) := by
  unfold resumeState
  rw [exec_bind, exec_get]
  simp only
  rw [exec_bind, exec_liftExcept, requireItem, h]
  exact ⟨_, rfl⟩

/-- Where `stage` is next for the item under `key`, it is recorded, and nothing else of it. -/
def Records (key : Key) (stage : CheckpointStage) (w w' : World) : Prop :=
  successor (w.store.recordedStages key) = some stage →
    w'.store.recordedStages key = w.store.recordedStages key ++ [stage]

/-- What is recorded for the item under `key` is as it was. -/
def SameStages (key : Key) (w w' : World) : Prop :=
  w'.store.recordedStages key = w.store.recordedStages key

theorem Records.frame {key : Key} {stage : CheckpointStage} {w w' u u' : World}
    (h : Records key stage w' u) (hbefore : SameStages key w w') (hafter : SameStages key u u') :
    Records key stage w u' := by
  unfold Records SameStages at *
  rw [hafter, ← hbefore]
  exact h

theorem Quiet.sameStages {w w' : World} (h : Quiet w w') (key : Key) : SameStages key w w' := by
  rw [SameStages, h.store]

theorem successor_ne_last {recorded : List CheckpointStage} {stage : CheckpointStage}
    (h : successor recorded = some stage) : recorded.getLast? ≠ some stage := by
  intro hlast
  rw [successor, hlast] at h
  have := CheckpointStage.order_next h
  omega

section Restore

theorem latest_stage {s : WorkRepository} {key : Key} {last : CheckpointRecord}
    (h : s.latest key = some last) :
    (s.recordedStages key).getLast? = some last.val.completedStage := by
  rw [recordedStages, List.getLast?_map]
  exact congrArg (Option.map (·.val.completedStage)) h

theorem onStore_checkpoint_records (jobId idempotencyKey owner : String) (stage : CheckpointStage)
    (outcome : String) (now : DateTime) (ref : Option ObjectReference) :
    Yields (fun w record w' => Records (jobId, idempotencyKey) stage w w' ∧
        (successor (w.store.recordedStages (jobId, idempotencyKey)) = some stage →
          record.val.completedStage = stage))
      (onStore (WorkRepository.checkpoint jobId idempotencyKey owner stage outcome now ref)) := by
  intro w reply w' h
  have hout := checkpoint_outcome w.store jobId idempotencyKey owner stage outcome now ref
  rw [exec_onStore] at h
  generalize (WorkRepository.checkpoint _ _ _ _ _ _ _).exec w.store = r at hout h
  cases hout with
  | raised e => cases h
  | repeated current last owned latest same =>
    have hlast := latest_stage latest
    rw [same] at hlast
    exact ⟨fun hnext => absurd hlast (successor_ne_last hnext),
      fun hnext => absurd hlast (successor_ne_last hnext)⟩
  | recorded current updated record hc =>
    cases h
    refine ⟨fun _ => ?_, fun _ => by rw [hc.checkpoint]⟩
    unfold recordedStages
    rw [checkpointsOf_putCheckpoint, if_pos rfl, List.map_append, List.map_singleton, hc.checkpoint]

variable {env : Environment} {request : EffectRequest} {context : ExecutionContext}

theorem restoreCheckpoint_records (record : EffectRecord) :
    Yields (fun w _ w' => Records (record.val.jobId, record.val.idempotencyKey) .completed w w')
      (EffectRecoveryCoordinator.restoreCheckpoint env request record) := by
  have hwrite : Yields (fun w _ w' =>
      Records (record.val.jobId, record.val.idempotencyKey) .completed w w')
      (EffectRecoveryCoordinator.restoreCheckpoint.write env request record) := by
    unfold EffectRecoveryCoordinator.restoreCheckpoint.write
    split
    · exact yields_throw _
    · refine yields_after (ask_quiet _) (fun now w _ w' h => ?_) fun _ _ _ _ h h' =>
        h'.frame (h.sameStages _) rfl
      exact (onStore_checkpoint_records _ _ _ _ _ _ _ w _ w' h).1
  intro w reply w' h
  unfold EffectRecoveryCoordinator.restoreCheckpoint at h
  obtain ⟨state, t, hstate, h⟩ := bind_returns h
  have hsame := resumeState_same record.val.jobId record.val.idempotencyKey w.store
  rw [exec_onStore] at hstate
  unfold after at hsame
  obtain ⟨hreply, rfl⟩ := Prod.mk.inj hstate
  rcases hitem : w.store.items.get? (record.val.jobId, record.val.idempotencyKey) with _ | item
  · obtain ⟨e, hraise⟩ := resumeState_missing hitem
    rw [hraise] at hreply
    cases hreply
  have hlatest : state.latestCheckpoint =
      w.store.latest (record.val.jobId, record.val.idempotencyKey) := by
    unfold resumeState at hreply
    rw [exec_bind, exec_get] at hreply
    simp only at hreply
    rw [exec_bind, exec_liftExcept, requireItem_eq_ok.2 hitem] at hreply
    cases hreply
    rfl
  rw [hsame] at h
  split at h
  · next last hlast =>
    split at h
    · next hcompleted =>
      intro hnext
      have hend := latest_stage (hlatest.symm.trans hlast)
      rw [hcompleted] at hend
      exact absurd hend (successor_ne_last hnext)
    · exact hwrite _ _ _ h
  · exact hwrite _ _ _ h

theorem settle_records (record : EffectRecord) (status : EffectRecoveryStatus) (reason : String) :
    Yields (fun w _ w' => Records (record.val.jobId, record.val.idempotencyKey) .completed w w')
      (EffectRecoveryCoordinator.settle env request record status reason) := by
  intro w result w' h
  unfold EffectRecoveryCoordinator.settle at h
  obtain ⟨saved, t, hsaved, h⟩ := bind_returns h
  obtain ⟨checkpoint, u, hcheckpoint, h⟩ := bind_returns h
  cases congrArg Prod.snd h
  have hout := saveEffect_outcome w.store record
  rw [exec_onStore] at hsaved
  generalize (saveEffect record).exec w.store = r at hout hsaved
  have hkept : saved = record ∧
      SameStages (record.val.jobId, record.val.idempotencyKey) w t := by
    cases hout with
    | raised e => cases hsaved
    | repeated found =>
      cases hsaved
      exact ⟨rfl, rfl⟩
    | saved item found same fresh =>
      cases hsaved
      exact ⟨rfl, rfl⟩
  obtain ⟨rfl, hsame⟩ := hkept
  exact (restoreCheckpoint_records saved t _ _ hcheckpoint).frame hsame rfl

/-- The result says that the mutation is in place. -/
def InPlace (status : EffectRecoveryStatus) : Prop := status = .committed ∨ status = .recovered

theorem key_of_assertSameEffect {record : Option EffectRecord}
    (h : EffectRecoveryCoordinator.assertSameEffect record request = .ok ()) :
    ∃ r, record = some r ∧ (r.val.jobId, r.val.idempotencyKey) = requestKey request := by
  unfold EffectRecoveryCoordinator.assertSameEffect at h
  rw [require_eq_ok, Option.map_eq_some_iff] at h
  obtain ⟨r, rfl, hr⟩ := h
  exact ⟨r, rfl, congrArg Mutation.key hr⟩

theorem settleEvidence_records (record : Option EffectRecord) (status : EffectRecoveryStatus)
    (reason : String) :
    Yields (fun w _ w' => Records (requestKey request) .completed w w')
      (EffectRecoveryCoordinator.settleEvidence env request record status reason) := by
  intro w result w' h
  unfold EffectRecoveryCoordinator.settleEvidence at h
  obtain ⟨_, t, hsame, h⟩ := bind_returns h
  obtain ⟨hok, rfl⟩ := Prod.mk.inj hsame
  obtain ⟨r, rfl, hkey⟩ := key_of_assertSameEffect hok
  rw [← hkey]
  exact settle_records r status reason _ _ _ h

theorem reconcile_status {reason : String} :
    Yields (fun _ result _ => ¬InPlace result.val.status)
      (EffectRecoveryCoordinator.reconcile env request reason) := by
  intro w result w' h
  unfold EffectRecoveryCoordinator.reconcile at h
  obtain ⟨_, _, -, h⟩ := bind_returns h
  obtain ⟨_, _, -, h⟩ := bind_returns h
  obtain ⟨_, _, -, h⟩ := bind_returns h
  rw [Checked.make_eq_ok.1 (congrArg Prod.fst h)]
  rintro (h | h) <;> cases h

theorem rolledBack_status {w w' : World} {result : EffectRecoveryResult}
    (h : (liftM EffectRecoveryCoordinator.rolledBack : Action EffectRecoveryResult).exec w =
      (.ok result, w')) : ¬InPlace result.val.status := by
  have hok : EffectRecoveryCoordinator.rolledBack = .ok result := congrArg Prod.fst h
  rw [Checked.make_eq_ok.1 hok]
  rintro (h | h) <;> cases h

/-- The effect is in place with its checkpoint, whenever recovery says that it is. -/
theorem recovery_records : Yields (fun w result w' =>
      InPlace result.val.status → Records (requestKey request) .completed w w')
    (EffectRecoveryCoordinator.execute env request context) := by
  have hcalled (call : AdapterCall) (w : World) :
      SameStages (requestKey request) w (EffectRecoveryCoordinator.called call w) := rfl
  have hattempt : Yields (fun w result w' =>
      InPlace result.val.status → Records (requestKey request) .completed w w')
      (EffectRecoveryCoordinator.attemptNonShared env request context) := by
    intro w result w' h hplace
    unfold EffectRecoveryCoordinator.attemptNonShared at h
    obtain ⟨attempt, t, hcall, h⟩ := bind_returns h
    rw [EffectRecoveryCoordinator.exec_callAdapter] at hcall
    obtain ⟨-, rfl⟩ := Prod.mk.inj hcall
    split at h
    · exact absurd hplace (rolledBack_status h)
    · exact absurd hplace (reconcile_status _ _ _ h)
    · obtain ⟨now, u, hnow, h⟩ := bind_returns h
      obtain ⟨-, rfl⟩ := Prod.mk.inj hnow
      obtain ⟨record, u, hrecord, h⟩ := bind_returns h
      obtain ⟨hok, rfl⟩ := Prod.mk.inj hrecord
      have hkey : (record.val.jobId, record.val.idempotencyKey) = requestKey request := by
        unfold EffectRecoveryCoordinator.committedRecord at hok
        rw [Checked.make_eq_ok.1 hok]
        rfl
      have hsettled := settle_records record _ _ _ _ _ h
      rw [hkey] at hsettled
      exact hsettled.frame rfl rfl
  intro w result w' h hplace
  by_cases hfits : EffectRecoveryCoordinator.Fits request context
  swap
  · obtain ⟨message, hrefused⟩ := EffectRecoveryCoordinator.execute_refused env w hfits
    rw [hrefused] at h
    cases h
  rw [EffectRecoveryCoordinator.execute_of_fits env w hfits] at h
  rcases hexisting : w.store.effects.get? (requestKey request) with _ | existing
  swap
  · rw [hexisting] at h
    simp only at h
    unfold EffectRecoveryCoordinator.recover at h
    obtain ⟨_, t, hsame, h⟩ := bind_returns h
    obtain ⟨hok, rfl⟩ := Prod.mk.inj hsame
    obtain ⟨checkpoint, t, hcheckpoint, h⟩ := bind_returns h
    cases congrArg Prod.snd h
    obtain ⟨r, hr, hkey⟩ := key_of_assertSameEffect hok
    cases hr
    rw [← hkey]
    exact restoreCheckpoint_records existing _ _ _ hcheckpoint
  rcases hpending : w.store.reconciliations.get? (requestKey request) with _ | pending
  swap
  · rw [hexisting, hpending] at h
    obtain ⟨hok, rfl⟩ := Prod.mk.inj h
    obtain ⟨_, -, hmake⟩ := except_bind_eq_ok.1 hok
    rw [Checked.make_eq_ok.1 hmake] at hplace
    rcases hplace with hplace | hplace <;> cases hplace
  rw [hexisting, hpending] at h
  simp only at h
  rcases hboundary : request.val.boundary with _ | _ <;> rw [hboundary] at h
  · unfold EffectRecoveryCoordinator.executeShared at h
    obtain ⟨evidence, t, hcall, h⟩ := bind_returns h
    rw [EffectRecoveryCoordinator.exec_callAdapter] at hcall
    obtain ⟨-, rfl⟩ := Prod.mk.inj hcall
    split at h
    · exact (settleEvidence_records _ _ _ _ _ _ h).frame (hcalled _ _) rfl
    · exact absurd hplace (reconcile_status _ _ _ h)
    · exact absurd hplace (rolledBack_status h)
    · exact absurd hplace (rolledBack_status h)
  · unfold EffectRecoveryCoordinator.executeNonShared at h
    obtain ⟨evidence, t, hcall, h⟩ := bind_returns h
    rw [EffectRecoveryCoordinator.exec_callAdapter] at hcall
    obtain ⟨-, rfl⟩ := Prod.mk.inj hcall
    split at h
    · exact (settleEvidence_records _ _ _ _ _ _ h).frame (hcalled _ _) rfl
    · exact absurd hplace (reconcile_status _ _ _ h)
    · exact (hattempt _ _ _ h hplace).frame (hcalled _ _) rfl
    · exact (hattempt _ _ _ h hplace).frame (hcalled _ _) rfl

end Restore

section WriteBack

variable {env : Environment} {command : WriteBackCommand} {context : ExecutionContext}

/-- The write-back says that the mutation is in place. -/
def Written (status : WriteBackExecutionStatus) : Prop := status = .committed ∨ status = .recovered

theorem execute_records : Yields (fun w result w' =>
      Written result.status → Records (claimKey command.val.claim) .completed w w')
    (BatchWriteBackExecutor.execute env command context) := by
  intro w result w' h hwritten
  unfold BatchWriteBackExecutor.execute at h
  obtain ⟨started, t, hget, h⟩ := bind_returns h
  cases hget
  obtain ⟨performed, t, hperform, h⟩ := bind_returns h
  obtain ⟨_, u, hnote, h⟩ := bind_returns h
  cases hnote
  cases h
  rw [BatchWriteBackExecutor.perform_eq] at hperform
  obtain ⟨decision, u, hgate, hconclude⟩ := bind_returns hperform
  have hquiet := @BatchWriteBackExecutor.gate_quiet env command context w
  have hdecided := BatchWriteBackExecutor.gate_decides w _ _ hgate
  rw [after, hgate] at hquiet
  cases decision with
  | withheld snapshot request withheldResult =>
    rw [BatchWriteBackExecutor.finish_result hconclude] at hwritten
    rcases hwritten with hwritten | hwritten <;>
      simp [BatchWriteBackExecutor.Decided, hwritten] at hdecided
  | handed request snapshot reference =>
    obtain ⟨⟨payload, hrequest⟩, -⟩ := hdecided
    have hkey : requestKey request = claimKey command.val.claim := by
      rw [requestKey, (BatchWriteBackExecutor.effectRequest_made hrequest).1]
    unfold BatchWriteBackExecutor.conclude at hconclude
    obtain ⟨recovered, v, hrecover, hfinish⟩ := bind_returns hconclude
    rw [exec_attempt] at hrecover
    obtain ⟨hends, hleft⟩ := Prod.mk.inj hrecover
    obtain rfl := Except.ok.inj hends
    rcases hrun : (EffectRecoveryCoordinator.execute env request context).exec u with ⟨e | r, x⟩
    · rw [hrun] at hfinish hleft
      have hfailed : result.status = .writeBackFailed := by
        split at hfinish
        · cases hfinish
        · rw [BatchWriteBackExecutor.finish_result hfinish]
          rfl
      rcases hwritten with hwritten | hwritten <;> rw [hfailed] at hwritten <;> cases hwritten
    · rw [hrun] at hfinish hleft
      simp only at hfinish hleft
      have hreported := BatchWriteBackExecutor.finish_result hfinish
      have hplace : InPlace r.val.status := by
        rw [hreported] at hwritten
        simp only [Written, BatchWriteBackExecutor.recoveryResult] at hwritten
        unfold InPlace
        cases hs : r.val.status <;> rw [hs] at hwritten <;>
          simp [BatchWriteBackExecutor.reportedStatus] at hwritten ⊢
      have hrecorded := recovery_records u r x hrun hplace
      have hended := @BatchWriteBackExecutor.finish_quiet env command context (some snapshot)
        (some request) (BatchWriteBackExecutor.recoveryResult reference (.ok r)) v
      rw [after, hfinish] at hended
      rw [hkey, hleft] at hrecorded
      exact hrecorded.frame (hquiet.sameStages _) (hended.sameStages _)

end WriteBack

section Stages

variable {app : PrototypeApplication} {claim : WorkClaim} {context : ExecutionContext}
  {stage : Option CheckpointStage}

/-- The result says that the item under `key` is terminal, and it is. -/
def Ends (key : Key) (result : BulkStageResult) (w : World) : Prop :=
  result.action = .terminal ∧ (w.store.terminal.get? key).isSome = true

structure Advances (key : Key) (stage : CheckpointStage) (w : World) (result : BulkStageResult)
    (w' : World) : Prop where
  action : result.action = .checkpointed
  named : result.checkpointStage = some stage
  recorded : w'.store.recordedStages key = w.store.recordedStages key ++ [stage]

/-- A stage that works on `stage`, where that is next: it ends the item or records `stage`. -/
def Concludes (key : Key) (stage : Option CheckpointStage) (w : World) (result : BulkStageResult)
    (w' : World) : Prop :=
  successor (w.store.recordedStages key) = stage →
    Ends key result w' ∨ ∃ next, stage = some next ∧ Advances key next w result w'

theorem Concludes.before {key : Key} {w w' u : World} {result : BulkStageResult}
    (h : SameStages key w w') (hw : Concludes key stage w' result u) :
    Concludes key stage w result u := by
  intro hnext
  rw [SameStages] at h
  rw [← h] at hnext
  rcases hw hnext with hended | ⟨next, hstage, hadvances⟩
  · exact Or.inl hended
  · exact Or.inr ⟨next, hstage, hadvances.action, hadvances.named, h ▸ hadvances.recorded⟩

/-- What a program yields after one that only reads, stores objects and asks. -/
theorem concludes_after {α : Type} {key : Key} {x : Action α} {f : α → Action BulkStageResult}
    (hx : Moves Quiet x) (hf : ∀ a, Yields (Concludes key stage) (f a)) :
    Yields (Concludes key stage) (x >>= f) :=
  yields_after hx hf fun _ _ _ _ h h' => h'.before (h.sameStages key)

theorem executeClaim_ends (env : Environment) (claim : WorkClaim)
    (handler : BulkWorkExecutor.Handler) :
    Yields (fun _ _ w' => (w'.store.terminal.get? (claimKey claim)).isSome = true)
      (BulkWorkExecutor.executeClaim env claim handler) := by
  intro w record w' h
  unfold BulkWorkExecutor.executeClaim at h
  obtain ⟨owner, t, -, h⟩ := bind_returns h
  obtain ⟨now, u, -, h⟩ := bind_returns h
  obtain ⟨result, v, -, h⟩ := bind_returns h
  obtain ⟨terminal, x, hterminal, hafter⟩ := bind_returns h
  have hkept := @afterTerminal_same env claim result terminal x
  rw [after, hafter] at hkept
  unfold BulkWorkExecutor.terminalizeResult at hterminal
  obtain ⟨ref, y, -, hterminal⟩ := bind_returns hterminal
  have hout := terminalize_outcome y.store claim.item.val.jobId claim.item.val.idempotencyKey owner
    result.val.state result.val.failureCode result.val.failureDetails now ref
  rw [exec_onStore] at hterminal
  generalize (terminalize _ _ _ _ _ _ _ _).exec y.store = r at hout hterminal
  have hrecord : x.store.terminal.get? (claimKey claim) = some terminal := by
    cases hout with
    | raised e => cases hterminal
    | repeated existing found same =>
      cases hterminal
      exact found
    | settled current completed record settles =>
      cases hterminal
      exact Dict.get?_insert_self ..
  have hsame : w'.store.terminal = x.store.terminal := by
    have hsame := hkept
    unfold OnStores SameRecords at hsame
    rw [hsame]
  rw [hsame, hrecord]
  rfl

namespace BulkPipeline

theorem terminal_ends (state : TerminalWorkItemState) (code details outcome : String) :
    Yields (fun _ result w' => Ends (claimKey claim) result w')
      (terminal app claim state code details outcome) := by
  intro w result w' h
  unfold terminal at h
  obtain ⟨made, t, -, h⟩ := bind_returns h
  obtain ⟨record, u, hrecord, h⟩ := bind_returns h
  cases h
  exact ⟨rfl, executeClaim_ends _ _ _ _ _ _ hrecord⟩

theorem terminal_concludes (state : TerminalWorkItemState) (code details outcome : String) :
    Yields (Concludes (claimKey claim) stage) (terminal app claim state code details outcome) :=
  fun w result w' h _ => Or.inl (terminal_ends _ _ _ _ w result w' h)

theorem succeed_ends (outcome : WriteBackExecutionResult) :
    Yields (fun _ result w' => Ends (claimKey claim) result w') (succeed app claim outcome) := by
  intro w result w' h
  unfold succeed at h
  obtain ⟨data, t, -, h⟩ := bind_returns h
  obtain ⟨made, u, -, h⟩ := bind_returns h
  obtain ⟨record, v, hrecord, h⟩ := bind_returns h
  cases h
  exact ⟨rfl, executeClaim_ends _ _ _ _ _ _ hrecord⟩

theorem checkpoint_concludes (next : CheckpointStage) (outcome : String)
    (reference : Option ObjectReference) :
    Yields (Concludes (claimKey claim) (some next))
      (checkpoint app claim next outcome reference) := by
  refine concludes_after (ask_quiet _) fun now => ?_
  intro w result w' h hnext
  obtain ⟨record, t, hrecord, h⟩ := bind_returns h
  cases h
  unfold checkpointOwned at hrecord
  simp only at hrecord
  split at hrecord
  · obtain ⟨hrecords, hstage⟩ := onStore_checkpoint_records _ _ _ _ _ _ _ _ _ _ hrecord
    exact Or.inr ⟨next, rfl, rfl, congrArg some (hstage hnext), hrecords hnext⟩
  · obtain ⟨_, _, -, hrecord⟩ := bind_returns hrecord
    obtain ⟨_, _, -, hrecord⟩ := bind_returns hrecord
    cases hrecord

theorem writeAccepted_concludes (validation : ValidationResult) (function : Option TaskFunction) :
    Yields (Concludes (claimKey claim) (some .completed))
      (writeAccepted app claim context validation function) := by
  intro w result w' h hnext
  unfold writeAccepted at h
  obtain ⟨command, t, hcommand, h⟩ := bind_returns h
  obtain ⟨hmade, rfl⟩ := Prod.mk.inj hcommand
  obtain ⟨outcome, u, hexecute, h⟩ := bind_returns h
  obtain ⟨_, v, hnote, h⟩ := bind_returns h
  cases hnote
  have hclaim : claimKey command.val.claim = claimKey claim := by
    obtain ⟨value, -, hmake⟩ := except_bind_eq_ok.1 hmade
    rw [Checked.make_eq_ok.1 hmake]
  have hrecords := execute_records w outcome u hexecute
  rw [hclaim] at hrecords
  unfold afterWriteBack at h
  split at h
  · next hstatus =>
    cases h
    exact Or.inr ⟨_, rfl, rfl, rfl, hrecords (Or.inl hstatus) hnext⟩
  · next hstatus =>
    cases h
    exact Or.inr ⟨_, rfl, rfl, rfl, hrecords (Or.inr hstatus) hnext⟩
  · exact Or.inl (succeed_ends outcome _ _ _ h)
  · exact Or.inl (terminal_ends _ _ _ _ _ _ _ h)

theorem processLegacy_concludes :
    Yields (Concludes (claimKey claim) stage) (processLegacy app claim context stage) := by
  unfold processLegacy
  split
  · exact checkpoint_concludes _ _ _
  · exact checkpoint_concludes _ _ _
  · exact checkpoint_concludes _ _ _
  · exact concludes_after (validateLegacy_quiet _ _) fun validation =>
      yields_ite (checkpoint_concludes _ _ _) (terminal_concludes _ _ _ _)
  · exact concludes_after (validateLegacy_quiet _ _) fun validation =>
      writeAccepted_concludes validation _
  · exact yields_throw _

theorem Invokes.sameStages {key : Key} {w w' : World} (h : Invokes key w w') :
    SameStages key w w' := by
  rw [SameStages, h.rest]

theorem processTask_concludes :
    Yields (Concludes (claimKey claim) stage) (processTask app claim context stage) := by
  unfold processTask
  split
  · exact concludes_after (prepareTask_quiet _ _) fun prepared => concludes_after (moves_lift _)
      fun value => concludes_after (putValue_quiet _) fun _ => checkpoint_concludes _ _ _
  · refine concludes_after (loadPrepared_quiet _) fun prepared =>
      yields_after (invokePacks_invokes prepared) (fun responses => ?_)
        fun _ _ _ _ h h' => h'.before (Invokes.sameStages h)
    exact concludes_after (putValue_quiet _) fun _ => checkpoint_concludes _ _ _
  · exact concludes_after (preparedFromAcceptedCheckpoint_quiet _) fun prepared =>
      concludes_after (loadJson_quiet _) fun responses => concludes_after (moves_lift _)
        fun parsed => concludes_after (putValue_quiet _) fun _ => checkpoint_concludes _ _ _
  · refine concludes_after (preparedFromAcceptedCheckpoint_quiet _) fun prepared =>
      concludes_after (loadJson_quiet _) fun parsed =>
        concludes_after (validateResponses_quiet _ _ _ _) fun validation =>
          yields_ite ?_ (yields_throw _)
    exact concludes_after (putValue_quiet _) fun _ => checkpoint_concludes _ _ _
  · exact concludes_after (preparedFromAcceptedCheckpoint_quiet _) fun prepared =>
      concludes_after (loadJson_quiet _) fun accepted =>
        concludes_after (validateResponses_quiet _ _ _ _) fun validation =>
          writeAccepted_concludes validation _
  · exact yields_throw _

theorem processStage_concludes {w w' : World} {result : BulkStageResult}
    (h : (processStage app claim context).exec w = (.ok result, w')) :
    Concludes (claimKey claim)
      (successor (w.store.recordedStages (claimKey claim))) w result w' := by
  intro _
  unfold processStage handling at h
  rw [exec_tryCatch] at h
  rcases hbody : (stageBody app claim context).exec w with ⟨e | returned, t⟩
  · rw [hbody] at h
    simp only at h
    cases hfailure : stageFailure app claim e with
    | none =>
      rw [hfailure] at h
      cases h
    | some y =>
      rw [hfailure] at h
      unfold stageFailure at hfailure
      split at hfailure
      · cases hfailure
      all_goals
        cases hfailure
        exact Or.inl (terminal_ends _ _ _ _ _ _ _ h)
  rw [hbody] at h
  cases h
  unfold stageBody at hbody
  obtain ⟨state, t, hstate, hbody⟩ := bind_returns hbody
  rw [exec_onStore] at hstate
  obtain ⟨hreturned, hleft⟩ := Prod.mk.inj hstate
  rcases hitem : w.store.items.get? (claim.item.val.jobId, claim.item.val.idempotencyKey) with
    _ | item
  · obtain ⟨e, hraise⟩ := resumeState_missing hitem
    rw [hraise] at hreturned
    cases hreturned
  obtain ⟨found, hfound, hnext⟩ := resumeState_eq hitem
  rw [hfound] at hreturned hleft
  cases hreturned
  subst hleft
  obtain ⟨_, u, hnote, hbody⟩ := bind_returns hbody
  have hnoted : u.store = w.store := by
    cases hnote
    rfl
  obtain ⟨task, v, htask, hbody⟩ := bind_returns hbody
  have hquiet := @isTask_quiet app claim.item.val.payloadReference u
  rw [after, htask] at hquiet
  have hsame : SameStages (claimKey claim) w v := by
    rw [SameStages, hquiet.store, hnoted]
  have hconcludes : Concludes (claimKey claim) state.nextStage v result w' := by
    by_cases htask : task = true
    · rw [if_pos htask] at hbody
      exact processTask_concludes v result w' hbody
    · rw [if_neg htask] at hbody
      exact processLegacy_concludes v result w' hbody
  rw [show successor (w.store.recordedStages (claimKey claim)) = state.nextStage from hnext.symm]
  exact hconcludes.before hsame hnext.symm

end BulkPipeline

end Stages

end AiRetrieval
