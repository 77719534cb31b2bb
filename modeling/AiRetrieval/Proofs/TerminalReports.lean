import AiRetrieval.Proofs.EffectRecovery
import AiRetrieval.Sanity.JobListings

/-! When a finished job can be reported. A report counts terminal records, so an item
that was completed by a checkpoint of the last stage, as a committed write-back
completes it, is missing from it. -/

namespace AiRetrieval

open Program AiRetrieval.Action WorkRepository

def Finished (s : WorkRepository) (jobId : String) : Prop :=
  ∀ item ∈ s.itemsOf jobId, item.val.state = .completed

instance (s : WorkRepository) (jobId : String) : Decidable (Finished s jobId) :=
  inferInstanceAs (Decidable (∀ item ∈ s.itemsOf jobId, _))

instance (s : WorkRepository) (key : Key) : Decidable (s.LastStageRecorded key) :=
  inferInstanceAs (Decidable (∃ c ∈ s.checkpointsOf key, _))

/-- What is outside the executor answers: the clock, in the time zone sense of the start,
and the telemetry sink. -/
structure ExecutorPorts (env : Environment) : Prop where
  clock : AwareClock env
  started : env.startedAt.aware = true
  sink : ∀ n telemetry, env.telemetry n telemetry = .ok ()

/-- The groups of the report name each of the identifiers once. -/
def Partitions (report : TerminalJobReport) (itemIds : List String) : Prop :=
  (report.val.groups.flatMap (·.val.itemIds)).Perm itemIds ∧ itemIds.Nodup

section Report

variable {items : List TerminalWorkItemRecord}

/-- The identifiers of one group of `build_terminal_report`. -/
def groupIds (items : List TerminalWorkItemRecord) (state : TerminalWorkItemState) : List String :=
  sortedBy id ((items.filter fun item => item.val.state = state).map (·.val.itemId))

theorem groupIds_perm (items : List TerminalWorkItemRecord) (state : TerminalWorkItemState) :
    (groupIds items state).Perm
      ((items.filter fun item => item.val.state = state).map (·.val.itemId)) :=
  List.perm_insertionSort _ _

theorem TerminalWorkItemState.all_nodup : TerminalWorkItemState.all.Nodup := by decide

theorem TerminalWorkItemState.mem_all (state : TerminalWorkItemState) :
    state ∈ TerminalWorkItemState.all := by cases state <;> decide

theorem groupIds_partition (items : List TerminalWorkItemRecord) :
    (TerminalWorkItemState.all.flatMap (groupIds items)).Perm (items.map (·.val.itemId)) :=
  Grouping.flatMap_groups_perm (fun item : TerminalWorkItemRecord => item.val.state)
    TerminalWorkItemState.all_nodup TerminalWorkItemState.mem_all items _ _ (groupIds_perm items)

theorem groupIds_passes (hnodup : (items.map (·.val.itemId)).Nodup)
    (state : TerminalWorkItemState) :
    TerminalStateGroup.postInit ⟨state, (groupIds items state).length, groupIds items state⟩ =
      .ok () := by
  simp only [TerminalStateGroup.postInit, except_seq_eq_ok, require_eq_ok, true_and]
  have hperm := groupIds_perm items state
  refine ⟨fun i hi => ?_, hperm.nodup_iff.2 (hnodup.sublist (List.filter_sublist.map _))⟩
  obtain ⟨item, -, rfl⟩ := List.mem_map.1 (hperm.subset hi)
  exact item.texts.2

theorem classifyTerminalJob_returns {states : List TerminalWorkItemState} (h : states ≠ [])
    (cause : JobTerminalCause) : ∃ c, classifyTerminalJob states cause = .ok c := by
  unfold classifyTerminalJob
  rw [if_neg (by simpa using h)]
  split_ifs <;> exact ⟨_, rfl⟩

theorem buildTerminalReport_returns {jobId : String} (hne : items ≠ [])
    (hjob : ∀ item ∈ items, item.val.jobId = jobId) (hnodup : (items.map (·.val.itemId)).Nodup)
    (cause : JobTerminalCause) (completedAt : DateTime) :
    ∃ report, buildTerminalReport jobId items cause completedAt = .ok report ∧
      (report.val.groups.flatMap (·.val.itemIds)).Perm (items.map (·.val.itemId)) := by
  have hgroups : TerminalWorkItemState.all.mapM (terminalStateGroup items) =
      .ok (TerminalWorkItemState.all.map fun state => ⟨_, groupIds_passes hnodup state⟩) := by
    have hgroup : terminalStateGroup items = fun state => pure ⟨_, groupIds_passes hnodup state⟩ :=
      funext fun state => Checked.make_of_passed (groupIds_passes hnodup state)
    rw [hgroup, List.mapM_pure]
    rfl
  have hstates : items.map (·.val.state) ≠ [] := by simpa using hne
  obtain ⟨classification, hclass⟩ := classifyTerminalJob_returns hstates cause
  obtain ⟨first, hfirst⟩ := List.exists_mem_of_ne_nil items hne
  have hperm := groupIds_partition items
  unfold buildTerminalReport
  rw [require_of hne, require_of hjob, require_of hnodup, hgroups, hclass]
  refine ⟨_, Checked.make_of_passed ?_, by simpa [List.flatMap_map] using hperm⟩
  have hids : (TerminalWorkItemState.all.flatMap (groupIds items)).length = items.length := by
    simpa using hperm.length_eq
  simp only [TerminalJobReport.postInit, except_seq_eq_ok, requireText_eq_ok, require_eq_ok,
    List.flatMap_map, List.map_map]
  refine ⟨hjob first hfirst ▸ first.texts.1, List.length_pos_iff.2 hne, ?_, hids.symm,
    hperm.nodup_iff.2 hnodup⟩
  exact List.map_id _

end Report

section Executor

variable {env : Environment} {jobId : String} {cause : JobTerminalCause}

theorem emitState_returns (ports : ExecutorPorts env) (jobId : String) (w : World) :
    ∃ w', (BulkWorkExecutor.emitState env jobId).exec w = (.ok (), w') := by
  obtain ⟨now, hnow, haware⟩ := ports.clock w.moment
  unfold BulkWorkExecutor.emitState
  rw [exec_bind, exec_get]
  simp only
  rw [exec_bind, exec_ask, hnow]
  simp only
  rw [exec_bind, exec_liftExcept, DateTime.minus, if_pos (haware.trans ports.started.symm)]
  simp only
  rw [exec_bind, exec_liftExcept, Checked.make_of_passed (by
    rw [BulkStateTelemetry.postInit, require_eq_ok]; rfl)]
  simp only [exec_ask, ports.sink]
  exact ⟨_, rfl⟩

theorem terminalReport_returns_iff (ports : ExecutorPorts env) {w : World}
    (hs : w.store.StoreInvariant) :
    (∃ report w', (BulkWorkExecutor.terminalReport env jobId cause).exec w = (.ok report, w') ∧
      Partitions report ((w.store.itemsOf jobId).map (·.val.itemId))) ↔
    w.store.itemsOf jobId ≠ [] ∧
      (w.store.terminalItems jobId).length = (w.store.itemsOf jobId).length := by
  unfold BulkWorkExecutor.terminalReport
  rw [exec_bind, exec_get]
  simp only
  by_cases hempty : w.store.itemsOf jobId = []
  · simp [hempty]
  rw [if_neg (by simpa using hempty)]
  by_cases hlen : (w.store.terminalItems jobId).length = (w.store.itemsOf jobId).length
  · rw [if_neg (not_not.2 hlen)]
    simp only [hempty, hlen, ne_eq, not_false_eq_true, true_and, iff_true]
    obtain ⟨now, hnow, haware⟩ := ports.clock w.moment
    have hne : w.store.terminalItems jobId ≠ [] := by
      intro h
      rw [h, List.length_nil] at hlen
      exact hempty (List.length_eq_zero_iff.1 hlen.symm)
    obtain ⟨report, hreport, hperm⟩ := buildTerminalReport_returns hne
      (fun r hr => (hs.mem_terminalItems.1 hr).2) hs.terminalItems_nodup cause now
    obtain ⟨w', hw'⟩ := emitState_returns ports jobId { w with moment := w.moment + 1 }
    rw [exec_bind, exec_ask, hnow]
    simp only
    rw [exec_bind, exec_liftExcept, hreport]
    simp only
    rw [exec_bind, hw']
    have hnames := hs.terminalItems_names (hs.terminalItems_complete_iff.1 hlen)
    exact ⟨report, w', rfl, hperm.trans hnames, hs.itemsOf_nodup⟩
  · rw [if_pos hlen]
    simp [hlen]

end Executor

theorem effectMachine_invariant (env : Environment) (calls : List EffectCall) :
    ((effectMachine env).run .empty calls).store.StoreInvariant := by
  refine Machine.run_invariant (P := fun w : World => w.store.StoreInvariant) (fun call w hs => ?_)
    empty_invariant calls
  cases call with
  | execute request context =>
    rw [effectMachine, EffectCall.action, exec_map]
    exact (EffectRecoveryCoordinator.execute_changes w).invariant hs
  | work call =>
    rw [effectMachine, EffectCall.action, exec_map]
    exact (call_change call w.store).invariant hs

theorem terminal_iff_no_checkpoint {s : WorkRepository} {jobId : String} (hs : s.StoreInvariant)
    (hf : Finished s jobId) :
    (∀ item ∈ s.itemsOf jobId, ∃ r, s.terminal.get? (itemKey item) = some r) ↔
      ∀ item ∈ s.itemsOf jobId, ¬s.LastStageRecorded (itemKey item) := by
  refine forall₂_congr fun item hitem => ⟨fun ⟨r, hr⟩ => hs.recorded.once _ r hr, fun hnot => ?_⟩
  have hclosed : s.Closed (itemKey item) := ⟨item, (hs.mem_itemsOf.1 hitem).1, hf item hitem⟩
  exact ((hs.recorded.closed _).1 hclosed).resolve_right hnot

/-- Every finished job can be reported, and its report places each of its items in exactly
one terminal state, if and only if the job has an item and none of its items was
completed by a checkpoint of the last stage. -/
theorem finished_job_reported_iff (env : Environment) (ports : ExecutorPorts env)
    (calls : List EffectCall) (jobId : String) (cause : JobTerminalCause)
    (hf : Finished ((effectMachine env).run .empty calls).store jobId) :
    (∃ report w', (BulkWorkExecutor.terminalReport env jobId cause).exec
        ((effectMachine env).run .empty calls) = (.ok report, w') ∧
      Partitions report
        ((((effectMachine env).run .empty calls).store.itemsOf jobId).map (·.val.itemId))) ↔
    ((effectMachine env).run .empty calls).store.itemsOf jobId ≠ [] ∧
      ∀ item ∈ ((effectMachine env).run .empty calls).store.itemsOf jobId,
        ¬((effectMachine env).run .empty calls).store.LastStageRecorded (itemKey item) := by
  have hs := effectMachine_invariant env calls
  rw [terminalReport_returns_iff ports hs, hs.terminalItems_complete_iff,
    terminal_iff_no_checkpoint hs hf]

namespace Sample

/-- The sample item, terminalized under its first lease. -/
def terminalized : List EffectCall :=
  [.work create, .work (claimAt "worker-resumed" 0),
    .work (.terminalize key "worker-resumed" .succeeded none none (time 5) none)]

/-- The sample item, completed by its committed write-back under its first lease. -/
def writtenBack : List EffectCall :=
  [.work create, .work (claimAt "worker-resumed" 0), .execute effectRequest context]

end Sample

/-- A job whose only item was completed by its committed write-back is finished and has
no report. -/
theorem written_back_job_unreported :
    Finished ((effectMachine (Sample.committing 5)).run .empty Sample.writtenBack).store
      "bulk-job" ∧
    ((BulkWorkExecutor.terminalReport (Sample.committing 5) "bulk-job" .completed).exec
      ((effectMachine (Sample.committing 5)).run .empty Sample.writtenBack)).1 =
      .error (.valueError "terminal report requires every work item to be terminal") := by
  decide +kernel

/-- The job of the terminalized sample item is reported. -/
theorem finished_job_reported_sample :
    ∃ report w', (BulkWorkExecutor.terminalReport (Sample.environment 5) "bulk-job"
        .completed).exec
        ((effectMachine (Sample.environment 5)).run .empty Sample.terminalized) =
      (.ok report, w') ∧
      Partitions report ((((effectMachine (Sample.environment 5)).run .empty
        Sample.terminalized).store.itemsOf "bulk-job").map (·.val.itemId)) :=
  (finished_job_reported_iff (Sample.environment 5)
    ⟨fun _ => ⟨Sample.time 5, rfl, rfl⟩, rfl, fun _ _ => rfl⟩ Sample.terminalized "bulk-job"
    .completed (by decide +kernel)).2 (by decide +kernel)

end AiRetrieval
