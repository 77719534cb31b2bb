import AiRetrieval.Sanity.CoordinatorOutcomes
import AiRetrieval.Sanity.EffectMoves
import AiRetrieval.Sanity.PipelineMoves
import AiRetrieval.Sanity.WriteBackMoves

/-! The stages a worker runs beside what is recorded: an item has been attempted once for
each of its stage runs, each run works on the successor of what it found recorded, and what
it found is a prefix of what is recorded now. -/

namespace AiRetrieval

open Program AiRetrieval.Action WorkRepository

def successor (recorded : List CheckpointStage) : Option CheckpointStage :=
  match recorded.getLast? with
  | some stage => stage.next
  | none => some .accepted

theorem successor_eq_accepted {recorded : List CheckpointStage} :
    successor recorded = some .accepted ↔ recorded = [] := by
  rcases List.eq_nil_or_concat recorded with rfl | ⟨rest, stage, rfl⟩
  · simp [successor]
  · simp only [successor, List.concat_eq_append, List.getLast?_append, List.getLast?_singleton,
      Option.some_or, List.append_eq_nil_iff, List.cons_ne_self, and_false, iff_false]
    cases stage <;> decide

theorem resumeState_eq {s : WorkRepository} {jobId idempotencyKey : String} {item : WorkItemRecord}
    (h : s.items.get? (jobId, idempotencyKey) = some item) :
    ∃ state, (resumeState jobId idempotencyKey).exec s = (.ok state, s) ∧
      state.nextStage = successor (s.recordedStages (jobId, idempotencyKey)) := by
  refine ⟨_, by
    unfold resumeState
    rw [exec_bind, exec_get]
    simp only
    rw [exec_bind, exec_liftExcept, requireItem_eq_ok.2 h]
    rfl, ?_⟩
  unfold successor recordedStages latest
  rw [List.getLast?_map]
  cases (s.checkpointsOf (jobId, idempotencyKey)).getLast? <;> rfl

def runsOf (w : World) (key : Key) : List StageRun := w.stageRuns.filter fun run => run.key = key

/-- What links the stage runs to the store, while at most one item is claimed and its run not
yet begun. -/
structure Tracked (pending : Option Key) (w : World) : Prop where
  store : w.store.StoreInvariant
  attempts : ∀ key item, w.store.items.get? key = some item →
    item.val.attemptCount = (runsOf w key).length + if pending = some key then 1 else 0
  terminal : ∀ key r, w.store.terminal.get? key = some r →
    r.val.attemptCount = (runsOf w key).length
  known : ∀ key, w.store.items.get? key = none → runsOf w key = []
  recorded : ∀ run ∈ w.stageRuns, run.recorded <+: w.store.recordedStages run.key
  staged : ∀ run ∈ w.stageRuns, run.stage = successor run.recorded
  first : ∀ key, w.store.recordedStages key ≠ [] → ∃ run ∈ runsOf w key, run.recorded = []
  running : ∀ key item, w.store.items.get? key = some item → item.val.state = .inProgress →
    pending = some key ∨ ∃ run ∈ runsOf w key, run.recorded = w.store.recordedStages key
  ended : ∀ key r, w.store.terminal.get? key = some r →
    ∃ run ∈ runsOf w key, run.recorded = w.store.recordedStages key
  unended : ∀ key, pending = some key → w.store.terminal.get? key = none

section Steps

variable {w w' : World} {pending : Option Key} {key : Key}

theorem Tracked.empty : Tracked none .empty where
  store := empty_invariant
  attempts _ _ h := by cases h
  terminal _ _ h := by cases h
  known _ _ := rfl
  recorded _ h := by cases h
  staged _ h := by cases h
  first _ h := absurd rfl h
  running _ _ h := by cases h
  ended _ _ h := by cases h
  unended _ h := by cases h

theorem Tracked.of_same (hw : Tracked pending w) (hs : w'.store.StoreInvariant)
    (hitems : w'.store.items = w.store.items)
    (hcheckpoints : w'.store.checkpoints = w.store.checkpoints)
    (hterminal : w'.store.terminal = w.store.terminal) (hruns : w'.stageRuns = w.stageRuns) :
    Tracked pending w' := by
  have hof : runsOf w' = runsOf w := by
    unfold runsOf
    rw [hruns]
  have hstages : w'.store.recordedStages = w.store.recordedStages := by
    unfold recordedStages checkpointsOf
    rw [hcheckpoints]
  constructor
  · exact hs
  · rw [hitems, hof]; exact hw.attempts
  · rw [hterminal, hof]; exact hw.terminal
  · rw [hitems, hof]; exact hw.known
  · rw [hruns, hstages]; exact hw.recorded
  · rw [hruns]; exact hw.staged
  · rw [hof, hstages]; exact hw.first
  · rw [hitems, hof, hstages]; exact hw.running
  · rw [hterminal, hof, hstages]; exact hw.ended
  · rw [hterminal]; exact hw.unended

theorem Tracked.created (hw : Tracked none w) {item : WorkItemRecord} {outbox : OutboxRecord}
    (issued : Issued item outbox) (h : Creates w.store item outbox)
    (hstore : w'.store = w.store.putCreated item outbox) (hruns : w'.stageRuns = w.stageRuns) :
    Tracked none w' := by
  have hof : runsOf w' = runsOf w := by
    unfold runsOf
    rw [hruns]
  have hinv := (Change.created issued h).invariant hw.store
  constructor
  · rw [hstore]; exact hinv
  · intro k found hfound
    rw [hstore, putCreated] at hfound
    rw [hof]
    by_cases hk : k = (item.val.jobId, item.val.idempotencyKey)
    · subst hk
      rw [Dict.get?_insert_self, Option.some.injEq] at hfound
      rw [← hfound, issued.attempts, hw.known _ h.freeKey]
      rfl
    · rw [Dict.get?_insert_of_ne _ _ hk] at hfound
      exact hw.attempts k found hfound
  · rw [hstore, hof]; exact hw.terminal
  · intro k hk
    rw [hstore, putCreated, Dict.get?_insert] at hk
    rw [hof]
    split at hk
    · cases hk
    · exact hw.known k hk
  · rw [hstore, hruns]; exact hw.recorded
  · rw [hruns]; exact hw.staged
  · rw [hstore, hof]; exact hw.first
  · intro k found hfound hstate
    rw [hstore, putCreated] at hfound
    rw [hstore, hof]
    by_cases hk : k = (item.val.jobId, item.val.idempotencyKey)
    · subst hk
      rw [Dict.get?_insert_self, Option.some.injEq] at hfound
      rw [← hfound, issued.pending] at hstate
      cases hstate
    · rw [Dict.get?_insert_of_ne _ _ hk] at hfound
      exact hw.running k found hfound hstate
  · rw [hstore, hof]; exact hw.ended
  · intro k hk
    cases hk

theorem Tracked.acquired (hw : Tracked none w) {owner : String} {now : DateTime} {d : TimeDelta}
    {current claimed : WorkItemRecord} (h : Acquires w.store key owner now d current claimed)
    (hstore : w'.store = w.store.putItem key claimed) (hruns : w'.stageRuns = w.stageRuns) :
    Tracked (some key) w' := by
  have hof : runsOf w' = runsOf w := by
    unfold runsOf
    rw [hruns]
  have hinv := (Change.acquired h).invariant hw.store
  have hunended : w.store.terminal.get? key = none :=
    hw.store.recorded.no_terminal h.replaces.not_closed
  constructor
  · rw [hstore]; exact hinv
  · intro k found hfound
    rw [hstore, putItem] at hfound
    rw [hof]
    by_cases hk : k = key
    · subst hk
      rw [Dict.get?_insert_self, Option.some.injEq] at hfound
      have hcurrent := hw.attempts k current h.found
      rw [← hfound, h.value, if_pos rfl]
      simp only [reduceCtorEq, if_false, Nat.add_zero] at hcurrent
      simp [acquiredFields, hcurrent]
    · rw [Dict.get?_insert_of_ne _ _ hk] at hfound
      rw [hw.attempts k found hfound, if_neg (by simp), if_neg (by simpa using fun h => hk h.symm)]
  · rw [hstore, hof]; exact hw.terminal
  · intro k hk
    rw [hstore, putItem, Dict.get?_insert] at hk
    rw [hof]
    split at hk
    · cases hk
    · exact hw.known k hk
  · rw [hstore, hruns]; exact hw.recorded
  · rw [hruns]; exact hw.staged
  · rw [hstore, hof]; exact hw.first
  · intro k found hfound hstate
    rw [hstore, putItem] at hfound
    rw [hstore, hof]
    by_cases hk : k = key
    · exact Or.inl (hk ▸ rfl)
    · rw [Dict.get?_insert_of_ne _ _ hk] at hfound
      exact Or.inr ((hw.running k found hfound hstate).resolve_left (by simp))
  · rw [hstore, hof]; exact hw.ended
  · intro k hk
    obtain rfl : key = k := Option.some.inj hk
    rw [hstore]
    exact hunended

def withRun (w : World) (run : StageRun) : World := { w with stageRuns := w.stageRuns ++ [run] }

theorem runsOf_withRun (run : StageRun) (k : Key) :
    runsOf (withRun w run) k = runsOf w k ++ if run.key = k then [run] else [] := by
  unfold runsOf withRun
  rw [List.filter_append]
  congr 1
  by_cases h : run.key = k <;> simp [h]

theorem mem_runsOf_withRun {run run' : StageRun} {k : Key} (h : run' ∈ runsOf w k) :
    run' ∈ runsOf (withRun w run) k := by
  rw [runsOf_withRun]
  exact List.mem_append_left _ h

/-- The run of the claimed item begins. -/
theorem Tracked.noted (hw : Tracked (some key) w) {item : WorkItemRecord}
    (hitem : w.store.items.get? key = some item) {run : StageRun} (hkey : run.key = key)
    (hrecorded : run.recorded = w.store.recordedStages key)
    (hstage : run.stage = successor run.recorded) : Tracked none (withRun w run) := by
  constructor
  · exact hw.store
  · intro k item hfound
    have hcount := hw.attempts k item hfound
    rw [runsOf_withRun, List.length_append, hkey]
    by_cases hk : key = k <;> simpa [hk] using hcount
  · intro k r hr
    have hne : run.key ≠ k := by
      rintro rfl
      rw [show (withRun w run).store.terminal.get? run.key = _ from hw.unended _
        (by rw [hkey])] at hr
      cases hr
    rw [runsOf_withRun, if_neg hne, List.append_nil]
    exact hw.terminal k r hr
  · intro k hk
    have hne : run.key ≠ k := by
      rintro rfl
      rw [show (withRun w run).store.items.get? run.key = _ from hkey ▸ hitem] at hk
      cases hk
    rw [runsOf_withRun, if_neg hne, List.append_nil]
    exact hw.known k hk
  · intro run' hrun
    rcases List.mem_append.1 hrun with h | h
    · exact hw.recorded run' h
    · obtain rfl := List.mem_singleton.1 h
      rw [hrecorded, hkey]
      exact List.prefix_refl _
  · intro run' hrun
    rcases List.mem_append.1 hrun with h | h
    · exact hw.staged run' h
    · obtain rfl := List.mem_singleton.1 h
      exact hstage
  · intro k hk
    obtain ⟨run', hrun, hfirst⟩ := hw.first k hk
    exact ⟨run', mem_runsOf_withRun hrun, hfirst⟩
  · intro k item hfound hstate
    right
    rcases hw.running k item hfound hstate with hk | ⟨run', hrun, hrec⟩
    · obtain rfl : key = k := Option.some.inj hk
      refine ⟨run, ?_, hrecorded⟩
      rw [runsOf_withRun, if_pos hkey]
      exact List.mem_append_right _ (List.mem_singleton_self _)
    · exact ⟨run', mem_runsOf_withRun hrun, hrec⟩
  · intro k r hr
    obtain ⟨run', hrun, hend⟩ := hw.ended k r hr
    exact ⟨run', mem_runsOf_withRun hrun, hend⟩
  · intro k hk
    cases hk

/-- The run of an item in progress ends it or records its stage: in both cases the item is
released, and what the run found recorded was up to date. -/
theorem Tracked.released (hw : Tracked none w) {current next : WorkItemRecord}
    (hr : Replaces w.store w'.store key current next) (hprogress : current.val.state = .inProgress)
    (hattempts : next.val.attemptCount = current.val.attemptCount)
    (hstopped : next.val.state ≠ .inProgress) (hs : w'.store.StoreInvariant)
    (hruns : w'.stageRuns = w.stageRuns)
    (hother : ∀ k, k ≠ key → w'.store.recordedStages k = w.store.recordedStages k)
    (hbegins : w.store.recordedStages key <+: w'.store.recordedStages key)
    (hterminal : ∀ k r, w'.store.terminal.get? k = some r →
      k ≠ key ∧ w.store.terminal.get? k = some r ∨ k = key ∧
        r.val.attemptCount = current.val.attemptCount ∧
        w'.store.recordedStages key = w.store.recordedStages key) : Tracked none w' := by
  have hof : runsOf w' = runsOf w := by
    unfold runsOf
    rw [hruns]
  obtain ⟨run, hrun, hrecorded⟩ :=
    (hw.running key current hr.found hprogress).resolve_left (by simp)
  have hcount := hw.attempts key current hr.found
  simp only [reduceCtorEq, if_false, Nat.add_zero] at hcount
  constructor
  · exact hs
  · intro k item hitem
    rw [hr.get?] at hitem
    rw [hof]
    by_cases hk : k = key
    · rw [if_pos hk, Option.some.injEq] at hitem
      simp [← hitem, hattempts, hcount, hk]
    · rw [if_neg hk] at hitem
      exact hw.attempts k item hitem
  · intro k r hk
    rw [hof]
    rcases hterminal k r hk with ⟨-, hold⟩ | ⟨rfl, hnew, -⟩
    · exact hw.terminal k r hold
    · rw [hnew, hcount]
  · intro k hk
    rw [hr.get?] at hk
    rw [hof]
    split at hk
    · cases hk
    · exact hw.known k hk
  · intro run' hrun'
    rw [hruns] at hrun'
    have hold := hw.recorded run' hrun'
    by_cases hk : run'.key = key
    · rw [hk] at hold ⊢
      exact hold.trans hbegins
    · rwa [hother _ hk]
  · rw [hruns]
    exact hw.staged
  · intro k hk
    rw [hof]
    by_cases hkey : k = key
    · subst hkey
      by_cases hnone : w.store.recordedStages k = []
      · exact ⟨run, hrun, hrecorded.trans hnone⟩
      · exact hw.first k hnone
    · rw [hother k hkey] at hk
      exact hw.first k hk
  · intro k item hitem hstate
    right
    rw [hr.get?] at hitem
    rw [hof]
    by_cases hk : k = key
    · rw [if_pos hk, Option.some.injEq] at hitem
      exact absurd (hitem ▸ hstate) hstopped
    · rw [if_neg hk] at hitem
      rw [hother k hk]
      exact (hw.running k item hitem hstate).resolve_left (by simp)
  · intro k r hk
    rw [hof]
    rcases hterminal k r hk with ⟨hne, hold⟩ | ⟨rfl, -, hsame⟩
    · rw [hother k hne]
      exact hw.ended k r hold
    · rw [hsame]
      exact ⟨run, hrun, hrecorded⟩
  · intro k hk
    cases hk

theorem Tracked.checkpointed (hw : Tracked none w) {owner : String} {stage : CheckpointStage}
    {outcome : String} {now : DateTime} {ref : Option ObjectReference}
    {current updated : WorkItemRecord} {record : CheckpointRecord}
    (h : Checkpoints w.store key owner stage outcome now ref current updated record)
    (hstore : w'.store = w.store.putCheckpoint key updated record)
    (hruns : w'.stageRuns = w.stageRuns) : Tracked none w' := by
  have hstages : ∀ k, w'.store.recordedStages k =
      if k = key then w.store.recordedStages key ++ [stage] else w.store.recordedStages k := by
    intro k
    unfold recordedStages
    rw [hstore, checkpointsOf_putCheckpoint]
    by_cases hk : k = key
    · rw [if_pos hk, if_pos hk, List.map_append, List.map_singleton, h.checkpoint]
    · rw [if_neg hk, if_neg hk]
  have hunended : w.store.terminal.get? key = none :=
    hw.store.recorded.no_terminal h.replaces.not_closed
  have hinv := (Change.checkpointed h).invariant hw.store
  have hreplaces := h.replaces
  rw [← hstore] at hinv hreplaces
  refine hw.released hreplaces h.owned.inProgress (by rw [h.value]; rfl) ?_ hinv hruns ?_ ?_ ?_
  · rw [h.value]
    change (if stage = .completed then WorkState.completed else .checkpointed) ≠ .inProgress
    split <;> decide
  · intro k hk
    rw [hstages, if_neg hk]
  · rw [hstages, if_pos rfl]
    exact List.prefix_append _ _
  · intro k r hr
    rw [hstore] at hr
    refine Or.inl ⟨?_, hr⟩
    rintro rfl
    rw [show (w.store.putCheckpoint k updated record).terminal.get? k = _ from hunended] at hr
    cases hr

theorem Tracked.settled (hw : Tracked none w) {owner : String} {state : TerminalWorkItemState}
    {code details : Option String} {now : DateTime} {ref : Option ObjectReference}
    {current completed : WorkItemRecord} {record : TerminalWorkItemRecord}
    (h : Terminalizes w.store key owner state code details now ref current completed record)
    (hstore : w'.store = w.store.putTerminal key completed record)
    (hruns : w'.stageRuns = w.stageRuns) : Tracked none w' := by
  have hstages : w'.store.recordedStages = w.store.recordedStages := by
    rw [hstore]
    rfl
  have hinv := (Change.settled h).invariant hw.store
  have hreplaces := h.replaces
  rw [← hstore] at hinv hreplaces
  refine hw.released hreplaces h.owned.inProgress (by rw [h.value]; rfl) ?_ hinv hruns ?_ ?_ ?_
  · rw [h.value]
    change WorkState.completed ≠ .inProgress
    decide
  · intro k _
    rw [hstages]
  · rewrite [hstages]
    exact List.prefix_refl _
  · intro k r hr
    rw [hstore, putTerminal] at hr
    by_cases hk : k = key
    · subst hk
      rw [Dict.get?_insert_self, Option.some.injEq] at hr
      exact Or.inr ⟨rfl, by rw [← hr, h.terminal], by rw [hstages]⟩
    · rw [Dict.get?_insert_of_ne _ _ hk] at hr
      exact Or.inl ⟨hk, hr⟩

end Steps

def KeepsTracked (w w' : World) : Prop := Tracked none w → Tracked none w'

instance : IsPreorder World KeepsTracked where
  refl _ h := h
  trans _ _ _ h h' hw := h' (h hw)

section Stages

theorem Quiet.keepsTracked {w w' : World} (h : Quiet w w') : KeepsTracked w w' := by
  rw [h]
  exact fun hw => hw.of_same hw.store rfl rfl rfl rfl

theorem checkpoint_keepsTracked (jobId idempotencyKey owner : String) (stage : CheckpointStage)
    (outcome : String) (now : DateTime) (ref : Option ObjectReference) :
    Moves KeepsTracked (onStore (WorkRepository.checkpoint jobId idempotencyKey owner stage outcome
      now ref)) := by
  intro w hw
  have hout := checkpoint_outcome w.store jobId idempotencyKey owner stage outcome now ref
  unfold after
  rw [exec_onStore]
  generalize (checkpoint _ _ _ _ _ _ _).exec w.store = r at hout
  cases hout with
  | raised e => exact hw
  | repeated current last owned latest same => exact hw
  | recorded current updated record h => exact hw.checkpointed h rfl rfl

theorem terminalize_keepsTracked (jobId idempotencyKey owner : String)
    (state : TerminalWorkItemState) (code details : Option String) (now : DateTime)
    (ref : Option ObjectReference) :
    Moves KeepsTracked (onStore (WorkRepository.terminalize jobId idempotencyKey owner state code
      details now ref)) := by
  intro w hw
  have hout := terminalize_outcome w.store jobId idempotencyKey owner state code details now ref
  unfold after
  rw [exec_onStore]
  generalize (terminalize _ _ _ _ _ _ _ _).exec w.store = r at hout
  cases hout with
  | raised e => exact hw
  | repeated existing found same => exact hw
  | settled current completed record h => exact hw.settled h rfl rfl

theorem saveEffect_keepsTracked (record : EffectRecord) :
    Moves KeepsTracked (onStore (WorkRepository.saveEffect record)) := by
  intro w hw
  have hout := saveEffect_outcome w.store record
  have hinv := hout.change.invariant hw.store
  unfold after
  rw [exec_onStore]
  generalize (saveEffect record).exec w.store = r at hout hinv
  cases hout <;> exact hw.of_same hinv rfl rfl rfl rfl

theorem saveReconciliation_keepsTracked (record : ReconciliationRecord) :
    Moves KeepsTracked (onStore (WorkRepository.saveReconciliation record)) := by
  intro w hw
  have hout := saveReconciliation_outcome w.store record
  have hinv := hout.change.invariant hw.store
  unfold after
  rw [exec_onStore]
  generalize (saveReconciliation record).exec w.store = r at hout hinv
  cases hout <;> exact hw.of_same hinv rfl rfl rfl rfl

theorem recovery_keepsTracked : EffectRecoveryCoordinator.RecoveryMoves KeepsTracked where
  quiet _ _ h := h.keepsTracked
  checkpoint := checkpoint_keepsTracked
  saveEffect := saveEffect_keepsTracked
  saveReconciliation := saveReconciliation_keepsTracked

theorem afterTerminal_keepsTracked : AfterTerminalMoves KeepsTracked where
  quiet _ _ h := h.keepsTracked
  deadLetters _ _ hw := hw.of_same hw.store rfl rfl rfl rfl
  usage _ _ hw := hw.of_same hw.store rfl rfl rfl rfl
  failure outcome := by
    intro w hw
    have hsame := recordPersistenceFailure_same outcome w.store
    unfold after at hsame
    unfold after
    rw [exec_onStore, hsame]
    exact hw.of_same ((Change.failureRecorded _).invariant hw.store) rfl rfl rfl rfl

theorem stage_keepsTracked (app : PrototypeApplication) :
    BulkPipeline.StageMoves app KeepsTracked where
  quiet _ _ h := h.keepsTracked
  statuses _ _ hw := hw.of_same hw.store rfl rfl rfl rfl
  checkpoint := checkpoint_keepsTracked
  execute claim _ := executeClaim_moves afterTerminal_keepsTracked terminalize_keepsTracked
    claim fun _ => moves_pure _
  writeBack _ _ := BatchWriteBackExecutor.execute_moves (fun _ _ h => h.keepsTracked)
    (fun _ => EffectRecoveryCoordinator.execute_moves recovery_keepsTracked
      fun _ _ hw => hw.of_same hw.store rfl rfl rfl rfl)
    fun _ _ hw => hw.of_same hw.store rfl rfl rfl rfl

theorem Invokes.keepsTracked {key : Key} {w w' : World} (h : Invokes key w w') :
    KeepsTracked w w' := by
  rw [h.rest]
  exact fun hw => hw.of_same hw.store rfl rfl rfl rfl

variable {app : PrototypeApplication} {w : World} {key : Key}

theorem stageBody_tracked {claim : WorkClaim} (context : ExecutionContext)
    (hkey : claimKey claim = key) (hw : Tracked (some key) w) {item : WorkItemRecord}
    (hitem : w.store.items.get? key = some item) :
    Tracked none ((BulkPipeline.stageBody app claim context).after w) := by
  subst hkey
  have hfound : w.store.items.get? (claim.item.val.jobId, claim.item.val.idempotencyKey) =
    some item := hitem
  obtain ⟨state, hstate, hnext⟩ := resumeState_eq hfound
  unfold BulkPipeline.stageBody after
  rw [exec_bind, exec_onStore, hstate]
  simp only
  rw [exec_bind]
  change Tracked none (Program.after _ (withRun w ⟨claimKey claim, _, state.nextStage⟩))
  have hnoted : Tracked none (withRun w ⟨claimKey claim,
    w.store.recordedStages (claimKey claim), state.nextStage⟩) := hw.noted hitem rfl rfl hnext
  refine (moves_bind (R := KeepsTracked) ?_ fun task => moves_ite ?_ ?_) _ hnoted
  · exact moves_mono (BulkPipeline.isTask_quiet _) fun _ _ h => h.keepsTracked
  · refine BulkPipeline.processTask_moves
      (stage_keepsTracked app) claim context _ fun _ prepared => ?_
    exact moves_mono (BulkPipeline.invokePacks_invokes prepared) fun _ _ h => h.keepsTracked
  · exact BulkPipeline.processLegacy_moves (stage_keepsTracked app) claim context _

theorem processStage_tracked {claim : WorkClaim} (context : ExecutionContext)
    (hkey : claimKey claim = key) (hw : Tracked (some key) w) {item : WorkItemRecord}
    (hitem : w.store.items.get? key = some item) :
    Tracked none ((BulkPipeline.processStage app claim context).after w) := by
  refine after_handling (P := Tracked none) (stageBody_tracked context hkey hw hitem)
    fun error y t hfailure hbody => ?_
  exact BulkPipeline.stageFailure_moves (stage_keepsTracked app) claim hfailure t hbody

/-- One round of `resume`, from the claim on. -/
theorem claim_tracked {worker : BulkWorker} {key : Key} {owner : String} {now : DateTime}
    (hw : Tracked none w) {r : Except PyError WorkClaim} {t : World}
    (h : (onStore (WorkRepository.claim key.1 key.2 owner now worker.val.leaseDuration)).exec w =
      (r, t)) :
    (Tracked none t ∧ ∀ claim, r = .ok claim → ¬claim.acquired) ∨ ∃ claim, r = .ok claim ∧
      claim.acquired ∧ claimKey claim = key ∧
      Tracked (some key) t ∧ t.store.items.get? key = some claim.item := by
  have hout := claim_outcome w.store key.1 key.2 owner now worker.val.leaseDuration
  rw [exec_onStore] at h
  generalize (WorkRepository.claim _ _ _ _ _).exec w.store = end' at hout h
  cases hout with
  | raised e =>
    cases h
    refine Or.inl ⟨hw, fun claim hc => ?_⟩
    cases hc
  | duplicate current found busy =>
    cases h
    refine Or.inl ⟨hw, fun claim hc => ?_⟩
    cases hc
    exact fun hacquired => by cases hacquired
  | acquired current claimed ha =>
    cases h
    have hfound : (w.store.putItem key claimed).items.get? key = some claimed :=
      Dict.get?_insert_self ..
    have htracked : Tracked (some key) { w with store := w.store.putItem key claimed } :=
      hw.acquired ha rfl rfl
    have hkey := htracked.store.announced.keyed key _ (work?_of_get? hfound)
    exact Or.inr ⟨_, rfl, rfl, hkey.symm, htracked, hfound⟩

theorem rounds_tracked {worker : BulkWorker} (key : Key) (owner : String)
    (context : ExecutionContext) (maxStages : Option Int) (fuel : Nat)
    (results : List BulkStageResult) :
    Moves KeepsTracked (BulkWorker.rounds app.toEnvironment
      (BulkPipeline.processStage app) worker key
      owner context maxStages fuel results) := by
  induction fuel generalizing results with
  | zero => exact moves_pure _
  | succ fuel ih =>
    unfold BulkWorker.rounds
    refine moves_ite (moves_bind ?_ fun state => moves_ite (moves_pure _) ?_) (moves_pure _)
    · intro w
      have hsame := resumeState_same key.1 key.2 w.store
      unfold after at hsame ⊢
      rw [exec_onStore, hsame]
      exact refl_of KeepsTracked w
    refine moves_bind (moves_mono (ask_quiet _) fun _ _ h => h.keepsTracked) fun now => ?_
    intro w hw
    apply after_bind_of
    · intro e t ht
      rcases claim_tracked hw ht with ⟨hsame, -⟩ | ⟨claim, hc, -⟩
      · exact hsame
      · cases hc
    intro claim t ht
    rcases claim_tracked hw ht with ⟨hsame, hfree⟩ | ⟨claim', hc, hacquired, hkey, htracked, hitem⟩
    · rw [if_neg (hfree claim rfl)]
      exact hsame
    · obtain rfl : claim = claim' := Except.ok.inj hc
      rw [if_pos hacquired]
      have hstage : Tracked none ((BulkPipeline.processStage app claim context).after _) :=
        processStage_tracked context hkey htracked hitem
      unfold after at hstage
      apply after_bind_of
      · intro e u hu
        rwa [hu] at hstage
      · intro result u hu
        rw [hu] at hstage
        exact moves_ite (moves_pure _) (ih _) u hstage

theorem resume_tracked {worker : BulkWorker} (key : Key) (owner : String)
    (context : ExecutionContext) (maxStages : Option Int) (fuel : Nat) :
    Moves KeepsTracked (BulkWorker.resume app.toEnvironment
      (BulkPipeline.processStage app) worker key
      owner context maxStages fuel) :=
  moves_ite (moves_throw _) (rounds_tracked key owner context maxStages fuel [])

def KeepsRuns (w w' : World) : Prop := w'.stageRuns = w.stageRuns

instance : IsPreorder World KeepsRuns where
  refl _ := rfl
  trans _ _ _ h h' := Eq.trans h' h

theorem submit_keepsRuns (env : Environment) (submission : WorkSubmission)
    (context : ExecutionContext) :
    Moves KeepsRuns (BulkCoordinator.submit env submission context) := by
  unfold BulkCoordinator.submit
  refine moves_ite (moves_throw _) ?_
  refine moves_bind (fun _ => rfl) fun _ => moves_bind (moves_lift _) fun _ => ?_
  exact moves_bind (fun _ => rfl) fun _ => moves_bind (moves_lift _) fun _ => fun _ => rfl

theorem submit_tracked (env : Environment) (submission : WorkSubmission)
    (context : ExecutionContext) :
    Moves KeepsTracked (BulkCoordinator.submit env submission context) := by
  intro w hw
  obtain ⟨-, reply, hout⟩ := BulkCoordinator.submit_outcome env submission context w
  have hruns := submit_keepsRuns env submission context w
  unfold KeepsRuns at hruns
  generalize (BulkCoordinator.submit env submission context).after w = t at hout hruns
  rcases t with ⟨store⟩
  cases hout with
  | raised e => exact hw.of_same hw.store rfl rfl rfl hruns
  | existing existing => exact hw.of_same hw.store rfl rfl rfl hruns
  | created item outbox issued h => exact hw.created issued h rfl hruns

theorem terminalReport_quiet (env : Environment) (jobId : String) (cause : JobTerminalCause) :
    Moves Quiet (BulkWorkExecutor.terminalReport env jobId cause) := by
  unfold BulkWorkExecutor.terminalReport
  refine moves_bind moves_get fun w => moves_ite (moves_throw _) (moves_ite (moves_throw _) ?_)
  exact moves_bind (ask_quiet _) fun _ => moves_bind (moves_lift _) fun _ =>
    moves_bind (emitState_quiet env jobId) fun _ => moves_pure _

end Stages

end AiRetrieval
