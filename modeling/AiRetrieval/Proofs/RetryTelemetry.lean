import AiRetrieval.Proofs.StaleClaims
import AiRetrieval.Sanity.JobListings
import AiRetrieval.Sanity.StageRuns

/-! What `retry_count` counts. It sums the attempts of the terminal items beyond their first,
and every stage of a worker takes an attempt of its own, so it counts the stages an item
went through as retries. -/

namespace AiRetrieval

open Program AiRetrieval.Action WorkRepository

section Machine

/-- The calls of a job's life: submissions, workers that resume its items, and reports. A
crash is an answer of the outside that stops the process. -/
inductive WorkerCall where
  | submit (submission : WorkSubmission) (context : ExecutionContext)
  | resume (key : Key) (owner : String) (context : ExecutionContext) (maxStages : Option Int)
      (fuel : Nat)
  | report (jobId : String) (cause : JobTerminalCause)

inductive WorkerReply where
  | item (item : WorkItemRecord)
  | resumed (results : Option (List BulkStageResult))
  | report (report : TerminalJobReport)

def WorkerCall.action (app : PrototypeApplication) (worker : BulkWorker) :
    WorkerCall → Action WorkerReply
  | .submit submission context =>
    .item <$> BulkCoordinator.submit app.toEnvironment submission context
  | .resume key owner context maxStages fuel =>
    .resumed <$> BulkWorker.resume app.toEnvironment
      (BulkPipeline.processStage app) worker key owner
      context maxStages fuel
  | .report jobId cause => .report <$> BulkWorkExecutor.terminalReport app.toEnvironment jobId cause

def workerMachine (app : PrototypeApplication) (worker : BulkWorker) :
    Machine WorkerCall (Except PyError WorkerReply) World :=
  fun call w => (call.action app worker).exec w

variable {app : PrototypeApplication} {worker : BulkWorker}

theorem workerMachine_tracked (call : WorkerCall) (w : World) (hw : Tracked none w) :
    Tracked none (workerMachine app worker call w).2 := by
  unfold workerMachine
  cases call with
  | submit submission context =>
    rw [WorkerCall.action, exec_map]
    exact submit_tracked app.toEnvironment submission context w hw
  | resume key owner context maxStages fuel =>
    rw [WorkerCall.action, exec_map]
    exact resume_tracked key owner context maxStages fuel w hw
  | report jobId cause =>
    rw [WorkerCall.action, exec_map]
    exact (terminalReport_quiet app.toEnvironment jobId cause w).keepsTracked hw

theorem worker_run_tracked (calls : List WorkerCall) :
    Tracked none ((workerMachine app worker).run .empty calls) :=
  Machine.run_invariant workerMachine_tracked .empty calls

end Machine

section Emission

variable (env : Environment)

/-- The telemetry `_emit_state` builds from the world at a clock reading. -/
def stateTelemetry (jobId : String) (now : DateTime) (w : World) :
    Except PyError BulkStateTelemetry := do
  let items := w.store.terminalItems jobId
  let states := items.map (·.val.state)
  let usage := (w.usage.get? jobId).getD {}
  let elapsed ← now.minus env.startedAt
  Checked.make BulkStateTelemetry.postInit {
    jobId := jobId
    countsByState := TerminalWorkItemState.all.map fun state => (state, countState states state)
    retryCount := (items.map fun item => item.val.attemptCount - 1).sum
    validationFailureCount := countState states .validationFailed
    deadLetterCount := (w.deadLetters.entriesOf jobId).length
    tokenUsage := usage.tokens
    monetaryCostMinorUnits := usage.cost
    elapsedMs := (max (env.elapsedMs elapsed) 0).toNat
    persistenceFailureCount := (w.store.persistenceFailuresOf jobId).length }

theorem emitState_exec (jobId : String) (w : World) :
    (BulkWorkExecutor.emitState env jobId).exec w =
      match env.clock w.moment with
      | .error e => (.error e, { w with moment := w.moment + 1 })
      | .ok now => match stateTelemetry env jobId now w with
        | .error e => (.error e, { w with moment := w.moment + 1 })
        | .ok telemetry =>
          (env.telemetry (w.moment + 1) telemetry, { w with moment := w.moment + 2 }) := by
  unfold BulkWorkExecutor.emitState stateTelemetry
  rw [exec_bind, exec_get]
  simp only
  rw [exec_bind, exec_ask]
  rcases env.clock w.moment with e | now
  · rfl
  simp only
  rw [exec_bind, exec_liftExcept]
  rcases now.minus env.startedAt with e | elapsed
  · rfl
  simp only
  rw [exec_bind, exec_liftExcept]
  simp only [bind, Except.bind]
  generalize Checked.make BulkStateTelemetry.postInit _ = made
  cases made <;> rfl

end Emission

section Counts

def repeatedRuns (w : World) (key : Key) : Nat :=
  (runsOf w key).length - ((runsOf w key).map (·.stage)).dedup.length

def repeatedStages (w : World) (jobId : String) : Nat :=
  ((w.store.terminalItems jobId).map fun r => repeatedRuns w (terminalKey r)).sum

/-- No terminal item of the job got past its first stage. -/
def EndedInFirstStage (s : WorkRepository) (jobId : String) : Prop :=
  ∀ r ∈ s.terminalItems jobId, s.checkpointsOf (terminalKey r) = []

instance (s : WorkRepository) (jobId : String) : Decidable (EndedInFirstStage s jobId) :=
  inferInstanceAs (Decidable (∀ r ∈ s.terminalItems jobId, _))

variable {w : World} {key : Key} {r : TerminalWorkItemRecord}

theorem recordedStages_eq_nil {s : WorkRepository} :
    s.recordedStages key = [] ↔ s.checkpointsOf key = [] := by
  simp [recordedStages]

/-- An ended item went through one stage exactly when nothing is recorded for it. -/
theorem Tracked.stages_length (hw : Tracked none w) (hr : w.store.terminal.get? key = some r) :
    1 ≤ ((runsOf w key).map (·.stage)).dedup.length ∧
      (((runsOf w key).map (·.stage)).dedup.length = 1 ↔ w.store.checkpointsOf key = []) := by
  obtain ⟨last, hlast, hend⟩ := hw.ended key r hr
  have hmem : ∀ run ∈ runsOf w key, run.stage ∈ ((runsOf w key).map (·.stage)).dedup :=
    fun run hrun => List.mem_dedup.2 (List.mem_map_of_mem hrun)
  have hstaged : ∀ run ∈ runsOf w key, run.stage = successor run.recorded :=
    fun run hrun => hw.staged run (List.mem_filter.1 hrun).1
  have hbegins : ∀ run ∈ runsOf w key, run.recorded <+: w.store.recordedStages key := by
    intro run hrun
    obtain ⟨hin, hkey⟩ := List.mem_filter.1 hrun
    rw [← of_decide_eq_true hkey]
    exact hw.recorded run hin
  refine ⟨List.length_pos_of_mem (hmem last hlast), ?_⟩
  rw [← recordedStages_eq_nil]
  constructor
  · intro hone
    by_contra hne
    obtain ⟨start, hstart, hnone⟩ := hw.first key hne
    obtain ⟨stage, hsingle⟩ := List.length_eq_one_iff.1 hone
    have h1 := hmem last hlast
    have h2 := hmem start hstart
    rw [hsingle, List.mem_singleton] at h1 h2
    have hsame : successor (w.store.recordedStages key) = some .accepted := by
      rw [← hend, ← hstaged last hlast, h1, ← h2, hstaged start hstart, hnone]
      rfl
    exact hne (successor_eq_accepted.1 hsame)
  · intro hnone
    have hall : ∀ stage ∈ ((runsOf w key).map (·.stage)).dedup, stage = some .accepted := by
      intro stage hstage
      obtain ⟨run, hrun, rfl⟩ := List.mem_map.1 (List.mem_dedup.1 hstage)
      have hrec := hbegins run hrun
      rw [hnone, List.prefix_nil] at hrec
      rw [hstaged run hrun, hrec]
      rfl
    have hsub : ((runsOf w key).map (·.stage)).dedup ⊆ [some .accepted] :=
      fun stage hstage => List.mem_singleton.2 (hall stage hstage)
    have hle := (List.subperm_of_subset (List.nodup_dedup _) hsub).length_le
    have hpos := List.length_pos_of_mem (hmem last hlast)
    rw [List.length_singleton] at hle
    omega

theorem sum_sub_eq_iff {α : Type} {f g : α → Nat} {l : List α} (h : ∀ a ∈ l, 1 ≤ g a ∧ g a ≤ f a) :
    (l.map fun a => f a - 1).sum = (l.map fun a => f a - g a).sum ↔ ∀ a ∈ l, g a = 1 := by
  have hle : ∀ l : List α, (∀ a ∈ l, 1 ≤ g a ∧ g a ≤ f a) →
      (l.map fun a => f a - g a).sum ≤ (l.map fun a => f a - 1).sum := by
    intro l hl
    induction l with
    | nil => exact le_rfl
    | cons a rest ih =>
      rw [List.forall_mem_cons] at hl
      have htail := ih hl.2
      rw [List.map_cons, List.map_cons, List.sum_cons, List.sum_cons]
      omega
  induction l with
  | nil => simp
  | cons a rest ih =>
    rw [List.forall_mem_cons] at h
    have htail := hle rest h.2
    have hrest := ih h.2
    rw [List.map_cons, List.map_cons, List.sum_cons, List.sum_cons, List.forall_mem_cons]
    refine ⟨fun hsum => ⟨by omega, hrest.1 (by omega)⟩, fun hall => ?_⟩
    have hsum := hrest.2 hall.2
    omega

theorem Tracked.retryCount_iff (hw : Tracked none w) (jobId : String) :
    ((w.store.terminalItems jobId).map fun item => item.val.attemptCount - 1).sum =
      repeatedStages w jobId ↔ EndedInFirstStage w.store jobId := by
  have hfound : ∀ r ∈ w.store.terminalItems jobId, w.store.terminal.get? (terminalKey r) = some r :=
    fun r hr => (hw.store.mem_terminalItems.1 hr).1
  have hcount : ((w.store.terminalItems jobId).map fun item => item.val.attemptCount - 1) =
      (w.store.terminalItems jobId).map fun r => (runsOf w (terminalKey r)).length - 1 :=
    List.map_congr_left fun r hr => by rw [hw.terminal _ r (hfound r hr)]
  unfold repeatedStages repeatedRuns EndedInFirstStage
  rw [hcount, sum_sub_eq_iff]
  · exact forall₂_congr fun r hr => (hw.stages_length (hfound r hr)).2
  · intro r hr
    refine ⟨(hw.stages_length (hfound r hr)).1, ?_⟩
    have hle := (List.dedup_sublist ((runsOf w (terminalKey r)).map (·.stage))).length_le
    rwa [List.length_map] at hle

end Counts

/-- In every run, whatever the outside answers, the telemetry of a job sent from a state
reached counts the repeated stage executions of the job's terminal items if and only if none
of these items got past its first stage. The sink may stop the process at any telemetry, so
the states reached are also those of the emissions within a call. -/
theorem retry_count_exact_iff (app : PrototypeApplication) (worker : BulkWorker)
    (calls : List WorkerCall) (jobId : String) (now : DateTime) (telemetry : BulkStateTelemetry)
    (h : stateTelemetry app.toEnvironment jobId now ((workerMachine app worker).run .empty calls) =
      .ok telemetry) :
    telemetry.val.retryCount = repeatedStages ((workerMachine app worker).run .empty calls) jobId ↔
      EndedInFirstStage ((workerMachine app worker).run .empty calls).store jobId := by
  have hw : Tracked none ((workerMachine app worker).run .empty calls) := worker_run_tracked calls
  generalize (workerMachine app worker).run .empty calls = w at h hw
  obtain ⟨elapsed, -, hmake⟩ := except_bind_eq_ok.1 h
  rw [Checked.make_eq_ok.1 hmake]
  exact hw.retryCount_iff jobId

namespace Sample

/-- An application whose items are not tasks and pass validation with the label `ok`. -/
def labelling : PrototypeApplication where
  toEnvironment := environment 5
  jsonLoadsText _ := .ok (.dict [])
  jsonLoads _ := .ok (.dict [])
  jsonDumpsFailure _ _ _ := ""
  b64encode _ := ""
  b64decode _ := .ok []
  canonicalPayloadBytes _ := .ok []
  canonicalDefinitionBytes _ := .ok []
  resolveDefinition _ _ := .ok none
  prepare _ _ _ := throw (.raised .runtimeError "no task")
  parse _ _ := .ok (.ok [])
  validatePacks _ _ _ _ := .error (.raised .runtimeError "no task")
  validate _ _ _ _ := .ok ⟨{
    outcome := ⟨true, [], [], "rules-1"⟩
    acceptedRecords := [[("label", .str "ok")]] }, rfl⟩
  plan _ _ _ _ := .error (.raised .runtimeError "no task")
  reserve _ _ _ := .error (.raised .runtimeError "no task")
  invoke _ _ _ _ := .error (.raised .runtimeError "no task")
  reconcile _ _ _ := .ok ()
  complete _ _ := .ok ()

def bulkWorker : BulkWorker := ⟨⟨10⟩, rfl⟩

def persistingContext : ExecutionContext :=
  { context with
    configuration :=
      ⟨configuration, [("write_back", .mapping [("enabled", .bool false)])], none, some "rules-1"⟩ }

def resumedOnce : List WorkerCall :=
  [.submit submission persistingContext, .resume key "worker" persistingContext none 9]

/-- The telemetry of the sample job after its end. -/
def telemetry : BulkStateTelemetry := ⟨{
  jobId := "bulk-job"
  countsByState := [(.succeeded, 1), (.validationFailed, 0), (.policyRejected, 0),
    (.budgetExhausted, 0), (.retryExhausted, 0), (.writeBackFailed, 0), (.cancelled, 0)]
  retryCount := 4
  validationFailureCount := 0
  deadLetterCount := 0
  tokenUsage := 0
  monetaryCostMinorUnits := 0
  elapsedMs := 0
  persistenceFailureCount := 0 }, by decide⟩

theorem telemetry_sent :
    stateTelemetry labelling.toEnvironment "bulk-job" (time 5)
      ((workerMachine labelling bulkWorker).run .empty resumedOnce) = .ok telemetry := by
  decide +kernel

end Sample

/-- One item goes through its five stages, each of them once, and the telemetry reports four
retries. -/
theorem clean_run_reports_retries :
    ((workerMachine Sample.labelling Sample.bulkWorker).run .empty Sample.resumedOnce).stageRuns.map
        (·.stage) = CheckpointStage.all.map some ∧
    repeatedStages ((workerMachine Sample.labelling Sample.bulkWorker).run .empty
      Sample.resumedOnce) "bulk-job" = 0 ∧
    stateTelemetry Sample.labelling.toEnvironment "bulk-job" (Sample.time 5)
      ((workerMachine Sample.labelling Sample.bulkWorker).run .empty Sample.resumedOnce) =
        .ok Sample.telemetry ∧ Sample.telemetry.val.retryCount = 4 :=
  ⟨by decide +kernel, by decide +kernel, Sample.telemetry_sent, rfl⟩

theorem retry_count_exact_sample :
    Sample.telemetry.val.retryCount =
        repeatedStages ((workerMachine Sample.labelling Sample.bulkWorker).run .empty
          Sample.resumedOnce) "bulk-job" ↔
      EndedInFirstStage ((workerMachine Sample.labelling Sample.bulkWorker).run .empty
        Sample.resumedOnce).store "bulk-job" :=
  retry_count_exact_iff Sample.labelling Sample.bulkWorker Sample.resumedOnce "bulk-job"
    (Sample.time 5) Sample.telemetry Sample.telemetry_sent

end AiRetrieval
