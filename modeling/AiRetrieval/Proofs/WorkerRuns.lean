import AiRetrieval.Proofs.ResumedStages
import AiRetrieval.Proofs.RetryTelemetry

/-! What a run of bulk workers leaves behind: nothing recorded is taken back, and the results
a `resume` returns are the stages it recorded. -/

namespace AiRetrieval

open Program AiRetrieval.Action WorkRepository

section Records

variable (app : PrototypeApplication) (worker : BulkWorker)

theorem stored_moves {α : Type} {x : WorkRepository.Op α} (h : Moves Changes x) :
    Moves (OnStores Changes) (onStore x) := fun w => h w.store

theorem claim_changes (key : Key) (owner : String) (now : DateTime) (d : TimeDelta) :
    Moves Changes (WorkRepository.claim key.1 key.2 owner now d) :=
  fun s => (claim_outcome s key.1 key.2 owner now d).change.changes

theorem resumeState_changes (key : Key) : Moves Changes (resumeState key.1 key.2) := by
  intro s
  rcases hitem : s.items.get? (key.1, key.2) with _ | item
  · obtain ⟨e, hraise⟩ := resumeState_missing hitem
    rw [after, hraise]
    exact refl_of Changes s
  · obtain ⟨state, hstate, -⟩ := resumeState_eq hitem
    rw [after, hstate]
    exact refl_of Changes s

theorem processStage_changes (claim : WorkClaim) (context : ExecutionContext) :
    Moves (OnStores Changes) (BulkPipeline.processStage app claim context) :=
  fun w => (processStage_runsStage app claim context w).changes

theorem rounds_changes (key : Key) (owner : String) (context : ExecutionContext)
    (maxStages : Option Int) (fuel : Nat) (results : List BulkStageResult) :
    Moves (OnStores Changes) (BulkWorker.rounds app.toEnvironment (BulkPipeline.processStage app)
      worker key owner context maxStages fuel results) := by
  induction fuel generalizing results with
  | zero => exact moves_pure _
  | succ fuel ih =>
    unfold BulkWorker.rounds
    refine moves_ite ?_ (moves_pure _)
    refine moves_bind (stored_moves (resumeState_changes key)) fun state => ?_
    refine moves_ite (moves_pure _) (moves_bind (ask_moves _) fun now => ?_)
    refine moves_bind (stored_moves (claim_changes key owner now _)) fun claim => ?_
    refine moves_ite ?_ (moves_pure _)
    refine moves_bind (processStage_changes app claim context) fun result => ?_
    exact moves_ite (moves_pure _) (ih _)

theorem resume_changes (key : Key) (owner : String) (context : ExecutionContext)
    (maxStages : Option Int) (fuel : Nat) :
    Moves (OnStores Changes) (BulkWorker.resume app.toEnvironment (BulkPipeline.processStage app)
      worker key owner context maxStages fuel) := by
  unfold BulkWorker.resume
  exact moves_ite (moves_throw _) (rounds_changes app worker key owner context maxStages fuel [])

theorem pipeline_changes (call : PipelineCall) (w : World) :
    Changes w.store (pipelineMachine app worker call w).2.store := by
  unfold pipelineMachine PipelineCall.action
  cases call with
  | submit submission context =>
    simp only [exec_map]
    obtain ⟨-, reply, hout⟩ := BulkCoordinator.submit_outcome app.toEnvironment submission context w
    exact hout.change.changes
  | resume key owner context maxStages fuel =>
    simp only [exec_map]
    exact resume_changes app worker key owner context maxStages fuel w
  | processStage claim context =>
    simp only [exec_map]
    exact processStage_changes app claim context w
  | writeBack command context =>
    simp only [exec_map]
    exact (writeBack_unnoted app.toEnvironment command context w).changes
  | work call =>
    simp only [exec_map]
    exact (call_change call w.store).changes

/-- Along any run of submissions, resumed items, stages, write-backs and other work on the
store, the invariant of the store holds and nothing recorded is taken back. -/
theorem pipeline_keeps_records (calls more : List PipelineCall) :
    let w := (pipelineMachine app worker).run .empty calls
    w.store.StoreInvariant ∧ Grows w.store ((pipelineMachine app worker).run w more).store := by
  have hmoves := Machine.run_moves (m := pipelineMachine app worker) (R := OnStores Changes)
    fun call w => pipeline_changes app worker call w
  exact ⟨(hmoves .empty calls).invariant empty_invariant, (hmoves _ more).grows⟩

end Records

section Reports

variable {app : PrototypeApplication} {worker : BulkWorker}

def LeaseHeld (env : Environment) (key : Key) (w : World) : Prop :=
  ∃ item expiry moment now, w.store.items.get? key = some item ∧
    item.val.leaseExpiresAt = some expiry ∧ w.moment = moment + 1 ∧ env.clock moment = .ok now ∧
    now < expiry

def namedStages (results : List BulkStageResult) : List CheckpointStage :=
  results.filterMap fun result =>
    if result.action = .checkpointed then result.checkpointStage else none

/-- The results are what became of the item under `key` from one world to another. -/
structure Tells (key : Key) (w : World) (results : List BulkStageResult) (w' : World) : Prop where
  named : ∀ result ∈ results, result.action = .checkpointed → result.checkpointStage.isSome = true
  recorded : w.store.recordedStages key ++ namedStages results <+: w'.store.recordedStages key
  exactly : (∀ result ∈ results, result.action = .checkpointed) →
    w'.store.recordedStages key = w.store.recordedStages key ++ namedStages results
  last : ∀ result ∈ results.dropLast, result.action = .checkpointed
  ended : ∀ result ∈ results, result.action = .terminal →
    (w'.store.terminal.get? key).isSome = true

theorem Tells.nil {key : Key} {w w' : World} (h : SameStages key w w') : Tells key w [] w' := by
  refine ⟨by simp, ?_, fun _ => ?_, by simp, by simp⟩
  · simp only [namedStages, List.filterMap_nil, List.append_nil]
    rewrite [h]
    exact List.prefix_refl _
  · simp only [namedStages, List.filterMap_nil, List.append_nil]
    exact h

theorem Tells.terminal {key : Key} {w w' : World} {result : BulkStageResult}
    (h : Ends key result w') (hkept : w.store.recordedStages key <+: w'.store.recordedStages key) :
    Tells key w [result] w' := by
  have hne : result.action ≠ .checkpointed := by simp [h.1]
  refine ⟨?_, ?_, fun hall => ?_, by simp, ?_⟩
  · intro r hr
    rw [List.mem_singleton.1 hr]
    exact fun hc => absurd hc hne
  · simpa [namedStages, hne] using hkept
  · exact absurd (hall result (List.mem_singleton_self _)) hne
  · intro r hr _
    exact h.2

theorem Tells.cons {key : Key} {stage : CheckpointStage} {w u w' : World}
    {result : BulkStageResult} {rest : List BulkStageResult} (h : Advances key stage w result u)
    (hrest : Tells key u rest w') : Tells key w (result :: rest) w' := by
  have hnames : namedStages (result :: rest) = stage :: namedStages rest := by
    simp [namedStages, h.action, h.named]
  have hstages : w.store.recordedStages key ++ namedStages (result :: rest) =
      u.store.recordedStages key ++ namedStages rest := by
    rw [hnames, h.recorded, List.append_assoc, List.singleton_append]
  refine ⟨?_, ?_, fun hall => ?_, ?_, ?_⟩
  · intro r hr hc
    rcases List.mem_cons.1 hr with rfl | hr
    · simp [h.named]
    · exact hrest.named r hr hc
  · rw [hstages]
    exact hrest.recorded
  · rw [hstages]
    exact hrest.exactly fun r hr => hall r (List.mem_cons_of_mem _ hr)
  · intro r hr
    rcases List.eq_nil_or_concat rest with rfl | ⟨front, final, rfl⟩
    · simp at hr
    · rw [List.concat_eq_append, ← List.cons_append, List.dropLast_concat] at hr
      rcases List.mem_cons.1 hr with rfl | hr
      · exact h.action
      · exact hrest.last r (by rwa [List.concat_eq_append, List.dropLast_concat])
  · intro r hr hterminal
    rcases List.mem_cons.1 hr with rfl | hr
    · rw [h.action] at hterminal
      cases hterminal
    · exact hrest.ended r hr hterminal

/-- Why there are no further results: the limit is reached, the item is completed or its lease
is held. -/
def Stopped (env : Environment) (key : Key) (limit : Option Int) (results : List BulkStageResult)
    (w : World) : Prop :=
  (∃ most, limit = some most ∧ most ≤ results.length) ∨ w.store.Closed key ∨ LeaseHeld env key w

/-- An item with nothing left to run is completed. -/
theorem closed_of_finished {s : WorkRepository} (hs : s.StoreInvariant) {key : Key}
    (h : successor (s.recordedStages key) = none) : s.Closed key := by
  refine (hs.recorded.closed key).2 (Or.inr ?_)
  unfold successor at h
  cases hlast : (s.recordedStages key).getLast? with
  | none => simp [hlast] at h
  | some stage =>
    rw [hlast] at h
    have hmem := List.mem_of_getLast? hlast
    obtain ⟨checkpoint, hc, hstage⟩ := List.mem_map.1 hmem
    exact ⟨checkpoint, hc, hstage.trans (CheckpointStage.next_eq_none.1 h)⟩

theorem closed_of_terminal {s : WorkRepository} (hs : s.StoreInvariant) {key : Key}
    (h : (s.terminal.get? key).isSome = true) : s.Closed key :=
  (hs.recorded.closed key).2 (Or.inl (Option.isSome_iff_exists.1 h))

theorem claim_refused {env : Environment} {key : Key} {owner : String} {now : DateTime}
    {d : TimeDelta} {moment : Nat} {claim : WorkClaim} {w t : World}
      (hmoment : w.moment = moment + 1)
    (hnow : env.clock moment = .ok now)
    (h : (onStore (WorkRepository.claim key.1 key.2 owner now d)).exec w = (.ok claim, t))
    (hrefused : ¬claim.acquired) : t.store.Closed key ∨ LeaseHeld env key t := by
  have hout := claim_outcome w.store key.1 key.2 owner now d
  rw [exec_onStore] at h
  generalize (WorkRepository.claim _ _ _ _ _).exec w.store = reply at hout h
  obtain ⟨hreply, rfl⟩ := Prod.mk.inj h
  cases hout with
  | raised e => cases hreply
  | acquired current claimed ha =>
    cases hreply
    exact absurd rfl hrefused
  | duplicate current found busy =>
    rcases busy with hcompleted | ⟨-, expiry, hexpiry, hlive⟩
    · exact Or.inl ⟨current, found, hcompleted⟩
    · exact Or.inr ⟨current, expiry, moment, now, found, hexpiry, hmoment, hnow, hlive⟩

theorem rounds_reports (key : Key) (owner : String) (context : ExecutionContext)
    (maxStages : Option Int) (fuel : Nat) (results all : List BulkStageResult) {w w' : World}
    (hw : NothingRepeated w)
    (h : (BulkWorker.rounds app.toEnvironment (BulkPipeline.processStage app) worker key owner
      context maxStages fuel results).exec w = (.ok (some all), w')) :
    ∃ new, all = results ++ new ∧ Tells key w new w' ∧
      Stopped app.toEnvironment key maxStages all w' := by
  induction fuel generalizing results w with
  | zero => cases h
  | succ fuel ih =>
    unfold BulkWorker.rounds at h
    by_cases hlimit : maxStages.all fun limit => decide ((results.length : Int) < limit)
    swap
    · rw [if_neg hlimit] at h
      cases h
      refine ⟨[], (List.append_nil _).symm, Tells.nil rfl, Or.inl ?_⟩
      cases maxStages with
      | none => simp at hlimit
      | some most => exact ⟨most, rfl, by simpa using hlimit⟩
    rw [if_pos hlimit] at h
    obtain ⟨state, t, hstate, h⟩ := bind_returns h
    rw [exec_onStore] at hstate
    rcases hitem : w.store.items.get? (key.1, key.2) with _ | item
    · obtain ⟨e, hraise⟩ := resumeState_missing hitem
      rw [hraise] at hstate
      cases hstate
    obtain ⟨found, hfound, hnext⟩ := resumeState_eq hitem
    rw [hfound] at hstate
    obtain ⟨hreturned, rfl⟩ := Prod.mk.inj hstate
    cases hreturned
    by_cases hdone : state.nextStage = none
    · rw [if_pos hdone] at h
      cases h
      refine ⟨[], (List.append_nil _).symm, Tells.nil rfl, Or.inr (Or.inl ?_)⟩
      exact closed_of_finished hw.store (hnext.symm.trans hdone)
    rw [if_neg hdone] at h
    obtain ⟨now, u, hnow, h⟩ := bind_returns h
    rw [exec_ask] at hnow
    obtain ⟨hclock, rfl⟩ := Prod.mk.inj hnow
    obtain ⟨claim, v, hclaim, h⟩ := bind_returns h
    have hasked : NothingRepeated { w with moment := w.moment + 1 } :=
      Unnoted.nothingRepeated (w := w) ⟨refl_of Changes w.store, rfl, rfl⟩ hw
    obtain ⟨hnoted, hsame, hkey⟩ := claim_unnoted hasked hclaim
    have hv := hnoted.nothingRepeated hasked
    by_cases hacquired : claim.acquired
    swap
    · rw [if_neg hacquired] at h
      cases h
      refine ⟨[], (List.append_nil _).symm, Tells.nil hsame, Or.inr ?_⟩
      exact claim_refused rfl hclock hclaim hacquired
    rw [if_pos hacquired] at h
    obtain ⟨result, x, hrun, h⟩ := bind_returns h
    have hstage := processStage_runsStage app claim context v
    have hconcludes := BulkPipeline.processStage_concludes hrun
    rw [hkey claim rfl hacquired] at hstage hconcludes
    rw [after, hrun] at hstage
    have hx := hstage.nothingRepeated hv
    have hstages : v.store.recordedStages key = w.store.recordedStages key := hsame
    by_cases hterminal : result.action = .terminal
    · rw [if_pos hterminal] at h
      cases h
      rcases hconcludes rfl with hends | ⟨next, -, hadvances⟩
      · refine ⟨[result], rfl, Tells.terminal hends ?_, Or.inr (Or.inl ?_)⟩
        · rw [← hstages]
          exact (hstage.changes.grows.checkpoints key).map _
        · exact closed_of_terminal hx.store hends.2
      · rw [hadvances.action] at hterminal
        cases hterminal
    rw [if_neg hterminal] at h
    rcases hconcludes rfl with hends | ⟨next, -, hadvances⟩
    · exact absurd hends.1 hterminal
    obtain ⟨new, hall, htells, hstopped⟩ := ih (results ++ [result]) hx h
    have hadvanced : Advances key next w result x :=
      ⟨hadvances.action, hadvances.named, by rw [hadvances.recorded, hstages]⟩
    refine ⟨result :: new, ?_, htells.cons hadvanced, hstopped⟩
    rw [hall, List.append_assoc, List.singleton_append]

/-- Over any run, the results a `resume` returns are the stages it recorded of its item, in order,
with at most one that says that the item ended; and it returns only with its limit reached,
with the item completed or while a lease on it is held. -/
theorem resume_reports (app : PrototypeApplication) (worker : BulkWorker)
    (calls : List PipelineCall) (key : Key) (owner : String) (context : ExecutionContext)
    (maxStages : Option Int) (fuel : Nat) (results : List BulkStageResult) (w' : World)
    (h : (BulkWorker.resume app.toEnvironment (BulkPipeline.processStage app) worker key owner
      context maxStages fuel).exec ((pipelineMachine app worker).run .empty calls) =
        (.ok (some results), w')) :
    Tells key ((pipelineMachine app worker).run .empty calls) results w' ∧
      Stopped app.toEnvironment key maxStages results w' := by
  have hw := Machine.run_invariant (m := pipelineMachine app worker) (P := NothingRepeated)
    (fun call w hw => pipeline_nothingRepeated app worker call hw) NothingRepeated.empty calls
  unfold BulkWorker.resume at h
  by_cases hlimit : maxStages.any fun limit => decide (limit ≤ 0)
  · rw [if_pos hlimit] at h
    cases h
  rw [if_neg hlimit] at h
  obtain ⟨new, hall, htells, hstopped⟩ := rounds_reports key owner context maxStages fuel
    [] results hw h
  rw [List.nil_append] at hall
  subst hall
  exact ⟨htells, hstopped⟩

end Reports

namespace Sample

/-- The sample item, submitted. -/
def submittedOnce : List PipelineCall := [.submit submission persistingContext]

/-- What `resume` returns for it under a limit of two stages. -/
def firstStages : List BulkStageResult :=
  [⟨.checkpointed, some .accepted, none, "accepted"⟩,
    ⟨.checkpointed, some .modelCompleted, none, "model_succeeded"⟩]

def resumption : Action (Option (List BulkStageResult)) :=
  BulkWorker.resume labelling.toEnvironment (BulkPipeline.processStage labelling) bulkWorker key
    "worker" persistingContext (some 2) 9

theorem exec_of_returns {α : Type} {x : Action α} {w : World} {a : α}
    (h : (x.exec w).1.toOption = some a) : x.exec w = (.ok a, x.after w) := by
  unfold after
  revert h
  rcases x.exec w with ⟨e | b, t⟩
  · exact fun h => by cases h
  · exact fun h => by rw [Option.some.inj h]

theorem resumption_returns :
    resumption.exec ((pipelineMachine labelling bulkWorker).run .empty submittedOnce) =
      (.ok (some firstStages),
        resumption.after ((pipelineMachine labelling bulkWorker).run .empty submittedOnce)) :=
  exec_of_returns (by decide +kernel)

end Sample

theorem resume_reports_sample :
    Tells Sample.key ((pipelineMachine Sample.labelling Sample.bulkWorker).run .empty
        Sample.submittedOnce) Sample.firstStages
      (Sample.resumption.after ((pipelineMachine Sample.labelling Sample.bulkWorker).run .empty
        Sample.submittedOnce)) ∧
      Stopped Sample.labelling.toEnvironment Sample.key (some 2) Sample.firstStages
        (Sample.resumption.after ((pipelineMachine Sample.labelling Sample.bulkWorker).run .empty
          Sample.submittedOnce)) :=
  resume_reports Sample.labelling Sample.bulkWorker Sample.submittedOnce Sample.key "worker"
    Sample.persistingContext (some 2) 9 Sample.firstStages _ Sample.resumption_returns

end AiRetrieval
