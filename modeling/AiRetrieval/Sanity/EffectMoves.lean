import AiRetrieval.Sanity.WorldMoves

/-! What one `execute` of the effect recovery coordinator adds to the adapter's calls
and to the durable records. -/

namespace AiRetrieval

open Program AiRetrieval.Action

def requestKey (request : EffectRequest) : Key := claimKey request.val.claim

/-- The outcome the call reported is final: the mutation is in place, or may be. -/
def AdapterCall.decisive (call : AdapterCall) : Prop :=
  call.report = some .committed ∨ call.report = some .ambiguous

/-- The call asks for the mutation itself, not for evidence of it. -/
def AdapterCall.mutates (call : AdapterCall) : Prop := call.operation ≠ .verifyEffect

instance (call : AdapterCall) : Decidable call.decisive := inferInstanceAs (Decidable (_ ∨ _))
instance (call : AdapterCall) : Decidable call.mutates := inferInstanceAs (Decidable (_ ≠ _))

namespace EffectRecoveryCoordinator

variable (env : Environment) (request : EffectRequest) (context : ExecutionContext)

/-- The adapter call made in `w`, as it is noted. -/
def callIn {α : Type} (operation : AdapterOperation) (answer : Nat → Except PyError α)
    (status : α → EffectEvidenceStatus) (w : World) : AdapterCall where
  operation := operation
  request := request
  store := w.store
  clock := env.clock w.moment
  report := (answer w.moment).toOption.map status

def sharedCall (w : World) : AdapterCall :=
  callIn env request .executeShared (fun n => env.executeShared n request context) (·.val.status) w

def verifyCall (w : World) : AdapterCall :=
  callIn env request .verifyEffect
    (fun n => env.verifyEffect n request.val.claim.item.val.idempotencyKey
      request.val.mutationDigest context) (·.val.status) w

def nonSharedCall (w : World) : AdapterCall :=
  callIn env request .executeNonShared
    (fun n => env.executeNonShared n request.val.effect request.val.mutationDigest context)
    (·.val.status.evidence) w

theorem sharedCall_mutates (w : World) : (sharedCall env request context w).mutates :=
  show AdapterOperation.executeShared ≠ .verifyEffect by decide

theorem nonSharedCall_mutates (w : World) : (nonSharedCall env request context w).mutates :=
  show AdapterOperation.executeNonShared ≠ .verifyEffect by decide

theorem not_verifyCall_mutates (w : World) : ¬(verifyCall env request context w).mutates :=
  fun h => h rfl

/-- The verification answered that the mutation is not in place. -/
def notInPlace (w : World) : Prop :=
  (verifyCall env request context w).report = some .absent ∨
    (verifyCall env request context w).report = some .rolledBack

instance (w : World) : Decidable (notInPlace env request context w) :=
  inferInstanceAs (Decidable (_ ∨ _))

/-- A bulk context bound to the item's configuration, and no durable outcome yet. -/
structure Reaches (w : World) : Prop where
  bulk : context.path = .bulk
  bound : request.val.claim.item.val.configuration = context.configuration.reference
  noEffect : w.store.effects.get? (requestKey request) = none
  noReconciliation : w.store.reconciliations.get? (requestKey request) = none

instance (w : World) : Decidable (Reaches request context w) :=
  decidable_of_iff (context.path = .bulk ∧
      request.val.claim.item.val.configuration = context.configuration.reference ∧
      w.store.effects.get? (requestKey request) = none ∧
      w.store.reconciliations.get? (requestKey request) = none)
    ⟨fun ⟨h1, h2, h3, h4⟩ => ⟨h1, h2, h3, h4⟩, fun ⟨h1, h2, h3, h4⟩ => ⟨h1, h2, h3, h4⟩⟩

def called (call : AdapterCall) (w : World) : World :=
  { w with adapterCalls := w.adapterCalls ++ [call], moment := w.moment + 1 }

/-- The adapter calls `execute` makes when it starts in `w`. -/
def callsMade (w : World) : List AdapterCall :=
  if Reaches request context w then
    match request.val.boundary with
    | .shared => [sharedCall env request context w]
    | .nonShared => verifyCall env request context w ::
        if notInPlace env request context w then
          [nonSharedCall env request context (called (verifyCall env request context w) w)]
        else []
  else []

theorem exec_callAdapter {α : Type} (operation : AdapterOperation)
    (answer : Nat → Except PyError α) (status : α → EffectEvidenceStatus) (w : World) :
    (callAdapter env operation request answer status).exec w =
      (answer w.moment, called (callIn env request operation answer status w) w) := rfl

end EffectRecoveryCoordinator

theorem resumeState_same (jobId idempotencyKey : String) (s : WorkRepository) :
    (WorkRepository.resumeState jobId idempotencyKey).after s = s := by
  unfold WorkRepository.resumeState after
  rw [exec_bind, exec_get]
  simp only
  rw [exec_bind, exec_liftExcept]
  cases s.requireItem (jobId, idempotencyKey) <;> rfl

namespace EffectRecoveryCoordinator

section Moves

variable {R : World → World → Prop}

/-- A relation the parts of the recovery move along. -/
structure RecoveryMoves (R : World → World → Prop) : Prop where
  quiet : ∀ w w', Quiet w w' → R w w'
  checkpoint : ∀ jobId key owner stage outcome now ref,
    Moves R (onStore (WorkRepository.checkpoint jobId key owner stage outcome now ref))
  saveEffect : ∀ record, Moves R (onStore (WorkRepository.saveEffect record))
  saveReconciliation : ∀ record, Moves R (onStore (WorkRepository.saveReconciliation record))

variable [IsPreorder World R] {env : Environment} {request : EffectRequest}
  {context : ExecutionContext}

theorem restoreCheckpoint_moves (hquiet : ∀ w w', Quiet w w' → R w w')
    (hcheckpoint : ∀ jobId key owner stage outcome now ref,
      Moves R (onStore (WorkRepository.checkpoint jobId key owner stage outcome now ref)))
    (record : EffectRecord) : Moves R (restoreCheckpoint env request record) := by
  have hresume : Moves R (onStore (WorkRepository.resumeState record.val.jobId
      record.val.idempotencyKey)) := by
    intro w
    have hsame := resumeState_same record.val.jobId record.val.idempotencyKey w.store
    unfold after at hsame ⊢
    rw [exec_onStore, hsame]
    exact refl_of R w
  have hwrite : Moves R (restoreCheckpoint.write env request record) := by
    unfold restoreCheckpoint.write
    split
    · exact moves_throw _
    · exact moves_bind (moves_mono (ask_quiet _) hquiet) fun _ => hcheckpoint _ _ _ _ _ _ _
  unfold restoreCheckpoint
  refine moves_bind hresume fun state => ?_
  split
  · exact moves_ite (moves_pure _) hwrite
  · exact hwrite

theorem reconcile_moves (h : RecoveryMoves R) (reason : String) :
    Moves R (reconcile env request reason) :=
  moves_bind (moves_mono (ask_quiet _) h.quiet) fun _ => moves_bind (moves_lift _) fun _ =>
    moves_bind (h.saveReconciliation _) fun _ => moves_lift _

theorem settle_moves (h : RecoveryMoves R) (record : EffectRecord) (status : EffectRecoveryStatus)
    (reason : String) : Moves R (settle env request record status reason) :=
  moves_bind (h.saveEffect _) fun _ =>
    moves_bind (restoreCheckpoint_moves h.quiet h.checkpoint _) fun _ => moves_lift _

theorem settleEvidence_moves (h : RecoveryMoves R) (record : Option EffectRecord)
    (status : EffectRecoveryStatus) (reason : String) :
    Moves R (settleEvidence env request record status reason) := by
  unfold settleEvidence
  refine moves_bind (moves_lift _) fun _ => ?_
  split
  · exact moves_throw _
  · exact settle_moves h _ _ _

theorem settleAttempt_moves (h : RecoveryMoves R) (attempt : EffectAttempt) :
    Moves R (do
      let now ← ask env.clock
      let record ← committedRecord request attempt now
      settle env request record .committed "transaction_committed") :=
  moves_bind (moves_mono (ask_quiet _) h.quiet) fun _ => moves_bind (moves_lift _) fun _ =>
    settle_moves h _ _ _

end Moves

end EffectRecoveryCoordinator

def KeepsCalls (w w' : World) : Prop := w'.adapterCalls = w.adapterCalls

instance : IsPreorder World KeepsCalls where
  refl _ := rfl
  trans _ _ _ h h' := Eq.trans h' h

namespace EffectRecoveryCoordinator

section Calls

variable (env : Environment) (request : EffectRequest) (context : ExecutionContext)

theorem keepsCalls_moves : RecoveryMoves KeepsCalls where
  quiet _ _ h := by rw [h]; rfl
  checkpoint _ _ _ _ _ _ _ := fun _ => rfl
  saveEffect _ := fun _ => rfl
  saveReconciliation _ := fun _ => rfl

theorem executeShared_calls (w : World) :
    ((executeShared env request context).after w).adapterCalls =
      w.adapterCalls ++ [sharedCall env request context w] := by
  unfold executeShared after
  rw [exec_bind, exec_callAdapter]
  rcases env.executeShared w.moment request context with e | evidence
  · rfl
  simp only
  split
  · exact settleEvidence_moves keepsCalls_moves _ _ _ _
  · exact reconcile_moves keepsCalls_moves _ _
  · rfl
  · rfl

theorem attemptNonShared_calls (w : World) :
    ((attemptNonShared env request context).after w).adapterCalls =
      w.adapterCalls ++ [nonSharedCall env request context w] := by
  unfold attemptNonShared after
  rw [exec_bind, exec_callAdapter]
  rcases env.executeNonShared w.moment request.val.effect request.val.mutationDigest context with
    e | attempt
  · rfl
  simp only
  split
  · rfl
  · exact reconcile_moves keepsCalls_moves _ _
  · exact settleAttempt_moves keepsCalls_moves _ _

theorem executeNonShared_calls (w : World) :
    ((executeNonShared env request context).after w).adapterCalls =
      w.adapterCalls ++ verifyCall env request context w ::
        if notInPlace env request context w then
          [nonSharedCall env request context (called (verifyCall env request context w) w)]
        else [] := by
  unfold executeNonShared after
  rw [exec_bind, exec_callAdapter]
  have hreport : notInPlace env request context w ↔
      (env.verifyEffect w.moment request.val.claim.item.val.idempotencyKey
        request.val.mutationDigest context).toOption.map (·.val.status) = some .absent ∨
      (env.verifyEffect w.moment request.val.claim.item.val.idempotencyKey
        request.val.mutationDigest context).toOption.map
          (·.val.status) = some .rolledBack := Iff.rfl
  rcases hv : env.verifyEffect w.moment request.val.claim.item.val.idempotencyKey
    request.val.mutationDigest context with e | evidence
  · rw [if_neg (by simp [hreport, hv, Except.toOption])]
    rfl
  simp only [hv, Except.toOption, Option.map_some, Option.some.injEq] at hreport
  simp only
  cases hs : evidence.val.status with
  | committed =>
    rw [if_neg (by simp [hreport, hs])]
    exact settleEvidence_moves keepsCalls_moves _ _ _ _
  | ambiguous =>
    rw [if_neg (by simp [hreport, hs])]
    exact reconcile_moves keepsCalls_moves _ _
  | absent =>
    rw [if_pos (by simp [hreport, hs]), ← List.singleton_append, ← List.append_assoc]
    exact attemptNonShared_calls env request context (called (verifyCall env request context w) w)
  | rolledBack =>
    rw [if_pos (by simp [hreport, hs]), ← List.singleton_append, ← List.append_assoc]
    exact attemptNonShared_calls env request context (called (verifyCall env request context w) w)

end Calls

section Branches

variable {request : EffectRequest} {context : ExecutionContext}

def Fits (request : EffectRequest) (context : ExecutionContext) : Prop :=
  context.path = .bulk ∧
    request.val.claim.item.val.configuration = context.configuration.reference

instance (request : EffectRequest) (context : ExecutionContext) :
    Decidable (Fits request context) :=
  inferInstanceAs (Decidable (_ ∧ _))

/-- What `execute` does with a request whose effect is already recorded. -/
def recover (env : Environment) (request : EffectRequest) (existing : EffectRecord) :
    Action EffectRecoveryResult := do
  assertSameEffect (some existing) request
  let checkpoint ← restoreCheckpoint env request existing
  Checked.make EffectRecoveryResult.postInit {
    status := .recovered
    effectRecord := some existing
    checkpoint := some checkpoint
    reasonCode := "committed_effect_recovered" }

def await (request : EffectRequest) (pending : ReconciliationRecord) :
    Except PyError EffectRecoveryResult := do
  assertSameReconciliation pending request
  Checked.make EffectRecoveryResult.postInit {
    status := .reconciliationRequired
    reconciliation := some pending
    reasonCode := pending.val.reason }

theorem execute_refused (env : Environment) (w : World) (h : ¬Fits request context) :
    ∃ message, (execute env request context).exec w = (.error (.valueError message), w) := by
  unfold execute
  by_cases hp : context.path = .bulk
  · rw [if_neg (not_not.2 hp), if_pos fun hc => h ⟨hp, hc⟩]
    exact ⟨_, rfl⟩
  · rw [if_pos hp]
    exact ⟨_, rfl⟩

theorem execute_of_fits (env : Environment) (w : World) (h : Fits request context) :
    (execute env request context).exec w =
      match w.store.effects.get? (requestKey request),
        w.store.reconciliations.get? (requestKey request) with
      | some existing, _ => (recover env request existing).exec w
      | none, some pending => (await request pending, w)
      | none, none =>
        match request.val.boundary with
        | .shared => (executeShared env request context).exec w
        | .nonShared => (executeNonShared env request context).exec w := by
  unfold execute
  rw [if_neg (not_not.2 h.1), if_neg (not_not.2 h.2), exec_bind, exec_get]
  unfold requestKey claimKey
  simp only
  split
  · next existing he => simp only [he]; rfl
  next he =>
  split
  · next pending hp =>
    simp only [he, hp, await]
    rw [exec_bind, exec_liftExcept]
    cases assertSameReconciliation pending request <;> rfl
  next hp =>
  simp only [he, hp]
  cases request.val.boundary <;> rfl

end Branches

theorem execute_calls (env : Environment) (request : EffectRequest) (context : ExecutionContext)
    (w : World) : ((execute env request context).after w).adapterCalls =
      w.adapterCalls ++ callsMade env request context w := by
  have none_of_not : ¬Reaches request context w → callsMade env request context w = [] :=
    fun h => if_neg h
  unfold after
  by_cases hf : Fits request context
  · rw [execute_of_fits env w hf]
    rcases he : w.store.effects.get? (requestKey request) with _ | existing
    · rcases hp : w.store.reconciliations.get? (requestKey request) with _ | pending
      · have hr : Reaches request context w := ⟨hf.1, hf.2, he, hp⟩
        unfold callsMade
        rw [if_pos hr]
        cases request.val.boundary with
        | shared => exact executeShared_calls env request context w
        | nonShared => exact executeNonShared_calls env request context w
      · rw [none_of_not fun hr => by simpa [hp] using hr.noReconciliation, List.append_nil]
    · rw [none_of_not fun hr => by simpa [he] using hr.noEffect, List.append_nil]
      exact moves_bind (moves_lift _) (fun _ =>
        moves_bind (restoreCheckpoint_moves keepsCalls_moves.quiet keepsCalls_moves.checkpoint _)
          fun _ => moves_lift _) w
  · obtain ⟨message, hm⟩ := execute_refused env w hf
    rw [hm, none_of_not fun hr => hf ⟨hr.bulk, hr.bound⟩, List.append_nil]

section Moves

variable {R : World → World → Prop} [IsPreorder World R] {env : Environment}
  {request : EffectRequest} {context : ExecutionContext}

theorem recover_moves {existing : EffectRecord}
    (h : Moves R (restoreCheckpoint env request existing)) :
    Moves R (recover env request existing) :=
  moves_bind (moves_lift _) fun _ => moves_bind h fun _ => moves_lift _

theorem execute_moves (h : RecoveryMoves R)
    (hcall : ∀ w calls, R w { w with adapterCalls := calls }) :
    Moves R (execute env request context) := by
  have hadapter : ∀ {α : Type} (operation : AdapterOperation) (answer : Nat → Except PyError α)
      (status : α → EffectEvidenceStatus),
      Moves R (callAdapter env operation request answer status) := fun _ _ _ =>
    moves_bind (moves_modify fun w => hcall w _) fun _ => moves_mono (ask_quiet _) h.quiet
  have hshared : Moves R (executeShared env request context) := by
    unfold executeShared
    refine moves_bind (hadapter _ _ _) fun evidence => ?_
    split
    · exact settleEvidence_moves h _ _ _
    · exact reconcile_moves h _
    · exact moves_lift _
    · exact moves_lift _
  have hattempt : Moves R (attemptNonShared env request context) := by
    unfold attemptNonShared
    refine moves_bind (hadapter _ _ _) fun attempt => ?_
    split
    · exact moves_lift _
    · exact reconcile_moves h _
    · exact settleAttempt_moves h _
  have hnonShared : Moves R (executeNonShared env request context) := by
    unfold executeNonShared
    refine moves_bind (hadapter _ _ _) fun evidence => ?_
    split
    · exact settleEvidence_moves h _ _ _
    · exact reconcile_moves h _
    · exact hattempt
    · exact hattempt
  intro w
  unfold after
  by_cases hf : Fits request context
  · rw [execute_of_fits env w hf]
    split
    · exact recover_moves (restoreCheckpoint_moves h.quiet h.checkpoint _) w
    · exact refl_of R w
    · split
      · exact hshared w
      · exact hnonShared w
  · obtain ⟨message, hm⟩ := execute_refused env w hf
    rw [hm]
    exact refl_of R w

end Moves

end EffectRecoveryCoordinator

end AiRetrieval
