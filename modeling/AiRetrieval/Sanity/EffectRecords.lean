import AiRetrieval.Sanity.EffectMoves

/-! What one `execute` does to the durable store: it only makes repository changes, and
when the adapter reports a final outcome it records that outcome before anything later
can fail. -/

namespace AiRetrieval

open Program AiRetrieval.Action WorkRepository

section Changes

variable {α : Type}

theorem checkpoint_changes (jobId idempotencyKey owner : String) (stage : CheckpointStage)
    (outcome : String) (now : DateTime) (ref : Option ObjectReference) :
    Moves Changes (checkpoint jobId idempotencyKey owner stage outcome now ref) :=
  fun s => (checkpoint_outcome s ..).change.changes

theorem saveEffect_changes (record : EffectRecord) : Moves Changes (saveEffect record) :=
  fun s => (saveEffect_outcome s record).change.changes

theorem saveReconciliation_changes (record : ReconciliationRecord) :
    Moves Changes (saveReconciliation record) :=
  fun s => (saveReconciliation_outcome s record).change.changes

end Changes

def SameOutcomes (s s' : WorkRepository) : Prop :=
  s'.effects = s.effects ∧ s'.reconciliations = s.reconciliations

instance : IsPreorder WorkRepository SameOutcomes where
  refl _ := ⟨rfl, rfl⟩
  trans _ _ _ h h' := ⟨h'.1.trans h.1, h'.2.trans h.2⟩

theorem checkpoint_sameOutcomes (jobId idempotencyKey owner : String) (stage : CheckpointStage)
    (outcome : String) (now : DateTime) (ref : Option ObjectReference) :
    Moves SameOutcomes (checkpoint jobId idempotencyKey owner stage outcome now ref) := by
  intro s
  have h := checkpoint_outcome s jobId idempotencyKey owner stage outcome now ref
  unfold after
  generalize (checkpoint jobId idempotencyKey owner stage outcome now ref).exec s = r at h
  cases h <;> exact ⟨rfl, rfl⟩

namespace EffectRecoveryCoordinator

variable {env : Environment} {request : EffectRequest} {context : ExecutionContext}

section Moves

theorem restoreCheckpoint_sameOutcomes (record : EffectRecord) :
    Moves (OnStores SameOutcomes) (restoreCheckpoint env request record) :=
  restoreCheckpoint_moves (fun _ _ h => h.onStores)
    (fun _ _ _ _ _ _ _ => onStore_moves (checkpoint_sameOutcomes _ _ _ _ _ _ _)) record

theorem changes_moves : RecoveryMoves (OnStores Changes) where
  quiet _ _ h := h.onStores
  checkpoint _ _ _ _ _ _ _ := onStore_moves (checkpoint_changes _ _ _ _ _ _ _)
  saveEffect _ := onStore_moves (saveEffect_changes _)
  saveReconciliation _ := onStore_moves (saveReconciliation_changes _)

theorem execute_changes : Moves (OnStores Changes) (execute env request context) :=
  execute_moves changes_moves fun w _ => refl_of Changes w.store

end Moves

end EffectRecoveryCoordinator

end AiRetrieval
