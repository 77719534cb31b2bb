import AiRetrieval.Sanity.StoreGrowth
import AiRetrieval.Spec.Effects
import AiRetrieval.Spec.Execution

/-! How programs over the whole world move the durable store: the outside, the object
store, the broker and the dead-letter queue do not touch it, and everything else is a
sequence of repository changes. -/

namespace AiRetrieval

open Program AiRetrieval.Action

namespace Action

@[simp] theorem exec_ask {α : Type} (answer : Nat → Except PyError α) (w : World) :
    (ask answer).exec w = (answer w.moment, { w with moment := w.moment + 1 }) := rfl

@[simp] theorem exec_onStore {α : Type} (x : WorkRepository.Op α) (w : World) :
    (onStore x).exec w = ((x.exec w.store).1, { w with store := (x.exec w.store).2 }) := rfl

@[simp] theorem exec_onObjects {α : Type} (x : ObjectResultStore.Op α) (w : World) :
    (onObjects x).exec w = ((x.exec w.objects).1, { w with objects := (x.exec w.objects).2 }) := rfl

@[simp] theorem exec_onBroker {α : Type} (x : NotificationBroker.Op α) (w : World) :
    (onBroker x).exec w = ((x.exec w.broker).1, { w with broker := (x.exec w.broker).2 }) := rfl

@[simp] theorem exec_onDeadLetters {α : Type} (x : DeadLetterQueue.Op α) (w : World) :
    (onDeadLetters x).exec w =
      ((x.exec w.deadLetters).1, { w with deadLetters := (x.exec w.deadLetters).2 }) := rfl

end Action

/-- A relation between stores, read on worlds. -/
def OnStores (S : WorkRepository → WorkRepository → Prop) (w w' : World) : Prop :=
  S w.store w'.store

instance {S : WorkRepository → WorkRepository → Prop} [IsPreorder WorkRepository S] :
    IsPreorder World (OnStores S) where
  refl w := refl_of S w.store
  trans _ _ _ h h' := trans_of S h h'

section Moves

variable {S : WorkRepository → WorkRepository → Prop} {α : Type}

theorem onStore_moves {x : WorkRepository.Op α} (h : Moves S x) :
    Moves (OnStores S) (onStore x) := fun w => h w.store

variable [IsPreorder WorkRepository S]

theorem ask_moves (answer : Nat → Except PyError α) : Moves (OnStores S) (ask answer) :=
  fun w => refl_of S w.store

theorem onBroker_moves (x : NotificationBroker.Op α) : Moves (OnStores S) (onBroker x) :=
  fun w => refl_of S w.store

end Moves

theorem putResult?_same (sha256 : Bytes → String) (result : Option Bytes) (w : World) :
    (putResult? sha256 result).after w =
      { w with objects := ((putResult? sha256 result).after w).objects } := by
  cases result with
  | none => rfl
  | some data => simp [after, putResult?, exec_map]

/-- Only the object store and the number of answers changed. -/
def Quiet (w w' : World) : Prop := w' = { w with objects := w'.objects, moment := w'.moment }

instance : IsPreorder World Quiet where
  refl _ := rfl
  trans a b c h h' := by
    unfold Quiet at *
    rw [h', h]

theorem Quiet.store {w w' : World} (h : Quiet w w') : w'.store = w.store := by rw [h]

theorem Quiet.onStores {S : WorkRepository → WorkRepository → Prop} [IsPreorder WorkRepository S]
    {w w' : World} (h : Quiet w w') : OnStores S w w' := by
  rw [h]
  exact refl_of S w.store

theorem ask_quiet {α : Type} (answer : Nat → Except PyError α) : Moves Quiet (ask answer) :=
  fun _ => rfl

theorem onObjects_quiet {α : Type} (x : ObjectResultStore.Op α) : Moves Quiet (onObjects x) :=
  fun _ => rfl

theorem putResult?_quiet (sha256 : Bytes → String) (result : Option Bytes) :
    Moves Quiet (putResult? sha256 result) := by
  cases result with
  | none => exact moves_pure none
  | some data => exact moves_map some (onObjects_quiet _)

/-- Everything but the persistence failures is as it was. -/
def SameRecords (s s' : WorkRepository) : Prop :=
  s' = { s with persistenceFailures := s'.persistenceFailures }

theorem SameRecords.items {s s' : WorkRepository} (h : SameRecords s s') : s'.items = s.items := by
  rw [h]

instance : IsPreorder WorkRepository SameRecords where
  refl _ := rfl
  trans a b c h h' := by
    unfold SameRecords at *
    rw [h', h]

section Execution

open BulkWorkExecutor

variable (env : Environment)

theorem recordPersistenceFailure_same (outcome : PersistenceFailureOutcome) :
    Moves SameRecords (WorkRepository.recordPersistenceFailure outcome) := by
  refine moves_modify fun s => ?_
  split <;> rfl

theorem emitState_quiet (jobId : String) : Moves Quiet (emitState env jobId) := by
  unfold emitState
  exact moves_bind moves_get fun _ => moves_bind (ask_quiet _) fun _ =>
    moves_bind (moves_lift _) fun _ => moves_bind (moves_lift _) fun _ => ask_quiet _

theorem caught_moves {R : World → World → Prop} {α : Type} {error : PyError}
    {handler y : Action α} (h : Moves R handler) (hy : caught error handler = some y) :
    Moves R y := by
  unfold caught at hy
  split at hy
  · cases hy
  · cases hy; exact h

/-- A relation the parts of `execute_claim` after its write move along. -/
structure AfterTerminalMoves (R : World → World → Prop) : Prop where
  quiet : ∀ w w', Quiet w w' → R w w'
  deadLetters : ∀ w entries, R w { w with deadLetters := entries }
  usage : ∀ w usage, R w { w with usage := usage }
  failure : ∀ outcome, Moves R (onStore (WorkRepository.recordPersistenceFailure outcome))

section Relation

variable {R : World → World → Prop} [IsPreorder World R] {env}

theorem persistDeadLetter_moves (h : AfterTerminalMoves R) (terminal : TerminalWorkItemRecord) :
    Moves R (persistDeadLetter env terminal) := by
  unfold persistDeadLetter
  refine moves_bind (moves_lift _) fun entry => moves_handling ?_ fun error y hy => ?_
  · exact moves_bind (fun w => h.deadLetters w _) fun _ => moves_pure _
  · refine caught_moves ?_ hy
    exact moves_bind (moves_mono (ask_quiet _) h.quiet) fun _ =>
      moves_bind (moves_lift _) fun _ => h.failure _

theorem afterTerminal_moves (h : AfterTerminalMoves R) (claim : WorkClaim)
    (result : WorkItemExecutionResult) (terminal : TerminalWorkItemRecord) :
    Moves R (afterTerminal env claim result terminal) := by
  unfold afterTerminal
  refine moves_bind (moves_modify fun w => h.usage w _) fun _ => ?_
  refine moves_bind ?_ fun _ =>
    moves_bind (moves_mono (emitState_quiet env _) h.quiet) fun _ => moves_pure _
  exact moves_ite (persistDeadLetter_moves h terminal) (moves_pure _)

theorem executeClaim_moves (h : AfterTerminalMoves R)
    (hterminalize : ∀ jobId key owner state code details now ref,
      Moves R (onStore (WorkRepository.terminalize jobId key owner state code details now ref)))
    (claim : WorkClaim) {handler : Handler} (hhandler : ∀ item, Moves R (handler item)) :
    Moves R (executeClaim env claim handler) := by
  unfold executeClaim
  refine moves_bind (moves_lift _) fun owner =>
    moves_bind (moves_mono (ask_quiet _) h.quiet) fun now => moves_bind ?_ fun result =>
    moves_bind (moves_bind ?_ fun _ => hterminalize _ _ _ _ _ _ _ _) fun terminal =>
      afterTerminal_moves h _ _ _
  · exact moves_handling (hhandler _) fun error y hy => caught_moves (moves_lift _) hy
  · exact moves_mono (putResult?_quiet _ _) h.quiet

end Relation

theorem same_moves : AfterTerminalMoves (OnStores SameRecords) where
  quiet _ _ h := h.onStores
  deadLetters w _ := refl_of SameRecords w.store
  usage w _ := refl_of SameRecords w.store
  failure _ := onStore_moves (recordPersistenceFailure_same _)

theorem afterTerminal_same (claim : WorkClaim) (result : WorkItemExecutionResult)
    (terminal : TerminalWorkItemRecord) :
    Moves (OnStores SameRecords) (afterTerminal env claim result terminal) :=
  afterTerminal_moves same_moves claim result terminal

end Execution

end AiRetrieval
