import AiRetrieval.Sanity.StoreGrowth

/-! Every run of the durable work repository keeps the store invariant; every call
of it moves items, records and counters the one way it may. -/

namespace AiRetrieval

open WorkRepository Program

/-- What one call keeps of the store, and what it leaves when it raises. -/
structure LawfulStep (t : StoreTransition) : Prop where
  items : ∀ key item, t.before.items.get? key = some item →
    ∃ item', t.after.items.get? key = some item' ∧ workOf item' = workOf item ∧
      (item' = item ∨ item'.val.revision = item.val.revision + 1) ∧
      (item.val.state = .completed → item' = item)
  checkpoints : ∀ key, t.before.checkpointsOf key <+: t.after.checkpointsOf key
  terminal : t.before.terminal.Extends t.after.terminal
  effects : t.before.effects.Extends t.after.effects
  reconciliations : t.before.reconciliations.Extends t.after.reconciliations
  raised : ∀ e, t.reply = .error e → t.after = t.before

namespace WorkRepository

variable {s s' : WorkRepository} {key : Key}

theorem map_eq_error {α β : Type} {f : α → β} {r : Except PyError α} {e : PyError} :
    r.map f = .error e ↔ r = .error e := by
  cases r <;> simp [Except.map]

theorem call_raises {call : StoreCall} {e : PyError} (h : (storeMachine call s).1 = .error e) :
    (storeMachine call s).2 = s := by
  cases call <;> simp only [storeMachine, StoreCall.program, exec_map, map_eq_error] at h ⊢
  case create => exact (issue_outcome ..).raises h
  case claim => exact (claim_outcome ..).raises h
  case renew => exact (renew_outcome ..).raises h
  case checkpoint => exact (checkpoint_outcome ..).raises h
  case terminalize => exact (terminalize_outcome ..).raises h
  case markPublished => exact (markPublished_outcome ..).raises h
  case saveEffect => exact (saveEffect_outcome ..).raises h
  case saveReconciliation => exact (saveReconciliation_outcome ..).raises h
  case recordPersistenceFailure outcome =>
    obtain ⟨failures, hr⟩ := recordPersistenceFailure_outcome s outcome
    rw [hr] at h
    cases h

theorem lawfulStep (call : StoreCall) (s : WorkRepository) :
    LawfulStep (storeMachine.transition s call) := by
  have h := call_change call s
  exact ⟨fun _ _ => h.keeps_item, h.checkpoints_prefix, h.terminal_extends, h.effects_extends,
    h.reconciliations_extends, fun _ => call_raises⟩

def revisionOf (s : WorkRepository) (key : Key) : Nat :=
  ((s.items.get? key).map (·.val.revision)).getD 0

def attemptsOf (s : WorkRepository) (key : Key) : Nat :=
  ((s.items.get? key).map (·.val.attemptCount)).getD 0

theorem changesItem_iff {t : StoreTransition} : changesItem key t = true ↔
    ∃ before, t.before.items.get? key = some before ∧ t.after.items.get? key ≠ some before := by
  unfold changesItem
  cases t.before.items.get? key <;> simp

theorem revision_step (call : StoreCall) (s : WorkRepository) (key : Key) :
    (storeMachine call s).2.revisionOf key = s.revisionOf key +
      if changesItem key (storeMachine.transition s call) then 1 else 0 := by
  have replaced : ∀ {current next : WorkItemRecord},
      next.val.revision = current.val.revision + 1 → next ≠ current := by
    rintro current next hr rfl
    omega
  have hmove := call_itemMove call s key
  generalize acquisitionOf key (storeMachine.transition s call) = claim at hmove
  simp only [changesItem_iff, revisionOf, Machine.transition]
  generalize s.items.get? key = before at hmove ⊢
  generalize (storeMachine call s).2.items.get? key = after at hmove ⊢
  cases hmove with
  | kept item =>
    have hno : ¬∃ b, before = some b ∧ before ≠ some b := by
      rintro ⟨_, hb, hne⟩
      exact hne hb
    rw [if_neg hno, Nat.add_zero]
  | created issued => simp [issued.revision]
  | acquired acquired value =>
    have hr := congrArg WorkItemRecord.Fields.revision value
    simp [replaced hr, hr, acquiredFields]
  | renewed value =>
    have hr := congrArg WorkItemRecord.Fields.revision value
    simp [replaced hr, hr]
  | released stopped value =>
    have hr := congrArg WorkItemRecord.Fields.revision value
    simp [replaced hr, hr, releasedFields]

theorem attempt_step (call : StoreCall) (s : WorkRepository) (key : Key) :
    (storeMachine call s).2.attemptsOf key = s.attemptsOf key +
      if (acquisitionOf key (storeMachine.transition s call)).isSome then 1 else 0 := by
  have hmove := call_itemMove call s key
  unfold attemptsOf
  generalize s.items.get? key = before at hmove ⊢
  generalize (storeMachine call s).2.items.get? key = after at hmove ⊢
  generalize acquisitionOf key (storeMachine.transition s call) = claim at hmove ⊢
  cases hmove with
  | kept item => rfl
  | created issued => simp [issued.attempts]
  | acquired acquired value => simp [value, acquiredFields]
  | renewed value => simp [value]
  | released stopped value => simp [value, releasedFields]

end WorkRepository

/-- The store invariant holds after every run; each of its steps is lawful; an item's
revision counts its changes and its attempt count the claims that acquired it. -/
theorem durable_store_invariant (calls : List StoreCall) :
    (storeMachine.run .empty calls).StoreInvariant ∧
    (∀ t ∈ storeMachine.history .empty calls, LawfulStep t) ∧
    ∀ key item, (storeMachine.run .empty calls).items.get? key = some item →
      item.val.revision = (storeMachine.history .empty calls).countP (changesItem key) ∧
      item.val.attemptCount =
        (storeMachine.history .empty calls).countP fun t => (acquisitionOf key t).isSome := by
  refine ⟨Reached.invariant ⟨calls, rfl⟩, fun t ht => ?_, fun key item hi => ?_⟩
  · obtain ⟨s, call, rfl⟩ := Machine.history_transition ht
    exact lawfulStep call s
  · have hrev := Machine.run_count (P := fun _ => True) (fun _ _ _ => trivial)
      (fun s => s.revisionOf key) (changesItem key) (fun i s _ => revision_step i s key)
      (s := .empty) trivial calls
    have hatt := Machine.run_count (P := fun _ => True) (fun _ _ _ => trivial)
      (fun s => s.attemptsOf key) (fun t => (acquisitionOf key t).isSome)
      (fun i s _ => attempt_step i s key) (s := .empty) trivial calls
    simp only [revisionOf, attemptsOf, hi, Option.map_some, Option.getD_some] at hrev hatt
    rw [hrev, hatt]
    simp [WorkRepository.empty]

end AiRetrieval
