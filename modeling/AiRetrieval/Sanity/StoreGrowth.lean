import AiRetrieval.Sanity.StoreInvariant
import Mathlib.Logic.Relation

/-! What no change of the store takes away: works, closed items, checkpoints,
terminal records, effects and reconciliations only ever grow. -/

namespace AiRetrieval.WorkRepository

open Program

variable {s s' : WorkRepository}

theorem Change.item_cases (h : Change s s') (key : Key) :
    s'.items.get? key = s.items.get? key ∨
      (∃ current next, Replaces s s' key current next) ∨
      ∃ item outbox, Issued item outbox ∧ s.items.get? key = none ∧
        s'.items.get? key = some item := by
  have replaced : ∀ {k current next}, Replaces s s' k current next →
      s'.items.get? key = s.items.get? key ∨ ∃ current next, Replaces s s' key current next := by
    intro k current next hr
    by_cases hk : key = k
    · subst hk; exact Or.inr ⟨_, _, hr⟩
    · exact Or.inl (by rw [hr.get?, if_neg hk])
  cases h with
  | unchanged => exact Or.inl rfl
  | acquired h => exact (replaced h.replaces).imp_right Or.inl
  | renewed h => exact (replaced h.replaces).imp_right Or.inl
  | checkpointed h => exact (replaced h.replaces).imp_right Or.inl
  | settled h => exact (replaced h.replaces).imp_right Or.inl
  | created issued h =>
    rename_i item outbox
    by_cases hk : key = (item.val.jobId, item.val.idempotencyKey)
    · subst hk
      exact Or.inr (Or.inr ⟨item, outbox, issued, h.freeKey, Dict.get?_insert_self ..⟩)
    · exact Or.inl (Dict.get?_insert_of_ne _ _ hk)
  | published found event notification => exact Or.inl rfl
  | effectSaved found same fresh => exact Or.inl rfl
  | reconciliationSaved found same fresh => exact Or.inl rfl
  | failureRecorded failures => exact Or.inl rfl

theorem Change.keeps_item (h : Change s s') {key : Key} {item : WorkItemRecord}
    (hi : s.items.get? key = some item) :
    ∃ item', s'.items.get? key = some item' ∧ workOf item' = workOf item ∧
      (item' = item ∨ item'.val.revision = item.val.revision + 1) ∧
      (item.val.state = .completed → item' = item) := by
  rcases h.item_cases key with hsame | ⟨current, next, hr⟩ | ⟨_, _, -, hnone, -⟩
  · exact ⟨item, hsame.trans hi, rfl, Or.inl rfl, fun _ => rfl⟩
  · have hc : current = item := Option.some.inj (hr.found.symm.trans hi)
    subst hc
    refine ⟨next, by rw [hr.get?, if_pos rfl], hr.work, Or.inr hr.revision, fun hc => ?_⟩
    exact absurd hc hr.opened
  · rw [hnone] at hi
    cases hi

theorem Change.keeps_work (h : Change s s') {key : Key} {w : Work} (hw : s.work? key = some w) :
    s'.work? key = some w := by
  obtain ⟨item, hi, rfl⟩ := work?_eq_some.1 hw
  obtain ⟨item', hi', hwork, -⟩ := h.keeps_item hi
  exact work?_eq_some.2 ⟨item', hi', hwork⟩

theorem Change.keeps_closed (h : Change s s') {key : Key} (hc : s.Closed key) : s'.Closed key := by
  obtain ⟨item, hi, hs⟩ := hc
  obtain ⟨item', hi', -, -, hsame⟩ := h.keeps_item hi
  exact ⟨item', hi', by rw [hsame hs, hs]⟩

theorem Change.checkpoints_prefix (h : Change s s') (key : Key) :
    s.checkpointsOf key <+: s'.checkpointsOf key := by
  cases h with
  | checkpointed h =>
    rw [checkpointsOf_putCheckpoint]
    split
    · next hk => subst hk; exact List.prefix_append _ _
    · exact List.prefix_refl _
  | _ => exact List.prefix_refl _

theorem Change.terminal_extends (h : Change s s') : s.terminal.Extends s'.terminal := by
  cases h with
  | settled h => exact Dict.extends_insert _ h.fresh
  | _ => exact .refl _

theorem Change.effects_extends (h : Change s s') : s.effects.Extends s'.effects := by
  cases h with
  | effectSaved found same fresh => exact Dict.extends_insert _ fresh
  | _ => exact .refl _

theorem Change.reconciliations_extends (h : Change s s') :
    s.reconciliations.Extends s'.reconciliations := by
  cases h with
  | reconciliationSaved found same fresh => exact Dict.extends_insert _ fresh
  | _ => exact .refl _

theorem Replaces.frame {k : Key} {current next item : WorkItemRecord} {key : Key}
    (hr : Replaces s s' k current next) (hi : s.items.get? key = some item) (hk : key ≠ k) :
    s'.items.get? key = some item := by
  rw [hr.get?, if_neg hk, hi]

theorem call_frame {call : StoreCall} {key : Key} {item : WorkItemRecord}
    (hi : s.items.get? key = some item)
    (hu : ∀ owner now, call.leaseUse ≠ some (key, owner, now)) :
    (storeMachine call s).2.items.get? key = some item := by
  have other : ∀ {k owner now}, call.leaseUse = some (k, owner, now) → key ≠ k := by
    rintro k owner now hc rfl
    exact hu owner now hc
  cases call <;> simp only [storeMachine, StoreCall.program, exec_map]
  case create submission context ref identifier =>
    generalize hr : (issue submission context ref identifier).exec s = r
    cases hr ▸ issue_outcome s submission context ref identifier with
    | created new outbox issued h =>
      have hk : key ≠ (new.val.jobId, new.val.idempotencyKey) := by
        rintro rfl
        rw [h.freeKey] at hi
        cases hi
      exact (Dict.get?_insert_of_ne _ _ hk).trans hi
    | _ => exact hi
  case claim k owner now d =>
    generalize hr : (claim k.1 k.2 owner now d).exec s = r
    cases hr ▸ claim_outcome s k.1 k.2 owner now d with
    | acquired current claimed h => exact h.replaces.frame hi (other rfl)
    | _ => exact hi
  case renew k owner now d =>
    generalize hr : (renew k.1 k.2 owner now d).exec s = r
    cases hr ▸ renew_outcome s k.1 k.2 owner now d with
    | renewed current renewed h => exact h.replaces.frame hi (other rfl)
    | raised e => exact hi
  case checkpoint k owner stage outcome now ref =>
    generalize hr : (checkpoint k.1 k.2 owner stage outcome now ref).exec s = r
    cases hr ▸ checkpoint_outcome s k.1 k.2 owner stage outcome now ref with
    | recorded current updated record h => exact h.replaces.frame hi (other rfl)
    | _ => exact hi
  case terminalize k owner state code details now ref =>
    generalize hr : (terminalize k.1 k.2 owner state code details now ref).exec s = r
    cases hr ▸ terminalize_outcome s k.1 k.2 owner state code details now ref with
    | settled current completed record h => exact h.replaces.frame hi (other rfl)
    | _ => exact hi
  case markPublished eventId publishedAt =>
    generalize hr : (markPublished eventId publishedAt).exec s = r
    cases hr ▸ markPublished_outcome s eventId publishedAt <;> exact hi
  case saveEffect record =>
    generalize hr : (saveEffect record).exec s = r
    cases hr ▸ saveEffect_outcome s record <;> exact hi
  case saveReconciliation record =>
    generalize hr : (saveReconciliation record).exec s = r
    cases hr ▸ saveReconciliation_outcome s record <;> exact hi
  case recordPersistenceFailure outcome =>
    obtain ⟨failures, hr⟩ := recordPersistenceFailure_outcome s outcome
    rw [hr]
    exact hi

theorem CheckpointOutcome.changes {s : WorkRepository} {k key : Key} {owner : String}
    {stage : CheckpointStage} {outcome : String} {now : DateTime} {ref : Option ObjectReference}
    {r : Except PyError CheckpointRecord × WorkRepository}
    (h : CheckpointOutcome s k owner stage outcome now ref r)
    (hne : r.2.items.get? key ≠ s.items.get? key) :
    key = k ∧ ∃ item, s.Owned k owner now item := by
  cases h with
  | raised e => exact absurd rfl hne
  | repeated current last owned latest same => exact absurd rfl hne
  | recorded current updated record h =>
    refine ⟨?_, current, h.owned⟩
    by_contra hk
    exact hne (by rw [h.replaces.get?, if_neg hk])

theorem TerminalizeOutcome.changes {s : WorkRepository} {k key : Key} {owner : String}
    {state : TerminalWorkItemState} {code details : Option String} {now : DateTime}
    {ref : Option ObjectReference} {r : Except PyError TerminalWorkItemRecord × WorkRepository}
    (h : TerminalizeOutcome s k owner state code details now ref r)
    (hne : r.2.items.get? key ≠ s.items.get? key) :
    key = k ∧ ∃ item, s.Owned k owner now item := by
  cases h with
  | raised e => exact absurd rfl hne
  | repeated existing found same => exact absurd rfl hne
  | settled current completed record h =>
    refine ⟨?_, current, h.owned⟩
    by_contra hk
    exact hne (by rw [h.replaces.get?, if_neg hk])

/-- What one call does to the item under a key, and the claim it acquired there. -/
inductive ItemMove : Option WorkItemRecord → Option WorkItemRecord → Option WorkClaim → Prop where
  | kept (item : Option WorkItemRecord) : ItemMove item item none
  | created {item : WorkItemRecord} {outbox : OutboxRecord} (issued : Issued item outbox) :
      ItemMove none (some item) none
  | acquired {current : WorkItemRecord} {claim : WorkClaim} {owner : String} {expiry : DateTime}
      (acquired : claim.acquired) (value : claim.item.val = acquiredFields current owner expiry) :
      ItemMove (some current) (some claim.item) (some claim)
  | renewed {current next : WorkItemRecord} {expiry : DateTime}
      (value : next.val = { current.val with
        leaseExpiresAt := some expiry, revision := current.val.revision + 1 }) :
      ItemMove (some current) (some next) none
  | released {current next : WorkItemRecord} {state : WorkState} {ref : Option ObjectReference}
      (stopped : state ≠ .inProgress) (value : next.val = releasedFields current state ref) :
      ItemMove (some current) (some next) none

theorem Replaces.itemMove {k key : Key} {current next : WorkItemRecord}
    (hr : Replaces s s' k current next) (hm : ItemMove (some current) (some next) none) :
    ItemMove (s.items.get? key) (s'.items.get? key) none := by
  rw [hr.get?]
  split
  · next hk => subst hk; rw [hr.found]; exact hm
  · exact .kept _

theorem call_itemMove (call : StoreCall) (s : WorkRepository) (key : Key) :
    ItemMove (s.items.get? key) ((storeMachine call s).2.items.get? key)
      (acquisitionOf key (storeMachine.transition s call)) := by
  unfold acquisitionOf
  simp only [Machine.transition, storeMachine]
  cases call <;> simp only [StoreCall.program, exec_map]
  case create submission context ref identifier =>
    generalize hr : (issue submission context ref identifier).exec s = r
    cases hr ▸ issue_outcome s submission context ref identifier with
    | created item outbox issued h =>
      by_cases hk : key = (item.val.jobId, item.val.idempotencyKey)
      · subst hk
        rw [h.freeKey, show (s.putCreated item outbox).items.get? _ = some item from
          Dict.get?_insert_self ..]
        exact .created issued
      · rw [show (s.putCreated item outbox).items.get? key = _ from
          Dict.get?_insert_of_ne _ _ hk]
        exact .kept _
    | _ => exact .kept _
  case claim k owner now d =>
    generalize hr : (claim k.1 k.2 owner now d).exec s = r
    cases hr ▸ claim_outcome s k.1 k.2 owner now d with
    | raised e => exact .kept _
    | duplicate current found busy =>
      simp only [Except.map, WorkClaim.acquired, reduceCtorEq, and_false, if_false]
      exact .kept _
    | acquired current claimed h =>
      rw [h.replaces.get?]
      by_cases hk : key = k
      · subst hk
        rw [show s.items.get? key = some current from h.found]
        simp only [Except.map, WorkClaim.acquired, and_self, if_true]
        exact .acquired (show WorkClaim.acquired ⟨.acquired, claimed, _⟩ from rfl) h.value
      · have hk' : k ≠ key := fun he => hk he.symm
        simp only [Except.map, hk', false_and, if_false, Prod.mk.eta, hk]
        exact .kept _
  case renew k owner now d =>
    generalize hr : (renew k.1 k.2 owner now d).exec s = r
    cases hr ▸ renew_outcome s k.1 k.2 owner now d with
    | raised e => exact .kept _
    | renewed current renewed h => exact h.replaces.itemMove (.renewed h.value)
  case checkpoint k owner stage outcome now ref =>
    generalize hr : (checkpoint k.1 k.2 owner stage outcome now ref).exec s = r
    cases hr ▸ checkpoint_outcome s k.1 k.2 owner stage outcome now ref with
    | recorded current updated record h =>
      exact h.replaces.itemMove (.released (by split <;> decide) h.value)
    | _ => exact .kept _
  case terminalize k owner state code details now ref =>
    generalize hr : (terminalize k.1 k.2 owner state code details now ref).exec s = r
    cases hr ▸ terminalize_outcome s k.1 k.2 owner state code details now ref with
    | settled current completed record h =>
      exact h.replaces.itemMove (.released (by decide) h.value)
    | _ => exact .kept _
  case markPublished eventId publishedAt =>
    generalize hr : (markPublished eventId publishedAt).exec s = r
    cases hr ▸ markPublished_outcome s eventId publishedAt <;> exact .kept _
  case saveEffect record =>
    generalize hr : (saveEffect record).exec s = r
    cases hr ▸ saveEffect_outcome s record <;> exact .kept _
  case saveReconciliation record =>
    generalize hr : (saveReconciliation record).exec s = r
    cases hr ▸ saveReconciliation_outcome s record <;> exact .kept _
  case recordPersistenceFailure outcome =>
    obtain ⟨failures, hr⟩ := recordPersistenceFailure_outcome s outcome
    rw [hr]
    exact .kept _

/-- Everything a later store still has of an earlier one. -/
structure Grows (s s' : WorkRepository) : Prop where
  work : ∀ key w, s.work? key = some w → s'.work? key = some w
  closed : ∀ key, s.Closed key → s'.Closed key
  checkpoints : ∀ key, s.checkpointsOf key <+: s'.checkpointsOf key
  terminal : s.terminal.Extends s'.terminal
  effects : s.effects.Extends s'.effects
  reconciliations : s.reconciliations.Extends s'.reconciliations

instance : IsPreorder WorkRepository Grows where
  refl _ := ⟨fun _ _ h => h, fun _ h => h, fun _ => List.prefix_refl _, .refl _, .refl _, .refl _⟩
  trans _ _ _ h h' := ⟨fun k w hw => h'.work k w (h.work k w hw),
    fun k hc => h'.closed k (h.closed k hc), fun k => (h.checkpoints k).trans (h'.checkpoints k),
    h.terminal.trans h'.terminal, h.effects.trans h'.effects,
    h.reconciliations.trans h'.reconciliations⟩

theorem Change.grows (h : Change s s') : Grows s s' :=
  ⟨fun _ _ => h.keeps_work, fun _ => h.keeps_closed, h.checkpoints_prefix, h.terminal_extends,
    h.effects_extends, h.reconciliations_extends⟩

def Changes : WorkRepository → WorkRepository → Prop := Relation.ReflTransGen Change

instance : IsPreorder WorkRepository Changes where
  refl _ := Relation.ReflTransGen.refl
  trans _ _ _ := Relation.ReflTransGen.trans

theorem Change.changes (h : Change s s') : Changes s s' := Relation.ReflTransGen.single h

theorem Changes.grows (h : Changes s s') : Grows s s' := by
  induction h with
  | refl => exact refl_of Grows s
  | tail h hc ih => exact trans_of Grows ih hc.grows

theorem Changes.invariant (h : Changes s s') (hs : s.StoreInvariant) : s'.StoreInvariant := by
  induction h with
  | refl => exact hs
  | tail h hc ih => exact hc.invariant ih

end AiRetrieval.WorkRepository
