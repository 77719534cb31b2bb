import AiRetrieval.Spec.WorkRepository
import Mathlib.Tactic.Tauto

/-! What each repository operation can do: its result and the store it leaves,
one relation an operation. Later proofs read these and never unfold the code. -/

namespace AiRetrieval.WorkRepository

open Program

structure Owned (s : WorkRepository) (key : Key) (owner : String) (now : DateTime)
    (item : WorkItemRecord) : Prop where
  found : s.items.get? key = some item
  inProgress : item.val.state = .inProgress
  owner_eq : item.val.leaseOwner = some owner
  unexpired : ∃ expiry, item.val.leaseExpiresAt = some expiry ∧ now < expiry

theorem requireItem_eq_ok {s : WorkRepository} {key : Key} {item : WorkItemRecord} :
    s.requireItem key = .ok item ↔ s.items.get? key = some item := by
  unfold requireItem
  cases s.items.get? key <;> simp

theorem requireOwned_eq_ok {s : WorkRepository} {key : Key} {owner : String} {now : DateTime}
    {item : WorkItemRecord} :
    s.requireOwned key owner now = .ok item ↔ s.Owned key owner now item := by
  unfold requireOwned
  rw [except_bind_eq_ok]
  simp only [requireItem_eq_ok]
  constructor
  · rintro ⟨found, hf, h⟩
    split at h
    · cases h
    · next hs =>
      push Not at hs
      split at h
      · cases h
      · next expiry he =>
        obtain ⟨expired, hexp, h⟩ := except_bind_eq_ok.1 h
        obtain ⟨haware, rfl⟩ := DateTime.notAfter_eq_ok.1 hexp
        split at h
        · cases h
        · next hlt =>
          cases h
          exact ⟨hf, hs.1, hs.2, expiry, he, haware.symm, by simpa using hlt⟩
  · rintro ⟨hf, hs, ho, expiry, he, hlt⟩
    refine ⟨item, hf, ?_⟩
    rw [if_neg (by simp [hs, ho]), he]
    refine except_bind_eq_ok.2 ⟨false, DateTime.notAfter_eq_ok.2 ⟨hlt.1.symm, ?_⟩, rfl⟩
    simpa using hlt.2

theorem leaseActive_eq_ok {current : WorkItemRecord} {now : DateTime} {active : Bool}
    (h : leaseActive current now = .ok active) :
    (active = true ↔ current.val.state = .inProgress ∧
      ∃ expiry, current.val.leaseExpiresAt = some expiry ∧ now < expiry) ∧
    (active = false ∧ current.val.state = .inProgress →
      ∃ expiry, current.val.leaseExpiresAt = some expiry ∧ expiry ≤ now) := by
  unfold leaseActive at h
  split at h
  · next hs =>
    split at h
    · cases h
    · next expiry he =>
      obtain ⟨haware, rfl⟩ := DateTime.before_eq_ok.1 h
      simp only [hs, he, true_and, decide_eq_true_eq, Option.some.injEq, exists_eq_left',
        decide_eq_false_iff_not, and_true, DateTime.lt_def, DateTime.le_def]
      exact ⟨⟨fun h => ⟨haware, h⟩, fun h => h.2⟩, fun h => ⟨haware.symm, by omega⟩⟩
  · next hs =>
    cases h
    simp [hs]

theorem validateLease_eq_ok {owner : String} {now : DateTime} {d : TimeDelta} :
    validateLease owner now d = .ok () ↔ (blank owner = false ∧ now.aware = true) ∧ 0 < d := by
  rw [validateLease, except_seq_eq_ok, require_eq_ok, require_eq_ok]

def putItem (s : WorkRepository) (key : Key) (item : WorkItemRecord) : WorkRepository :=
  { s with items := s.items.insert key item }

def acquiredFields (current : WorkItemRecord) (owner : String) (expiry : DateTime) :
    WorkItemRecord.Fields :=
  { current.val with
    state := .inProgress
    attemptCount := current.val.attemptCount + 1
    leaseOwner := some owner
    leaseExpiresAt := some expiry
    revision := current.val.revision + 1 }

def releasedFields (current : WorkItemRecord) (state : WorkState)
    (resultReference : Option ObjectReference) : WorkItemRecord.Fields :=
  { current.val with
    state := state
    leaseOwner := none
    leaseExpiresAt := none
    resultReference := resultReference
    revision := current.val.revision + 1 }

structure Acquires (s : WorkRepository) (key : Key) (owner : String) (now : DateTime)
    (d : TimeDelta) (current claimed : WorkItemRecord) : Prop where
  found : s.items.get? key = some current
  opened : current.val.state ≠ .completed
  owner_text : blank owner = false
  aware : now.aware = true
  positive : 0 < d
  free : current.val.state = .inProgress →
    ∃ expiry, current.val.leaseExpiresAt = some expiry ∧ expiry ≤ now
  value : claimed.val = acquiredFields current owner ⟨true, now.instant + d⟩

inductive ClaimOutcome (s : WorkRepository) (key : Key) (owner : String) (now : DateTime)
    (d : TimeDelta) : Except PyError WorkClaim × WorkRepository → Prop where
  | raised (e : PyError) : ClaimOutcome s key owner now d (.error e, s)
  | duplicate (current : WorkItemRecord) (found : s.items.get? key = some current)
      (busy : current.val.state = .completed ∨ current.val.state = .inProgress ∧
        ∃ expiry, current.val.leaseExpiresAt = some expiry ∧ now < expiry) :
      ClaimOutcome s key owner now d (.ok ⟨.activeDuplicate, current, s.latest key⟩, s)
  | acquired (current claimed : WorkItemRecord) (h : Acquires s key owner now d current claimed) :
      ClaimOutcome s key owner now d (.ok ⟨.acquired, claimed, s.latest key⟩, s.putItem key claimed)

theorem plus_of_aware {now expiry : DateTime} {d : TimeDelta} (haware : now.aware = true)
    (h : now.plus d = .ok expiry) : expiry = ⟨true, now.instant + d⟩ := by
  obtain ⟨hexpiry, hinstant⟩ := DateTime.plus_eq_ok h
  cases expiry
  simp_all

theorem claim_outcome (s : WorkRepository) (jobId idempotencyKey owner : String) (now : DateTime)
    (d : TimeDelta) : ClaimOutcome s (jobId, idempotencyKey) owner now d
      ((claim jobId idempotencyKey owner now d).exec s) := by
  unfold claim
  simp only [exec_bind, exec_liftExcept, exec_get]
  rcases hv : validateLease owner now d with e | u
  · exact .raised e
  obtain ⟨⟨howner, haware⟩, hd⟩ := validateLease_eq_ok.1 hv
  simp only
  rcases hi : s.requireItem (jobId, idempotencyKey) with e | current
  · exact .raised e
  rw [requireItem_eq_ok] at hi
  simp only
  split
  · next hc => exact .duplicate current hi (Or.inl hc)
  next hopen =>
  simp only [exec_bind, exec_liftExcept]
  rcases hl : leaseActive current now with e | active
  · exact .raised e
  obtain ⟨hbusy, hfree⟩ := leaseActive_eq_ok hl
  cases active with
  | true => exact .duplicate current hi (Or.inr (hbusy.1 rfl))
  | false =>
    simp only [Bool.false_eq_true, if_false, exec_bind, exec_liftExcept]
    rcases hp : now.plus d with e | expiry
    · exact .raised e
    obtain rfl := plus_of_aware haware hp
    simp only
    rcases hm : Checked.make WorkItemRecord.postInit
      (acquiredFields current owner ⟨true, now.instant + d⟩) with e | claimed
    · simp only [acquiredFields] at hm
      rw [hm]
      exact .raised e
    · have hval := Checked.make_eq_ok.1 hm
      simp only [acquiredFields] at hm
      rw [hm]
      exact .acquired current claimed ⟨hi, hopen, howner, haware, hd, fun h => hfree ⟨rfl, h⟩, hval⟩

/-- `claim` returns for a valid lease request and an item that is completed, leased or free
for a lease that ends within the calendar. -/
structure Claimable (s : WorkRepository) (key : Key) (owner : String) (now : DateTime)
    (d : TimeDelta) : Prop where
  valid : validateLease owner now d = .ok ()
  answered : ∃ item, s.items.get? key = some item ∧ (item.val.state = .completed ∨
    ∃ active, leaseActive item now = .ok active ∧
      (active = false → ∃ expiry, now.plus d = .ok expiry))

theorem claim_returns_iff (s : WorkRepository) (jobId idempotencyKey owner : String)
    (now : DateTime) (d : TimeDelta) :
    (∃ c, ((claim jobId idempotencyKey owner now d).exec s).1 = .ok c) ↔
      Claimable s (jobId, idempotencyKey) owner now d := by
  unfold claim
  simp only [exec_bind, exec_liftExcept, exec_get]
  rcases hv : validateLease owner now d with e | u
  · constructor
    · rintro ⟨_, hc⟩
      cases hc
    · intro h
      cases hv.symm.trans h.valid
  simp only
  rcases hi : s.requireItem (jobId, idempotencyKey) with e | current
  · constructor
    · rintro ⟨_, hc⟩
      cases hc
    · rintro ⟨_, item, hitem, _⟩
      rw [requireItem_eq_ok.2 hitem] at hi
      cases hi
  rw [requireItem_eq_ok] at hi
  simp only
  by_cases hc : current.val.state = .completed
  · rw [if_pos hc]
    exact ⟨fun _ => ⟨hv, current, hi, Or.inl hc⟩, fun _ => ⟨_, rfl⟩⟩
  rw [if_neg hc]
  have hanswer : (∃ item, s.items.get? (jobId, idempotencyKey) = some item ∧
      (item.val.state = .completed ∨ ∃ active, leaseActive item now = .ok active ∧
        (active = false → ∃ expiry, now.plus d = .ok expiry))) ↔
      ∃ active, leaseActive current now = .ok active ∧
        (active = false → ∃ expiry, now.plus d = .ok expiry) := by
    simp [hi, hc]
  simp only [exec_bind, exec_liftExcept]
  rw [show Claimable s (jobId, idempotencyKey) owner now d ↔ _ from
    ⟨fun h => hanswer.1 h.answered, fun h => ⟨hv, hanswer.2 h⟩⟩]
  rcases hl : leaseActive current now with e | active
  · constructor
    · rintro ⟨_, hc⟩
      cases hc
    · rintro ⟨_, ha, _⟩
      cases ha
  cases active with
  | true =>
    refine ⟨fun _ => ⟨true, rfl, ?_⟩, fun _ => ⟨_, rfl⟩⟩
    intro h
    cases h
  | false =>
    simp only [Bool.false_eq_true, if_false, exec_bind, exec_liftExcept]
    rcases hp : now.plus d with e | expiry
    · constructor
      · rintro ⟨_, hc⟩
        cases hc
      · rintro ⟨active, ha, hplus⟩
        obtain ⟨expiry, he⟩ := hplus (Except.ok.inj ha).symm
        cases he
    have hpass : WorkItemRecord.postInit (acquiredFields current owner expiry) = .ok () :=
      WorkItemRecord.postInit_eq_ok current.texts (by simp [acquiredFields])
        (by simp [acquiredFields])
    have hmake := Checked.make_of_passed hpass
    unfold acquiredFields at hmake
    simp only [hmake]
    exact ⟨fun _ => ⟨false, rfl, fun _ => ⟨expiry, rfl⟩⟩, fun _ => ⟨_, rfl⟩⟩

/-- `renew` of a lease `owner` holds beyond `now`. -/
structure Renews (s : WorkRepository) (key : Key) (owner : String) (now : DateTime)
    (d : TimeDelta) (current renewed : WorkItemRecord) : Prop where
  owned : s.Owned key owner now current
  aware : now.aware = true
  positive : 0 < d
  value : renewed.val = { current.val with
    leaseExpiresAt := some ⟨true, now.instant + d⟩
    revision := current.val.revision + 1 }

inductive RenewOutcome (s : WorkRepository) (key : Key) (owner : String) (now : DateTime)
    (d : TimeDelta) : Except PyError WorkItemRecord × WorkRepository → Prop where
  | raised (e : PyError) : RenewOutcome s key owner now d (.error e, s)
  | renewed (current renewed : WorkItemRecord) (h : Renews s key owner now d current renewed) :
      RenewOutcome s key owner now d (.ok renewed, s.putItem key renewed)

theorem renew_outcome (s : WorkRepository) (jobId idempotencyKey owner : String) (now : DateTime)
    (d : TimeDelta) : RenewOutcome s (jobId, idempotencyKey) owner now d
      ((renew jobId idempotencyKey owner now d).exec s) := by
  unfold renew
  simp only [exec_bind, exec_liftExcept, exec_get]
  rcases hv : validateLease owner now d with e | u
  · exact .raised e
  obtain ⟨⟨-, haware⟩, hd⟩ := validateLease_eq_ok.1 hv
  simp only
  rcases ho : s.requireOwned (jobId, idempotencyKey) owner now with e | current
  · exact .raised e
  rw [requireOwned_eq_ok] at ho
  simp only
  rcases hp : now.plus d with e | expiry
  · exact .raised e
  obtain rfl := plus_of_aware haware hp
  simp only
  rcases hm : Checked.make WorkItemRecord.postInit { current.val with
      leaseExpiresAt := some ⟨true, now.instant + d⟩
      revision := current.val.revision + 1 } with e | renewed
  · exact .raised e
  · exact .renewed current renewed ⟨ho, haware, hd, Checked.make_eq_ok.1 hm⟩

/-- `checkpoint` of a stage beyond the latest one, under a lease of `owner`. -/
structure Checkpoints (s : WorkRepository) (key : Key) (owner : String) (stage : CheckpointStage)
    (outcome : String) (now : DateTime) (ref : Option ObjectReference)
    (current updated : WorkItemRecord) (record : CheckpointRecord) : Prop where
  owned : s.Owned key owner now current
  forward : ∀ last, s.latest key = some last → last.val.completedStage.order < stage.order
  checkpoint : record.val = {
    jobId := current.val.jobId
    itemId := current.val.itemId
    idempotencyKey := current.val.idempotencyKey
    completedStage := stage
    attemptCount := current.val.attemptCount
    outcome := outcome
    configuration := current.val.configuration
    resultReference := ref
    recordedAt := now
    sequence := ((s.latest key).map (·.val.sequence)).getD 0 + 1 }
  value : updated.val = releasedFields current
    (if stage = .completed then .completed else .checkpointed)
    (ref <|> current.val.resultReference)

def putCheckpoint (s : WorkRepository) (key : Key) (updated : WorkItemRecord)
    (record : CheckpointRecord) : WorkRepository :=
  { s with
    checkpoints := s.checkpoints.insert key (s.checkpointsOf key ++ [record])
    items := s.items.insert key updated }

inductive CheckpointOutcome (s : WorkRepository) (key : Key) (owner : String)
    (stage : CheckpointStage) (outcome : String) (now : DateTime) (ref : Option ObjectReference) :
    Except PyError CheckpointRecord × WorkRepository → Prop where
  | raised (e : PyError) : CheckpointOutcome s key owner stage outcome now ref (.error e, s)
  | repeated (current : WorkItemRecord) (last : CheckpointRecord)
      (owned : s.Owned key owner now current) (latest : s.latest key = some last)
      (same : last.val.completedStage = stage) :
      CheckpointOutcome s key owner stage outcome now ref (.ok last, s)
  | recorded (current updated : WorkItemRecord) (record : CheckpointRecord)
      (h : Checkpoints s key owner stage outcome now ref current updated record) :
      CheckpointOutcome s key owner stage outcome now ref
        (.ok record, s.putCheckpoint key updated record)

theorem checkpoint_record_outcome {s : WorkRepository} {key : Key} {owner : String}
    {stage : CheckpointStage} {outcome : String} {now : DateTime} {ref : Option ObjectReference}
    {current : WorkItemRecord} {sequence : Nat} (owned : s.Owned key owner now current)
    (forward : ∀ last, s.latest key = some last → last.val.completedStage.order < stage.order)
    (hseq : sequence = ((s.latest key).map (·.val.sequence)).getD 0 + 1) :
    CheckpointOutcome s key owner stage outcome now ref
      ((checkpoint.record stage outcome now ref key current sequence).exec s) := by
  unfold checkpoint.record
  simp only [exec_bind, exec_liftExcept, exec_modify, exec_pure]
  subst hseq
  rcases hc : Checked.make CheckpointRecord.postInit _ with e | record
  · exact .raised e
  simp only
  rcases hm : Checked.make WorkItemRecord.postInit _ with e | updated
  · exact .raised e
  exact .recorded current updated record
    ⟨owned, forward, Checked.make_eq_ok.1 hc, Checked.make_eq_ok.1 hm⟩

theorem checkpoint_outcome (s : WorkRepository) (jobId idempotencyKey owner : String)
    (stage : CheckpointStage) (outcome : String) (now : DateTime) (ref : Option ObjectReference) :
    CheckpointOutcome s (jobId, idempotencyKey) owner stage outcome now ref
      ((checkpoint jobId idempotencyKey owner stage outcome now ref).exec s) := by
  unfold checkpoint
  simp only [exec_bind, exec_liftExcept, exec_get]
  rcases ho : s.requireOwned (jobId, idempotencyKey) owner now with e | current
  · exact .raised e
  rw [requireOwned_eq_ok] at ho
  simp only
  rcases hl : s.latest (jobId, idempotencyKey) with _ | last
  · exact checkpoint_record_outcome ho (by simp [hl]) (by simp [hl])
  simp only
  split
  · exact .raised _
  next hback =>
  split
  · next hsame =>
    split
    · exact .raised _
    · exact .repeated current last ho hl hsame.symm
  · next hne =>
    refine checkpoint_record_outcome ho (fun last' h => ?_) (by simp [hl])
    rw [hl] at h
    cases h
    have horder : stage.order ≠ last.val.completedStage.order :=
      fun h => hne (CheckpointStage.order_injective h)
    omega

/-- Rebuilding an item without its lease never raises. -/
theorem released_passes (current : WorkItemRecord) {state : WorkState}
    (ref : Option ObjectReference) (h : state ≠ .inProgress) :
    WorkItemRecord.postInit (releasedFields current state ref) = .ok () :=
  WorkItemRecord.postInit_eq_ok current.texts (by simp [releasedFields, h])
    (by simp [releasedFields, h])

structure Recordable (s : WorkRepository) (key : Key) (owner : String) (stage : CheckpointStage)
    (outcome : String) (now : DateTime) (item : WorkItemRecord) : Prop where
  owned : s.Owned key owner now item
  forward : ∀ last, s.latest key = some last → last.val.completedStage.order < stage.order
  outcome_text : blank outcome = false
  attempted : 1 ≤ item.val.attemptCount

theorem Checkpoints.recordable {s : WorkRepository} {key : Key} {owner : String}
    {stage : CheckpointStage} {outcome : String} {now : DateTime} {ref : Option ObjectReference}
    {current updated : WorkItemRecord} {record : CheckpointRecord}
    (h : Checkpoints s key owner stage outcome now ref current updated record) :
    Recordable s key owner stage outcome now current := by
  have hp := record.passed
  rw [h.checkpoint] at hp
  simp only [CheckpointRecord.postInit, except_seq_eq_ok, requireText_eq_ok, require_eq_ok] at hp
  exact ⟨h.owned, h.forward, hp.1, hp.2.1⟩

theorem Recordable.records {s : WorkRepository} {jobId idempotencyKey owner : String}
    {stage : CheckpointStage} {outcome : String} {now : DateTime} {item : WorkItemRecord}
    (h : Recordable s (jobId, idempotencyKey) owner stage outcome now item)
    (ref : Option ObjectReference) :
    ∃ updated record, (checkpoint jobId idempotencyKey owner stage outcome now ref).after s =
        s.putCheckpoint (jobId, idempotencyKey) updated record ∧
      Checkpoints s (jobId, idempotencyKey) owner stage outcome now ref item updated record := by
  have hreturns : ∃ record,
      ((checkpoint jobId idempotencyKey owner stage outcome now ref).exec s).1 = .ok record := by
    have hrecord : ∀ sequence, 1 ≤ sequence → ∃ record, ((checkpoint.record stage outcome now ref
        (jobId, idempotencyKey) item sequence).exec s).1 = .ok record := by
      intro sequence hseq
      have hcheckpoint : CheckpointRecord.postInit {
          jobId := item.val.jobId
          itemId := item.val.itemId
          idempotencyKey := item.val.idempotencyKey
          completedStage := stage
          attemptCount := item.val.attemptCount
          outcome := outcome
          configuration := item.val.configuration
          resultReference := ref
          recordedAt := now
          sequence := sequence } = .ok () := by
        simp [CheckpointRecord.postInit, except_seq_eq_ok, requireText_eq_ok, require_eq_ok,
          h.outcome_text, h.attempted, hseq]
      have hupdated := Checked.make_of_passed (released_passes item
        (ref <|> item.val.resultReference)
        (show (if stage = .completed then WorkState.completed else .checkpointed) ≠ .inProgress by
          split <;> decide))
      unfold releasedFields at hupdated
      unfold checkpoint.record
      simp only [exec_bind, exec_liftExcept, Checked.make_of_passed hcheckpoint, hupdated,
        exec_modify, exec_pure]
      exact ⟨_, rfl⟩
    unfold checkpoint
    simp only [exec_bind, exec_liftExcept, exec_get, requireOwned_eq_ok.2 h.owned]
    rcases hl : s.latest (jobId, idempotencyKey) with _ | last
    · exact hrecord 1 le_rfl
    · have hlt := h.forward last hl
      simp only
      rw [if_neg (by omega), if_neg (by rintro rfl; exact lt_irrefl _ hlt)]
      exact hrecord _ (Nat.le_add_left 1 _)
  obtain ⟨record, hr⟩ := hreturns
  have hout := checkpoint_outcome s jobId idempotencyKey owner stage outcome now ref
  unfold after
  generalize (checkpoint jobId idempotencyKey owner stage outcome now ref).exec s = r at hr hout
  cases hout with
  | raised e => cases hr
  | repeated current last owned latest same =>
    exact absurd (h.forward last latest) (by rw [same]; exact lt_irrefl _)
  | recorded current updated record hc =>
    have hitem : current = item := Option.some.inj (hc.owned.found.symm.trans h.owned.found)
    subst hitem
    exact ⟨updated, record, rfl, hc⟩

structure Terminalizes (s : WorkRepository) (key : Key) (owner : String)
    (state : TerminalWorkItemState) (code details : Option String) (now : DateTime)
    (ref : Option ObjectReference) (current completed : WorkItemRecord)
    (record : TerminalWorkItemRecord) : Prop where
  owned : s.Owned key owner now current
  fresh : s.terminal.get? key = none
  terminal : record.val = {
    jobId := current.val.jobId
    itemId := current.val.itemId
    idempotencyKey := current.val.idempotencyKey
    state := state
    failureCode := code
    failureDetails := details
    configuration := current.val.configuration
    attemptCount := current.val.attemptCount
    resultReference := ref <|> current.val.resultReference
    recordedAt := now }
  value : completed.val = releasedFields current .completed (ref <|> current.val.resultReference)

def putTerminal (s : WorkRepository) (key : Key) (completed : WorkItemRecord)
    (record : TerminalWorkItemRecord) : WorkRepository :=
  { s with
    terminal := s.terminal.insert key record
    items := s.items.insert key completed }

inductive TerminalizeOutcome (s : WorkRepository) (key : Key) (owner : String)
    (state : TerminalWorkItemState) (code details : Option String) (now : DateTime)
    (ref : Option ObjectReference) :
    Except PyError TerminalWorkItemRecord × WorkRepository → Prop where
  | raised (e : PyError) : TerminalizeOutcome s key owner state code details now ref (.error e, s)
  | repeated (existing : TerminalWorkItemRecord) (found : s.terminal.get? key = some existing)
      (same : state = existing.val.state ∧ code = existing.val.failureCode ∧
        details = existing.val.failureDetails) :
      TerminalizeOutcome s key owner state code details now ref (.ok existing, s)
  | settled (current completed : WorkItemRecord) (record : TerminalWorkItemRecord)
      (h : Terminalizes s key owner state code details now ref current completed record) :
      TerminalizeOutcome s key owner state code details now ref
        (.ok record, s.putTerminal key completed record)

theorem terminalize_outcome (s : WorkRepository) (jobId idempotencyKey owner : String)
    (state : TerminalWorkItemState) (code details : Option String) (now : DateTime)
    (ref : Option ObjectReference) :
    TerminalizeOutcome s (jobId, idempotencyKey) owner state code details now ref
      ((terminalize jobId idempotencyKey owner state code details now ref).exec s) := by
  unfold terminalize
  simp only [exec_bind, exec_get]
  rcases ht : s.terminal.get? (jobId, idempotencyKey) with _ | existing
  · simp only [exec_bind, exec_liftExcept, exec_modify]
    rcases ho : s.requireOwned (jobId, idempotencyKey) owner now with e | current
    · exact .raised e
    rw [requireOwned_eq_ok] at ho
    simp only
    rcases hm : Checked.make TerminalWorkItemRecord.postInit _ with e | record
    · exact .raised e
    have hrec := Checked.make_eq_ok.1 hm
    have hpass := released_passes current record.val.resultReference
      (show WorkState.completed ≠ .inProgress by decide)
    have hmake := Checked.make_of_passed hpass
    unfold releasedFields at hmake
    simp only [hmake, exec_pure]
    refine .settled current ⟨_, hpass⟩ record ⟨ho, ht, hrec, ?_⟩
    rw [hrec]
  · simp only
    split
    · exact .raised _
    · next h =>
      push Not at h
      simp only [Prod.mk.injEq] at h
      exact .repeated existing ht ⟨h.1, h.2.1, h.2.2.1⟩

inductive MarkPublishedOutcome (s : WorkRepository) (eventId : String) (publishedAt : DateTime) :
    Except PyError OutboxRecord × WorkRepository → Prop where
  | raised (e : PyError) (unknown : s.outbox.get? eventId = none) :
      MarkPublishedOutcome s eventId publishedAt (.error e, s)
  | repeated (record : OutboxRecord) (found : s.outbox.get? eventId = some record)
      (published : record.val.status = .published) :
      MarkPublishedOutcome s eventId publishedAt (.ok record, s)
  | published (record published : OutboxRecord) (found : s.outbox.get? eventId = some record)
      (pending : record.val.status = .pending)
      (value : published.val =
        { record.val with status := .published, publishedAt := some publishedAt }) :
      MarkPublishedOutcome s eventId publishedAt
        (.ok published, { s with outbox := s.outbox.insert eventId published })

theorem markPublished_outcome (s : WorkRepository) (eventId : String) (publishedAt : DateTime) :
    MarkPublishedOutcome s eventId publishedAt ((markPublished eventId publishedAt).exec s) := by
  unfold markPublished
  simp only [exec_bind, exec_get]
  rcases ho : s.outbox.get? eventId with _ | record
  · exact .raised _ ho
  simp only
  split
  · next hp => exact .repeated record ho hp
  · next hp =>
    have hpass : OutboxRecord.postInit
        { record.val with status := .published, publishedAt := some publishedAt } = .ok () := by
      simp [OutboxRecord.postInit, except_seq_eq_ok, require_eq_ok]
    simp only [exec_bind, exec_liftExcept, Checked.make_of_passed hpass, exec_set, exec_pure]
    refine .published record ⟨_, hpass⟩ ho ?_ rfl
    cases hs : record.val.status
    · rfl
    · exact absurd hs hp

/-- `create_with_outbox` of an item whose key, identifier and event are all new. -/
structure Creates (s : WorkRepository) (item : WorkItemRecord) (outbox : OutboxRecord) : Prop where
  freeKey : s.items.get? (item.val.jobId, item.val.idempotencyKey) = none
  freeItem : s.itemIds.get? (item.val.jobId, item.val.itemId) = none
  freeEvent : s.outbox.get? outbox.val.eventId = none

def putCreated (s : WorkRepository) (item : WorkItemRecord) (outbox : OutboxRecord) :
    WorkRepository :=
  { s with
    items := s.items.insert (item.val.jobId, item.val.idempotencyKey) item
    itemIds := s.itemIds.insert (item.val.jobId, item.val.itemId) item.val.idempotencyKey
    outbox := s.outbox.insert outbox.val.eventId outbox }

inductive CreateOutcome (s : WorkRepository) (item : WorkItemRecord) (outbox : OutboxRecord) :
    Except PyError WorkItemRecord × WorkRepository → Prop where
  | raised (e : PyError) : CreateOutcome s item outbox (.error e, s)
  | existing (existing : WorkItemRecord)
      (found : s.items.get? (item.val.jobId, item.val.idempotencyKey) = some existing)
      (same : existing.val.itemId = item.val.itemId ∧
        existing.val.configuration = item.val.configuration ∧
        existing.val.payloadReference = item.val.payloadReference) :
      CreateOutcome s item outbox (.ok existing, s)
  | created (h : Creates s item outbox) :
      CreateOutcome s item outbox (.ok item, s.putCreated item outbox)

theorem createWithOutbox_outcome (s : WorkRepository) (item : WorkItemRecord)
    (outbox : OutboxRecord) :
    CreateOutcome s item outbox ((createWithOutbox item outbox).exec s) := by
  unfold createWithOutbox
  simp only [exec_bind, exec_get]
  rcases hi : s.items.get? (item.val.jobId, item.val.idempotencyKey) with _ | existing
  · simp only
    split
    · exact .raised _
    next hid =>
    split
    · exact .raised _
    next hev =>
    simp only [Dict.contains, Bool.not_eq_true, Option.isSome_eq_false_iff,
      Option.isNone_iff_eq_none] at hid hev
    exact .created ⟨hi, hid, hev⟩
  · simp only
    split
    · exact .raised _
    · next h =>
      push Not at h
      exact .existing existing hi h

inductive SaveEffectOutcome (s : WorkRepository) (record : EffectRecord) :
    Except PyError EffectRecord × WorkRepository → Prop where
  | raised (e : PyError) : SaveEffectOutcome s record (.error e, s)
  | repeated (found : s.effects.get? (record.val.jobId, record.val.idempotencyKey) = some record) :
      SaveEffectOutcome s record (.ok record, s)
  | saved (item : WorkItemRecord)
      (found : s.items.get? (record.val.jobId, record.val.idempotencyKey) = some item)
      (same : item.val.itemId = record.val.itemId)
      (fresh : s.effects.get? (record.val.jobId, record.val.idempotencyKey) = none) :
      SaveEffectOutcome s record (.ok record,
        { s with
          effects := s.effects.insert (record.val.jobId, record.val.idempotencyKey) record })

theorem saveEffect_outcome (s : WorkRepository) (record : EffectRecord) :
    SaveEffectOutcome s record ((saveEffect record).exec s) := by
  unfold saveEffect
  simp only [exec_bind, exec_liftExcept, exec_get]
  rcases hi : s.requireItem (record.val.jobId, record.val.idempotencyKey) with e | item
  · exact .raised e
  rw [requireItem_eq_ok] at hi
  simp only
  split
  · exact .raised _
  next hid =>
  push Not at hid
  rcases he : s.effects.get? (record.val.jobId, record.val.idempotencyKey) with _ | existing
  · exact .saved item hi hid he
  · simp only
    split
    · exact .raised _
    · next h =>
      push Not at h
      subst h
      exact .repeated he

inductive SaveReconciliationOutcome (s : WorkRepository) (record : ReconciliationRecord) :
    Except PyError ReconciliationRecord × WorkRepository → Prop where
  | raised (e : PyError) : SaveReconciliationOutcome s record (.error e, s)
  | repeated (existing : ReconciliationRecord)
      (found : s.reconciliations.get? (record.val.jobId, record.val.idempotencyKey) =
        some existing) :
      SaveReconciliationOutcome s record (.ok existing, s)
  | saved (item : WorkItemRecord)
      (found : s.items.get? (record.val.jobId, record.val.idempotencyKey) = some item)
      (same : item.val.itemId = record.val.itemId)
      (fresh : s.reconciliations.get? (record.val.jobId, record.val.idempotencyKey) = none) :
      SaveReconciliationOutcome s record (.ok record,
        { s with reconciliations :=
            s.reconciliations.insert (record.val.jobId, record.val.idempotencyKey) record })

theorem saveReconciliation_outcome (s : WorkRepository) (record : ReconciliationRecord) :
    SaveReconciliationOutcome s record ((saveReconciliation record).exec s) := by
  unfold saveReconciliation
  simp only [exec_bind, exec_liftExcept, exec_get]
  rcases hi : s.requireItem (record.val.jobId, record.val.idempotencyKey) with e | item
  · exact .raised e
  rw [requireItem_eq_ok] at hi
  simp only
  split
  · exact .raised _
  next hid =>
  push Not at hid
  rcases he : s.reconciliations.get? (record.val.jobId, record.val.idempotencyKey) with _ | existing
  · exact .saved item hi hid he
  · simp only
    split
    · exact .raised _
    · exact .repeated existing he

end AiRetrieval.WorkRepository
