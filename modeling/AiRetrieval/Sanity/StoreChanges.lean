import AiRetrieval.Sanity.StoreOutcomes
import AiRetrieval.Spec.StoreMachine

/-! `Change` says once what any repository call can do to the store. The store
invariant and every fact about runs are proved from it. -/

namespace AiRetrieval

/-- What a submission fixes about an item. -/
structure Work where
  jobId : String
  itemId : String
  idempotencyKey : String
  payloadReference : ObjectReference
  configuration : ConfigurationReference
  deriving DecidableEq

def Work.key (w : Work) : Key := (w.jobId, w.idempotencyKey)

def workOf (item : WorkItemRecord) : Work :=
  ⟨item.val.jobId, item.val.itemId, item.val.idempotencyKey, item.val.payloadReference,
    item.val.configuration⟩

structure Names (notification : WorkNotification) (w : Work) : Prop where
  jobId : notification.val.jobId = w.jobId
  itemId : notification.val.itemId = w.itemId
  idempotencyKey : notification.val.idempotencyKey = w.idempotencyKey
  configuration : notification.val.configurationVersion = w.configuration.val.version
  payload : notification.val.payloadReference = w.payloadReference.val.reference
  payloadHash : notification.val.payloadHash = w.payloadReference.val.contentHash

abbrev Announces (record : OutboxRecord) (w : Work) : Prop := Names record.val.notification w

namespace WorkRepository

open Program

def work? (s : WorkRepository) (key : Key) : Option Work := (s.items.get? key).map workOf

/-- A fresh item and its pending announcement. -/
structure Issued (item : WorkItemRecord) (outbox : OutboxRecord) : Prop where
  pending : item.val.state = .pending
  attempts : item.val.attemptCount = 0
  revision : item.val.revision = 0
  unpublished : outbox.val.status = .pending
  event : outbox.val.notification.val.eventId = outbox.val.eventId
  announces : Announces outbox (workOf item)

structure Replaces (s s' : WorkRepository) (key : Key) (current next : WorkItemRecord) : Prop where
  found : s.items.get? key = some current
  opened : current.val.state ≠ .completed
  work : workOf next = workOf current
  revision : next.val.revision = current.val.revision + 1
  items : s'.items = s.items.insert key next
  itemIds : s'.itemIds = s.itemIds
  outbox : s'.outbox = s.outbox
  effects : s'.effects = s.effects
  reconciliations : s'.reconciliations = s.reconciliations

theorem Owned.opened {s : WorkRepository} {key : Key} {owner : String} {now : DateTime}
    {item : WorkItemRecord} (h : s.Owned key owner now item) : item.val.state ≠ .completed := by
  rw [h.inProgress]
  decide

theorem Acquires.replaces {s : WorkRepository} {key : Key} {owner : String} {now : DateTime}
    {d : TimeDelta} {current claimed : WorkItemRecord}
    (h : Acquires s key owner now d current claimed) :
    Replaces s (s.putItem key claimed) key current claimed :=
  ⟨h.found, h.opened, by simp [workOf, h.value, acquiredFields],
    by simp [h.value, acquiredFields], rfl, rfl, rfl, rfl, rfl⟩

theorem Renews.replaces {s : WorkRepository} {key : Key} {owner : String} {now : DateTime}
    {d : TimeDelta} {current renewed : WorkItemRecord}
    (h : Renews s key owner now d current renewed) :
    Replaces s (s.putItem key renewed) key current renewed :=
  ⟨h.owned.found, h.owned.opened, by simp [workOf, h.value], by simp [h.value], rfl, rfl, rfl,
    rfl, rfl⟩

theorem Checkpoints.replaces {s : WorkRepository} {key : Key} {owner : String}
    {stage : CheckpointStage} {outcome : String} {now : DateTime} {ref : Option ObjectReference}
    {current updated : WorkItemRecord} {record : CheckpointRecord}
    (h : Checkpoints s key owner stage outcome now ref current updated record) :
    Replaces s (s.putCheckpoint key updated record) key current updated :=
  ⟨h.owned.found, h.owned.opened, by simp [workOf, h.value, releasedFields],
    by simp [h.value, releasedFields], rfl, rfl, rfl, rfl, rfl⟩

theorem Terminalizes.replaces {s : WorkRepository} {key : Key} {owner : String}
    {state : TerminalWorkItemState} {code details : Option String} {now : DateTime}
    {ref : Option ObjectReference} {current completed : WorkItemRecord}
    {record : TerminalWorkItemRecord}
    (h : Terminalizes s key owner state code details now ref current completed record) :
    Replaces s (s.putTerminal key completed record) key current completed :=
  ⟨h.owned.found, h.owned.opened, by simp [workOf, h.value, releasedFields],
    by simp [h.value, releasedFields], rfl, rfl, rfl, rfl, rfl⟩

/-- What a call of the repository can do to the store. -/
inductive Change (s : WorkRepository) : WorkRepository → Prop where
  | unchanged : Change s s
  | acquired {key : Key} {owner : String} {now : DateTime} {d : TimeDelta}
      {current claimed : WorkItemRecord} (h : Acquires s key owner now d current claimed) :
      Change s (s.putItem key claimed)
  | renewed {key : Key} {owner : String} {now : DateTime} {d : TimeDelta}
      {current renewed : WorkItemRecord} (h : Renews s key owner now d current renewed) :
      Change s (s.putItem key renewed)
  | checkpointed {key : Key} {owner : String} {stage : CheckpointStage} {outcome : String}
      {now : DateTime} {ref : Option ObjectReference} {current updated : WorkItemRecord}
      {record : CheckpointRecord}
      (h : Checkpoints s key owner stage outcome now ref current updated record) :
      Change s (s.putCheckpoint key updated record)
  | settled {key : Key} {owner : String} {state : TerminalWorkItemState}
      {code details : Option String} {now : DateTime} {ref : Option ObjectReference}
      {current completed : WorkItemRecord} {record : TerminalWorkItemRecord}
      (h : Terminalizes s key owner state code details now ref current completed record) :
      Change s (s.putTerminal key completed record)
  | created {item : WorkItemRecord} {outbox : OutboxRecord} (issued : Issued item outbox)
      (h : Creates s item outbox) : Change s (s.putCreated item outbox)
  | published {eventId : String} {record published : OutboxRecord}
      (found : s.outbox.get? eventId = some record)
      (event : published.val.eventId = record.val.eventId)
      (notification : published.val.notification = record.val.notification) :
      Change s { s with outbox := s.outbox.insert eventId published }
  | effectSaved {record : EffectRecord} {item : WorkItemRecord}
      (found : s.items.get? (record.val.jobId, record.val.idempotencyKey) = some item)
      (same : item.val.itemId = record.val.itemId)
      (fresh : s.effects.get? (record.val.jobId, record.val.idempotencyKey) = none) :
      Change s { s with
        effects := s.effects.insert (record.val.jobId, record.val.idempotencyKey) record }
  | reconciliationSaved {record : ReconciliationRecord} {item : WorkItemRecord}
      (found : s.items.get? (record.val.jobId, record.val.idempotencyKey) = some item)
      (same : item.val.itemId = record.val.itemId)
      (fresh : s.reconciliations.get? (record.val.jobId, record.val.idempotencyKey) = none) :
      Change s { s with reconciliations :=
        s.reconciliations.insert (record.val.jobId, record.val.idempotencyKey) record }
  | failureRecorded (failures : List PersistenceFailureOutcome) :
      Change s { s with persistenceFailures := failures }

section Calls

variable {s : WorkRepository}

theorem ClaimOutcome.change {key : Key} {owner : String} {now : DateTime} {d : TimeDelta}
    {r : Except PyError WorkClaim × WorkRepository} (h : ClaimOutcome s key owner now d r) :
    Change s r.2 := by
  cases h with
  | raised e => exact .unchanged
  | duplicate current found busy => exact .unchanged
  | acquired current claimed h => exact .acquired h

theorem ClaimOutcome.raises {key : Key} {owner : String} {now : DateTime} {d : TimeDelta}
    {r : Except PyError WorkClaim × WorkRepository} (h : ClaimOutcome s key owner now d r)
    {e : PyError} (he : r.1 = .error e) : r.2 = s := by
  cases h <;> first | rfl | cases he

theorem RenewOutcome.change {key : Key} {owner : String} {now : DateTime} {d : TimeDelta}
    {r : Except PyError WorkItemRecord × WorkRepository} (h : RenewOutcome s key owner now d r) :
    Change s r.2 := by
  cases h with
  | raised e => exact .unchanged
  | renewed current renewed h => exact .renewed h

theorem RenewOutcome.raises {key : Key} {owner : String} {now : DateTime} {d : TimeDelta}
    {r : Except PyError WorkItemRecord × WorkRepository} (h : RenewOutcome s key owner now d r)
    {e : PyError} (he : r.1 = .error e) : r.2 = s := by
  cases h <;> first | rfl | cases he

theorem CheckpointOutcome.change {key : Key} {owner : String} {stage : CheckpointStage}
    {outcome : String} {now : DateTime} {ref : Option ObjectReference}
    {r : Except PyError CheckpointRecord × WorkRepository}
    (h : CheckpointOutcome s key owner stage outcome now ref r) : Change s r.2 := by
  cases h with
  | raised e => exact .unchanged
  | repeated current last owned latest same => exact .unchanged
  | recorded current updated record h => exact .checkpointed h

theorem CheckpointOutcome.raises {key : Key} {owner : String} {stage : CheckpointStage}
    {outcome : String} {now : DateTime} {ref : Option ObjectReference}
    {r : Except PyError CheckpointRecord × WorkRepository}
    (h : CheckpointOutcome s key owner stage outcome now ref r)
    {e : PyError} (he : r.1 = .error e) : r.2 = s := by
  cases h <;> first | rfl | cases he

theorem TerminalizeOutcome.change {key : Key} {owner : String} {state : TerminalWorkItemState}
    {code details : Option String} {now : DateTime} {ref : Option ObjectReference}
    {r : Except PyError TerminalWorkItemRecord × WorkRepository}
    (h : TerminalizeOutcome s key owner state code details now ref r) : Change s r.2 := by
  cases h with
  | raised e => exact .unchanged
  | repeated existing found same => exact .unchanged
  | settled current completed record h => exact .settled h

theorem TerminalizeOutcome.raises {key : Key} {owner : String} {state : TerminalWorkItemState}
    {code details : Option String} {now : DateTime} {ref : Option ObjectReference}
    {r : Except PyError TerminalWorkItemRecord × WorkRepository}
    (h : TerminalizeOutcome s key owner state code details now ref r)
    {e : PyError} (he : r.1 = .error e) : r.2 = s := by
  cases h <;> first | rfl | cases he

theorem MarkPublishedOutcome.change {eventId : String} {publishedAt : DateTime}
    {r : Except PyError OutboxRecord × WorkRepository}
    (h : MarkPublishedOutcome s eventId publishedAt r) : Change s r.2 := by
  cases h with
  | raised e unknown => exact .unchanged
  | repeated record found published => exact .unchanged
  | published record published found pending value =>
    exact .published found (by rw [value]) (by rw [value])

theorem MarkPublishedOutcome.raises {eventId : String} {publishedAt : DateTime}
    {r : Except PyError OutboxRecord × WorkRepository}
    (h : MarkPublishedOutcome s eventId publishedAt r)
    {e : PyError} (he : r.1 = .error e) : r.2 = s := by
  cases h <;> first | rfl | cases he

theorem SaveEffectOutcome.change {record : EffectRecord}
    {r : Except PyError EffectRecord × WorkRepository} (h : SaveEffectOutcome s record r) :
    Change s r.2 := by
  cases h with
  | raised e => exact .unchanged
  | repeated found => exact .unchanged
  | saved item found same fresh => exact .effectSaved found same fresh

theorem SaveEffectOutcome.raises {record : EffectRecord}
    {r : Except PyError EffectRecord × WorkRepository} (h : SaveEffectOutcome s record r)
    {e : PyError} (he : r.1 = .error e) : r.2 = s := by
  cases h <;> first | rfl | cases he

theorem SaveReconciliationOutcome.change {record : ReconciliationRecord}
    {r : Except PyError ReconciliationRecord × WorkRepository}
    (h : SaveReconciliationOutcome s record r) : Change s r.2 := by
  cases h with
  | raised e => exact .unchanged
  | repeated existing found => exact .unchanged
  | saved item found same fresh => exact .reconciliationSaved found same fresh

theorem SaveReconciliationOutcome.raises {record : ReconciliationRecord}
    {r : Except PyError ReconciliationRecord × WorkRepository}
    (h : SaveReconciliationOutcome s record r)
    {e : PyError} (he : r.1 = .error e) : r.2 = s := by
  cases h <;> first | rfl | cases he

theorem recordPersistenceFailure_outcome (s : WorkRepository)
    (outcome : PersistenceFailureOutcome) :
    ∃ failures, (recordPersistenceFailure outcome).exec s =
      (.ok (), { s with persistenceFailures := failures }) := by
  unfold recordPersistenceFailure
  rw [exec_modify]
  split
  · exact ⟨s.persistenceFailures, rfl⟩
  · exact ⟨_, rfl⟩

theorem recordPersistenceFailure_change (outcome : PersistenceFailureOutcome) :
    Change s ((recordPersistenceFailure outcome).exec s).2 := by
  obtain ⟨failures, hr⟩ := recordPersistenceFailure_outcome s outcome
  rw [hr]
  exact .failureRecorded failures

theorem issued_of_announcement {submission : WorkSubmission} {payloadReference : ObjectReference}
    {configuration : ConfigurationReference} {item : WorkItemRecord} {eventId : String}
    {outbox : OutboxRecord}
    (hi : BulkCoordinator.pendingItem submission payloadReference configuration = .ok item)
    (ho : BulkCoordinator.announcement item eventId = .ok outbox) : Issued item outbox := by
  unfold BulkCoordinator.pendingItem at hi
  unfold BulkCoordinator.announcement at ho
  rw [Checked.make_eq_ok] at hi
  obtain ⟨notification, hn, ho⟩ := except_bind_eq_ok.1 ho
  rw [Checked.make_eq_ok] at hn ho
  constructor
  · rw [hi]
  · rw [hi]
  · rw [hi]
  · rw [ho]
  · rw [ho]; simp only [hn]
  · constructor <;> simp [workOf, ho, hn]

inductive IssueOutcome (s : WorkRepository) : Except PyError WorkItemRecord × WorkRepository → Prop
  where
  | raised (e : PyError) : IssueOutcome s (.error e, s)
  | existing (item : WorkItemRecord) : IssueOutcome s (.ok item, s)
  | created (item : WorkItemRecord) (outbox : OutboxRecord) (issued : Issued item outbox)
      (h : Creates s item outbox) : IssueOutcome s (.ok item, s.putCreated item outbox)

theorem CreateOutcome.issueOutcome {item : WorkItemRecord} {outbox : OutboxRecord}
    {r : Except PyError WorkItemRecord × WorkRepository} (issued : Issued item outbox)
    (h : CreateOutcome s item outbox r) : IssueOutcome s r := by
  cases h with
  | raised e => exact .raised e
  | existing existing found same => exact .existing existing
  | created h => exact .created item outbox issued h

theorem issue_outcome (s : WorkRepository) (submission : WorkSubmission)
    (context : ExecutionContext) (payloadReference : ObjectReference)
    (identifier : Except PyError String) :
    IssueOutcome s ((issue submission context payloadReference identifier).exec s) := by
  unfold issue
  split
  · exact .raised _
  simp only [exec_bind, exec_liftExcept]
  rcases hi : BulkCoordinator.pendingItem submission payloadReference
    context.configuration.reference with e | item
  · exact .raised e
  simp only
  rcases BulkCoordinator.newIdentifier "outbox" identifier with e | eventId
  · exact .raised e
  simp only
  rcases ho : BulkCoordinator.announcement item eventId with e | outbox
  · exact .raised e
  exact (createWithOutbox_outcome s item outbox).issueOutcome (issued_of_announcement hi ho)

theorem IssueOutcome.change {r : Except PyError WorkItemRecord × WorkRepository}
    (h : IssueOutcome s r) : Change s r.2 := by
  cases h with
  | raised e => exact .unchanged
  | existing item => exact .unchanged
  | created item outbox issued h => exact .created issued h

theorem IssueOutcome.raises {r : Except PyError WorkItemRecord × WorkRepository}
    (h : IssueOutcome s r)
    {e : PyError} (he : r.1 = .error e) : r.2 = s := by
  cases h <;> first | rfl | cases he

theorem call_change (call : StoreCall) (s : WorkRepository) : Change s (storeMachine call s).2 := by
  cases call <;> simp only [storeMachine, StoreCall.program, exec_map]
  case create => exact (issue_outcome ..).change
  case claim => exact (claim_outcome ..).change
  case renew => exact (renew_outcome ..).change
  case checkpoint => exact (checkpoint_outcome ..).change
  case terminalize => exact (terminalize_outcome ..).change
  case markPublished => exact (markPublished_outcome ..).change
  case saveEffect => exact (saveEffect_outcome ..).change
  case saveReconciliation => exact (saveReconciliation_outcome ..).change
  case recordPersistenceFailure => exact recordPersistenceFailure_change _

end Calls

end WorkRepository

end AiRetrieval
