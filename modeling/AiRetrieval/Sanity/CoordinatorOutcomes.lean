import AiRetrieval.Sanity.WorldMoves
import AiRetrieval.Proofs.BrokerConservation
import AiRetrieval.Spec.CoordinatorMachine

/-! What each call of the coordinator does to the store and the broker. -/

namespace AiRetrieval

open Program AiRetrieval.Action WorkRepository

def notificationKey (n : WorkNotification) : Key := (n.val.jobId, n.val.idempotencyKey)

namespace BulkCoordinator

variable (env : Environment)

theorem submit_outcome (submission : WorkSubmission) (context : ExecutionContext) (w : World) :
    ((submit env submission context).after w).broker = w.broker ∧
      ∃ reply, IssueOutcome w.store (reply, ((submit env submission context).after w).store) := by
  unfold submit after
  split
  · exact ⟨rfl, _, .raised (.valueError "")⟩
  rw [exec_bind, exec_onObjects]
  rcases (ObjectResultStore.putPayload env.sha256 submission.val.payload).exec w.objects with
    ⟨e | payloadReference, objects⟩
  · exact ⟨rfl, _, .raised e⟩
  simp only
  rw [exec_bind, exec_liftExcept]
  rcases hi : pendingItem submission payloadReference context.configuration.reference with e | item
  · exact ⟨rfl, _, .raised e⟩
  simp only
  rw [exec_bind, exec_ask]
  simp only
  rcases newIdentifier "outbox" (env.identifier w.moment) with e | eventId
  · exact ⟨rfl, _, .raised e⟩
  simp only
  rw [exec_bind, exec_liftExcept]
  rcases ho : announcement item eventId with e | outbox
  · exact ⟨rfl, _, .raised e⟩
  exact ⟨rfl, _, (createWithOutbox_outcome w.store item outbox).issueOutcome
    (issued_of_announcement hi ho)⟩

theorem checkpoint_store (claim : WorkClaim) (stage : CheckpointStage) (outcome : String)
    (result : Option Bytes) (w : World) :
    ((checkpoint env claim stage outcome result).after w).broker = w.broker ∧
      ((checkpoint env claim stage outcome result).after w).store =
        match claim.requireOwner, ((putResult? env.sha256 result).exec w).1,
          env.clock w.moment with
        | .ok owner, .ok ref, .ok now =>
          (WorkRepository.checkpoint claim.item.val.jobId claim.item.val.idempotencyKey owner
            stage outcome now ref).after w.store
        | _, _, _ => w.store := by
  unfold checkpoint after
  rw [exec_bind, exec_liftExcept]
  rcases claim.requireOwner with e | owner
  · exact ⟨rfl, rfl⟩
  simp only
  have hput := putResult?_same env.sha256 result w
  unfold after at hput
  rw [exec_bind]
  generalize (putResult? env.sha256 result).exec w = r at hput
  obtain ⟨e | ref, w₁⟩ := r <;> simp only at hput <;> rw [hput]
  · exact ⟨rfl, rfl⟩
  simp only
  rw [exec_bind, exec_ask]
  simp only
  rcases env.clock w.moment with e | now
  · exact ⟨rfl, rfl⟩
  · exact ⟨rfl, rfl⟩

theorem checkpoint_effect (claim : WorkClaim) (stage : CheckpointStage) (outcome : String)
    (result : Option Bytes) (w : World) :
    ((checkpoint env claim stage outcome result).after w).store = w.store ∨
      ∃ owner now ref reply, claim.requireOwner = .ok owner ∧
        (∃ ref, ((putResult? env.sha256 result).exec w).1 = .ok ref) ∧
        env.clock w.moment = .ok now ∧
        CheckpointOutcome w.store (claimKey claim) owner stage outcome now ref
          (reply, ((checkpoint env claim stage outcome result).after w).store) := by
  rw [(checkpoint_store env claim stage outcome result w).2]
  split
  · next owner ref now ho href hnow =>
    exact Or.inr ⟨owner, now, ref, _, ho, ⟨ref, href⟩, hnow, checkpoint_outcome ..⟩
  · exact Or.inl rfl

section Deliveries

variable (delivery : BrokerDelivery) (owner : String) (leaseDuration : TimeDelta) (w : World)

theorem claimDelivery_effect :
    ((claimDelivery env delivery owner leaseDuration).after w).store = w.store ∧
        ((claimDelivery env delivery owner leaseDuration).after w).broker = w.broker ∨
      ∃ item now claimed, w.store.items.get?
        (notificationKey delivery.val.notification) = some item ∧
        matchesDelivery item delivery.val.notification ∧ env.clock w.moment = .ok now ∧
        (claim delivery.val.notification.val.jobId delivery.val.notification.val.idempotencyKey
          owner now leaseDuration).exec w.store =
          (.ok claimed, ((claimDelivery env delivery owner leaseDuration).after w).store) ∧
        ((claimDelivery env delivery owner leaseDuration).after w).broker =
          { w.broker with inflight := w.broker.inflight.erase delivery.val.deliveryId } := by
  unfold claimDelivery after notificationKey
  simp only
  rw [exec_bind, exec_get]
  simp only
  rcases w.store.items.get? (delivery.val.notification.val.jobId,
    delivery.val.notification.val.idempotencyKey) with _ | item
  · exact Or.inl ⟨rfl, rfl⟩
  simp only
  split
  · exact Or.inl ⟨rfl, rfl⟩
  next hmatches =>
  rw [not_not] at hmatches
  rw [exec_bind, exec_ask]
  rcases env.clock w.moment with e | now
  · exact Or.inl ⟨rfl, rfl⟩
  simp only
  rw [exec_bind, exec_onStore]
  have hout := claim_outcome w.store delivery.val.notification.val.jobId
    delivery.val.notification.val.idempotencyKey owner now leaseDuration
  rcases hc : (claim delivery.val.notification.val.jobId
    delivery.val.notification.val.idempotencyKey owner now leaseDuration).exec w.store with
    ⟨e | claimed, s⟩
  · rw [hc] at hout
    cases hout
    exact Or.inl ⟨rfl, rfl⟩
  · exact Or.inr ⟨item, now, claimed, rfl, hmatches, rfl, hc, rfl⟩

theorem claimDelivery_acknowledges {item : WorkItemRecord} {now : DateTime} {claimed : WorkClaim}
    {s : WorkRepository}
    (hi : w.store.items.get? (notificationKey delivery.val.notification) = some item)
    (hm : matchesDelivery item delivery.val.notification) (hnow : env.clock w.moment = .ok now)
    (hc : (claim delivery.val.notification.val.jobId delivery.val.notification.val.idempotencyKey
      owner now leaseDuration).exec w.store = (.ok claimed, s)) :
    ((claimDelivery env delivery owner leaseDuration).after w).store = s ∧
      ((claimDelivery env delivery owner leaseDuration).after w).broker =
        { w.broker with inflight := w.broker.inflight.erase delivery.val.deliveryId } := by
  unfold notificationKey at hi
  unfold claimDelivery after
  simp only
  rw [exec_bind, exec_get]
  simp only
  rw [hi]
  simp only
  rw [if_neg (not_not.2 hm), exec_bind, exec_ask, hnow]
  simp only
  rw [exec_bind, exec_onStore, hc]
  exact ⟨rfl, rfl⟩

end Deliveries

end BulkCoordinator

theorem receiveNext_effect (env : Environment) (w : World) :
    ((CoordinatorCall.receiveNext env).after w).store = w.store ∧
      ((CoordinatorCall.receiveNext env).after w).broker =
        ((NotificationBroker.receive (env.brokerIdentifier w.moment)).exec w.broker).2 := by
  unfold CoordinatorCall.receiveNext after
  rw [exec_bind, exec_get]
  simp only
  rw [exec_bind, exec_set]
  exact ⟨rfl, rfl⟩

/-- A receive that is given no usable identifier drops the head of the queue. -/
theorem receive_unanswered {b : NotificationBroker} {identifier : Except PyError String}
    (h : ¬NotificationBroker.Answered (brokerMachine.transition b (.receive identifier))) :
    ∃ n rest, b.queued = n :: rest ∧
      ((NotificationBroker.receive identifier).exec b).2 = { b with queued := rest } := by
  rcases hq : b.queued with _ | ⟨n, rest⟩
  · exact absurd (fun i _ hne => absurd hq hne) h
  refine ⟨n, rest, rfl, ?_⟩
  unfold NotificationBroker.receive
  simp only [exec_bind, exec_get, hq, exec_set, exec_liftExcept]
  rcases identifier with e | deliveryId
  · rfl
  simp only
  rw [if_pos ?_]
  · rfl
  · by_contra hfresh
    refine h fun i hi _ => ⟨deliveryId, ?_, ?_⟩
    · cases hi; rfl
    · simpa [Machine.transition] using hfresh

end AiRetrieval
