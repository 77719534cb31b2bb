import AiRetrieval.Proofs.StaleClaims
import AiRetrieval.Sanity.WakeUps

/-! When an item that needs a worker still has a notification that brings one. A delivery
is acknowledged when its item is claimed, so the lease takes the notification's place; it
does not give it back when it runs out or is dropped by a checkpoint. -/

namespace AiRetrieval

open Program AiRetrieval.Action WorkRepository

/-- The item of a notification that is gone can do without it. -/
def Spares (w : World) (now : DateTime) (n : WorkNotification) : Prop :=
  ∀ key item, w.store.items.get? key = some item → Names n (workOf item) → Attended w now item

def headDropped (w : World) : World :=
  { w with broker := { w.broker with queued := w.broker.queued.tail } }

def acknowledged (w : World) (deliveryId : String) : World :=
  { w with broker := { w.broker with inflight := w.broker.inflight.erase deliveryId } }

section Conditions

variable (env : Environment) (s : TimedWorld) (crash : Option Nat)

/-- The checkpoint takes the item out of its lease and does not finish it. -/
structure Releases (claim : WorkClaim) (stage : CheckpointStage) (outcome : String)
    (result : Option Bytes) (item : WorkItemRecord) : Prop where
  unfinished : stage ≠ .completed
  alive : crash ≠ some s.world.moment
  stored : ∃ ref, ((putResult? env.sha256 result).exec s.world).1 = .ok ref
  recordable : ∃ owner, claim.requireOwner = .ok owner ∧
    Recordable s.world.store (claimKey claim) owner stage outcome s.now item

/-- `claim_delivery` claims, and so acknowledges the delivery. -/
structure Takes (delivery : BrokerDelivery) (owner : String) (leaseDuration : TimeDelta) :
    Prop where
  accepted : ∃ item, s.world.store.items.get? (notificationKey delivery.val.notification) =
    some item ∧ BulkCoordinator.matchesDelivery item delivery.val.notification
  alive : crash ≠ some s.world.moment
  claimable : Claimable s.world.store (notificationKey delivery.val.notification) owner s.now
    leaseDuration

/-- Before a step: whatever notification or lease the step takes from an item, the item is
finished, leased or has another notification.

Time takes no lease past its expiry; a checkpoint drops no lease of an unfinished item;
a receive without a usable delivery identifier drops no notification, and an
acknowledgement takes none of another item, unless the item can do without it. -/
def KeepsWakeUp : CoordinatorInput → Prop
  | .pass now => ∀ key item, s.world.store.items.get? key = some item → LeasedAt item s.now →
      ¬LeasedAt item now → Awaits s.world (workOf item)
  | .call (.checkpoint claim stage outcome result) crash => ∀ item,
      Releases env s crash claim stage outcome result item → Awaits s.world (workOf item)
  | .call .receive _ =>
      NotificationBroker.Answered
        (brokerMachine.transition s.world.broker (.receive (env.brokerIdentifier s.world.moment))) ∨
      ∀ n ∈ s.world.broker.queued.head?, Spares (headDropped s.world) s.now n
  | .call (.claimDelivery delivery owner leaseDuration) crash =>
      Takes s crash delivery owner leaseDuration →
      ∀ n ∈ s.world.broker.inflight.get? delivery.val.deliveryId,
        notificationKey n ≠ notificationKey delivery.val.notification →
        Spares (acknowledged s.world delivery.val.deliveryId) s.now n
  | _ => True

end Conditions

section Steps

variable {env : Environment} {w w' : World} {now : DateTime}

theorem NoLostWakeUp.spared {n : WorkNotification} (h : NoLostWakeUp ⟨w, now⟩)
    (hitems : w'.store.items = w.store.items)
    (hsub : ∀ m ∈ wakeUps w, m ∈ wakeUps w' ∨ m = n) :
    NoLostWakeUp ⟨w', now⟩ ↔ Spares w' now n := by
  constructor
  · exact fun h' key item hi _ => noLostWakeUp_iff.1 h' key item hi
  · intro hs
    refine h.frame (fun key item hi => Or.inl (hitems ▸ hi)) fun key item hi ha => ?_
    obtain ⟨m, hm, hnames⟩ := ha
    rcases hsub m hm with hm | rfl
    · exact Or.inr (Or.inr ⟨m, hm, hnames⟩)
    · exact hs key item hi hnames

theorem NoLostWakeUp.kept (h : NoLostWakeUp ⟨w, now⟩) (hitems : w'.store.items = w.store.items)
    (hsub : wakeUps w ⊆ wakeUps w') : NoLostWakeUp ⟨w', now⟩ :=
  h.frame (fun _ _ hi => Or.inl (hitems ▸ hi)) fun _ _ _ ha => Or.inr (Or.inr (ha.mono hsub))

theorem submit_attended (submission : WorkSubmission) (context : ExecutionContext)
    (h : NoLostWakeUp ⟨w, now⟩) :
    NoLostWakeUp ⟨(BulkCoordinator.submit env submission context).after w, now⟩ := by
  obtain ⟨hb, reply, hout⟩ := BulkCoordinator.submit_outcome env submission context w
  generalize (BulkCoordinator.submit env submission context).after w = w' at hb hout
  have hsame : w'.store = w.store → NoLostWakeUp ⟨w', now⟩ := by
    intro hs
    refine h.kept (by rw [hs]) ?_
    unfold wakeUps
    rw [hs, hb]
    exact List.Subset.refl _
  generalize hs : w'.store = s' at hout hsame
  cases hout with
  | raised e => exact hsame rfl
  | existing item => exact hsame rfl
  | created item outbox issued hc =>
    have holdOutbox : ∀ record ∈ w.store.pendingOutbox,
        record ∈ (w.store.putCreated item outbox).pendingOutbox := by
      intro record hr
      obtain ⟨⟨eventId, he⟩, hp⟩ := mem_pendingOutbox.1 hr
      have hne : eventId ≠ outbox.val.eventId := by
        rintro rfl
        rw [hc.freeEvent] at he
        cases he
      exact mem_pendingOutbox.2 ⟨⟨eventId, (Dict.get?_insert_of_ne _ _ hne).trans he⟩, hp⟩
    have hsub : wakeUps w ⊆ wakeUps w' := by
      intro n hn
      rw [mem_wakeUps] at hn ⊢
      rw [hs, hb]
      exact hn.imp_left fun ⟨record, hr, hrn⟩ => ⟨record, holdOutbox record hr, hrn⟩
    have hannounced : Awaits w' (workOf item) := by
      refine ⟨outbox.val.notification, mem_wakeUps.2 (Or.inl ⟨outbox, ?_, rfl⟩), issued.announces⟩
      rw [hs]
      exact mem_pendingOutbox.2 ⟨⟨_, Dict.get?_insert_self ..⟩, issued.unpublished⟩
    refine h.frame (fun key i hi => ?_) fun key i _ ha => Or.inr (Or.inr (ha.mono hsub))
    rw [hs, putCreated, Dict.get?_insert] at hi
    split at hi
    · cases hi; exact Or.inr (Or.inr (Or.inr hannounced))
    · exact Or.inl hi

theorem relay_attended (hs : w.store.StoreInvariant) (h : NoLostWakeUp ⟨w, now⟩) :
    NoLostWakeUp ⟨(BulkCoordinator.relayPending env).after w, now⟩ := by
  obtain ⟨hsub, hitems⟩ := relay_wakeUps env w.store.pendingOutbox w hs.stored_pending
  exact h.kept hitems hsub

theorem redeliver_attended (h : NoLostWakeUp ⟨w, now⟩) :
    NoLostWakeUp ⟨(onBroker NotificationBroker.redeliverUnacknowledged).after w, now⟩ := by
  refine h.kept rfl fun n hn => ?_
  rw [mem_wakeUps] at hn ⊢
  rcases hn with hn | hn | ⟨deliveryId, hn⟩
  · exact Or.inl hn
  · exact Or.inr (Or.inl (List.mem_append_right _ hn))
  · exact Or.inr (Or.inl (List.mem_append_left _ ((Dict.mem_values_iff ..).2 ⟨_, hn⟩)))

theorem terminalize_attended (key : Key) (owner : String) (state : TerminalWorkItemState)
    (code details : Option String) (time : DateTime) (ref : Option ObjectReference)
    (h : NoLostWakeUp ⟨w, now⟩) :
    NoLostWakeUp ⟨(onStore (terminalize key.1 key.2 owner state code details time ref)).after w,
      now⟩ := by
  have hout := terminalize_outcome w.store key.1 key.2 owner state code details time ref
  rw [after, exec_onStore]
  generalize (terminalize key.1 key.2 owner state code details time ref).exec w.store = r at hout
  cases hout with
  | raised e => exact h
  | repeated existing found same => exact h
  | settled current completed record hc =>
    have hdone : completed.val.state = .completed := by rw [hc.value]; rfl
    exact h.replaced hc.replaces rfl (Or.inl hdone)

theorem receive_attended_iff (h : NoLostWakeUp ⟨w, now⟩) :
    NoLostWakeUp ⟨(CoordinatorCall.receiveNext env).after w, now⟩ ↔
      KeepsWakeUp env ⟨w, now⟩ (.call .receive none) := by
  obtain ⟨hs, hb⟩ := receiveNext_effect env w
  generalize (CoordinatorCall.receiveNext env).after w = w' at hs hb
  unfold KeepsWakeUp
  by_cases ha : NotificationBroker.Answered
    (brokerMachine.transition w.broker (.receive (env.brokerIdentifier w.moment)))
  · refine iff_of_true (h.kept (by rw [hs]) fun n hn => ?_) (Or.inl ha)
    rw [mem_wakeUps] at hn ⊢
    rw [hs]
    refine hn.imp_right fun hn => ?_
    rcases hq : w.broker.queued with _ | ⟨head, rest⟩
    · rw [NotificationBroker.receive_of_empty _ hq] at hb
      rwa [hb]
    · obtain ⟨deliveryId, hid, hblank, hfree⟩ := ha _ rfl (by simp [Machine.transition, hq])
      rw [hid] at hb
      obtain ⟨delivery, hd⟩ := NotificationBroker.receive_answered hq hblank hfree
      rw [hd] at hb
      have hnone : w.broker.inflight.get? deliveryId = none := by
        simpa [Machine.transition, Dict.contains] using hfree
      rw [hb]
      rcases hn with hn | ⟨id, hn⟩
      · rw [hq] at hn
        rcases List.mem_cons.1 hn with rfl | hn
        · exact Or.inr ⟨deliveryId, Dict.get?_insert_self ..⟩
        · exact Or.inl hn
      · exact Or.inr ⟨id, Dict.extends_insert _ hnone _ _ hn⟩
  · obtain ⟨n, rest, hq, hdropped⟩ := receive_unanswered ha
    rw [hdropped] at hb
    have hwake : ∀ m, m ∈ wakeUps w' ↔ m ∈ wakeUps (headDropped w) := by
      intro m
      rw [mem_wakeUps, mem_wakeUps, hs, hb]
      simp [headDropped, hq]
    have hspares : Spares w' now n ↔ Spares (headDropped w) now n := by
      unfold Spares Attended Awaits
      simp only [hwake, hs]
      rfl
    simp only [ha, false_or, hq, List.head?_cons, Option.mem_def, Option.some.injEq, forall_eq']
    rw [← hspares]
    refine h.spared (by rw [hs]) fun m hm => ?_
    rw [mem_wakeUps] at hm ⊢
    rw [hs, hb]
    rcases hm with hm | hm | hm
    · exact Or.inl (Or.inl hm)
    · rw [hq] at hm
      rcases List.mem_cons.1 hm with rfl | hm
      · exact Or.inr rfl
      · exact Or.inl (Or.inr (Or.inl hm))
    · exact Or.inl (Or.inr (Or.inr hm))

theorem standing_clock {env : Environment} {now time : DateTime} {crash : Option Nat} {n : Nat} :
    (env.standing now crash).clock n = .ok time ↔ crash ≠ some n ∧ time = now := by
  unfold Environment.standing
  simp only
  split
  · next hc => simp [hc]
  · next hc => simp [hc, eq_comm]

theorem checkpoint_attended_iff (crash : Option Nat) (claim : WorkClaim) (stage : CheckpointStage)
    (outcome : String) (result : Option Bytes) (h : NoLostWakeUp ⟨w, now⟩) :
    NoLostWakeUp ⟨(BulkCoordinator.checkpoint (env.standing now crash) claim stage outcome
        result).after w, now⟩ ↔
      KeepsWakeUp env ⟨w, now⟩ (.call (.checkpoint claim stage outcome result) crash) := by
  obtain ⟨hb, hs⟩ := BulkCoordinator.checkpoint_store (env.standing now crash) claim stage outcome
    result w
  generalize (BulkCoordinator.checkpoint (env.standing now crash) claim stage outcome
    result).after w = w' at hs hb
  unfold KeepsWakeUp
  constructor
  · rintro h' item ⟨hstage, halive, ⟨ref, href⟩, owner, howner, hrec⟩
    rw [howner, show (env.standing now crash).sha256 = env.sha256 from rfl, href,
      standing_clock.2 ⟨halive, rfl⟩] at hs
    obtain ⟨updated, record, hafter, hc⟩ := hrec.records ref
    have hr := hc.replaces
    rw [show w.store.putCheckpoint _ updated record = w'.store from (hs.trans hafter).symm] at hr
    -- the item is open and has no lease now, so it still has a notification
    have hstate : updated.val.state = .checkpointed := by
      rw [hc.value, releasedFields, if_neg hstage]
    have hawaits := h' _ updated (by rw [hr.get?, if_pos rfl]) (by rw [hstate]; decide)
      (fun hl => by rw [LeasedAt, hstate] at hl; exact absurd hl.1 (by decide))
    rw [hr.work] at hawaits
    exact hawaits.mono (replaces_wakeUps hr hb ▸ List.Subset.refl _)
  · intro hkeeps
    split at hs
    · next owner ref time howner href htime =>
      obtain ⟨halive, rfl⟩ := standing_clock.1 htime
      have hout := checkpoint_outcome w.store claim.item.val.jobId claim.item.val.idempotencyKey
        owner stage outcome time ref
      unfold after at hs
      generalize (WorkRepository.checkpoint claim.item.val.jobId claim.item.val.idempotencyKey
        owner stage outcome time ref).exec w.store = r at hs hout
      have hsame : w'.store = w.store → NoLostWakeUp ⟨w', time⟩ := fun hs' =>
        h.kept (by rw [hs']) (by unfold wakeUps; rw [hs', hb]; exact List.Subset.refl _)
      cases hout with
      | raised e => exact hsame hs
      | repeated current last owned latest same => exact hsame hs
      | recorded current updated record hc =>
        have hr := hc.replaces
        rw [show w.store.putCheckpoint _ updated record = w'.store from hs.symm] at hr
        refine h.replaced hr hb ?_
        by_cases hstage : stage = .completed
        · exact Or.inl (by rw [hc.value, releasedFields, if_pos hstage])
        · have hawaits := hkeeps current ⟨hstage, halive, ⟨ref, href⟩, owner, howner, hc.recordable⟩
          rw [← hr.work] at hawaits
          exact Or.inr (Or.inr (hawaits.mono (replaces_wakeUps hr hb ▸ List.Subset.refl _)))
    · exact h.kept (by rw [hs]) (by unfold wakeUps; rw [hs, hb]; exact List.Subset.refl _)

theorem mem_wakeUps_acknowledged {deliveryId : String} {n : WorkNotification}
    (hn : n ∈ wakeUps w) : n ∈ wakeUps (acknowledged w deliveryId) ∨
      w.broker.inflight.get? deliveryId = some n := by
  rw [mem_wakeUps] at hn ⊢
  rcases hn with hn | hn | ⟨id, hn⟩
  · exact Or.inl (Or.inl hn)
  · exact Or.inl (Or.inr (Or.inl hn))
  · by_cases hid : id = deliveryId
    · exact Or.inr (hid ▸ hn)
    · exact Or.inl (Or.inr (Or.inr ⟨id, by
        rw [acknowledged, Dict.get?_erase, if_neg hid, hn]⟩))

theorem claim_attends {key : Key} {owner : String} {d : TimeDelta} {claimed : WorkClaim}
    {s : WorkRepository} (hout : ClaimOutcome w.store key owner now d (.ok claimed, s))
    (hs : w'.store = s) :
    w'.store.outbox = w.store.outbox ∧
      (∀ k, k ≠ key → w'.store.items.get? k = w.store.items.get? k) ∧
      ∀ item, w'.store.items.get? key = some item → Attended w' now item := by
  rw [hs]
  cases hout with
  | duplicate current found busy =>
    refine ⟨rfl, fun _ _ => rfl, fun item hi => ?_⟩
    rw [found, Option.some.injEq] at hi
    subst hi
    exact busy.imp_right fun hl => Or.inl ⟨hl.1, hl.2⟩
  | acquired current next h =>
    have hr := h.replaces
    refine ⟨hr.outbox, fun k hk => by rw [hr.get?, if_neg hk], fun item hi => ?_⟩
    rw [hr.get?, if_pos rfl, Option.some.injEq] at hi
    subst hi
    exact Or.inr (Or.inl (leasedAt_of_acquires h))

/-- A delivery that is claimed is acknowledged: its own item is finished or leased then, an
item whose delivery took its place under the identifier may be neither. -/
theorem claimDelivery_attended_iff (crash : Option Nat) (delivery : BrokerDelivery)
    (owner : String) (leaseDuration : TimeDelta) (hinv : w.store.StoreInvariant)
    (h : NoLostWakeUp ⟨w, now⟩) :
    NoLostWakeUp ⟨(BulkCoordinator.claimDelivery (env.standing now crash) delivery owner
        leaseDuration).after w, now⟩ ↔
      KeepsWakeUp env ⟨w, now⟩ (.call (.claimDelivery delivery owner leaseDuration) crash) := by
  have heffect := BulkCoordinator.claimDelivery_effect (env.standing now crash) delivery owner
    leaseDuration w
  generalize hw' : (BulkCoordinator.claimDelivery (env.standing now crash) delivery owner
    leaseDuration).after w = w' at heffect
  -- what is in `w'` once the claim returned
  have hdone : ∀ {item : WorkItemRecord} {claimed : WorkClaim},
      w.store.items.get? (notificationKey delivery.val.notification) = some item →
      (claim delivery.val.notification.val.jobId delivery.val.notification.val.idempotencyKey
        owner now leaseDuration).exec w.store = (.ok claimed, w'.store) →
      w'.broker = (acknowledged w delivery.val.deliveryId).broker →
      (NoLostWakeUp ⟨w', now⟩ ↔ ∀ n ∈ w.broker.inflight.get? delivery.val.deliveryId,
        notificationKey n ≠ notificationKey delivery.val.notification →
        Spares (acknowledged w delivery.val.deliveryId) now n) := by
    intro item claimed hi hc hb
    have hout := claim_outcome w.store delivery.val.notification.val.jobId
      delivery.val.notification.val.idempotencyKey owner now leaseDuration
    rw [hc] at hout
    obtain ⟨houtbox, hother, hown⟩ := claim_attends hout rfl
    have hwake : wakeUps w' = wakeUps (acknowledged w delivery.val.deliveryId) := by
      unfold wakeUps pendingOutbox
      rw [houtbox, hb]
      rfl
    have hattended : ∀ item, Attended w' now item ↔
        Attended (acknowledged w delivery.val.deliveryId) now item := by
      intro item
      unfold Attended Awaits
      rw [hwake]
    constructor
    · intro h' n _ hne key item hi hnames
      have hkey : key ≠ notificationKey delivery.val.notification := by
        rintro rfl
        refine hne ?_
        rw [hinv.announced.keyed _ _ (work?_of_get? hi)]
        exact Prod.ext hnames.jobId hnames.idempotencyKey
      exact (hattended item).1 (noLostWakeUp_iff.1 h' key item ((hother key hkey).trans hi))
    · intro hspares
      have hitem : ∀ key item, w'.store.items.get? key = some item →
          w.store.items.get? key = some item ∨ Attended w' now item := by
        intro key item hi
        by_cases hkey : key = notificationKey delivery.val.notification
        · subst hkey; exact Or.inr (hown item hi)
        · exact Or.inl ((hother key hkey).symm.trans hi)
      refine h.frame hitem fun key item hi ⟨n, hn, hnames⟩ => ?_
      rcases mem_wakeUps_acknowledged hn with hn | hn
      · exact Or.inr (Or.inr ⟨n, hwake ▸ hn, hnames⟩)
      · by_cases hkey : key = notificationKey delivery.val.notification
        · subst hkey; exact hown item hi
        · have hi' := (hother key hkey).symm.trans hi
          refine (hattended item).2 (hspares n hn (fun hne => hkey ?_) key item hi' hnames)
          rw [hinv.announced.keyed _ _ (work?_of_get? hi'), ← hne]
          exact (Prod.ext hnames.jobId hnames.idempotencyKey).symm
  unfold KeepsWakeUp
  constructor
  · rintro h' ⟨⟨item, hi, hm⟩, halive, hclaimable⟩
    obtain ⟨claimed, hreturns⟩ := (claim_returns_iff ..).2 hclaimable
    rcases hc : (claim delivery.val.notification.val.jobId
      delivery.val.notification.val.idempotencyKey owner now leaseDuration).exec w.store with ⟨r, s⟩
    rw [hc] at hreturns
    subst hreturns
    have hacknowledged := BulkCoordinator.claimDelivery_acknowledges (env.standing now crash)
      delivery owner leaseDuration w hi hm (standing_clock.2 ⟨halive, rfl⟩) hc
    rw [hw'] at hacknowledged
    exact (hdone hi (hacknowledged.1 ▸ hc) hacknowledged.2).1 h'
  · intro hkeeps
    rcases heffect with ⟨hs, hb⟩ | ⟨item, time, claimed, hi, hm, htime, hc, hb⟩
    · exact h.kept (by rw [hs]) (by unfold wakeUps; rw [hs, hb]; exact List.Subset.refl _)
    · obtain ⟨halive, rfl⟩ := standing_clock.1 htime
      refine (hdone hi hc hb).2 (hkeeps ⟨⟨item, hi, hm⟩, halive, ?_⟩)
      exact (claim_returns_iff ..).1 ⟨claimed, by rw [hc]⟩

end Steps

section Runs

variable (env : Environment)

/-- Every step of the coordinator makes repository changes only. -/
theorem coordinatorMachine_changes (input : CoordinatorInput) (s : TimedWorld) :
    Changes s.world.store (coordinatorMachine env input s).2.world.store := by
  cases input with
  | pass now => exact refl_of Changes s.world.store
  | call call crash =>
    cases call <;> simp only [coordinatorMachine, CoordinatorCall.action, exec_map]
    case submit submission context =>
      obtain ⟨-, reply, hout⟩ :=
        BulkCoordinator.submit_outcome (env.standing s.now crash) submission context s.world
      exact hout.change.changes
    case relayPending => exact relay_changes _ _ s.world
    case receive =>
      have hs := (receiveNext_effect (env.standing s.now crash) s.world).1
      unfold after at hs
      rw [hs]
      exact refl_of Changes s.world.store
    case redeliverUnacknowledged => exact refl_of Changes s.world.store
    case claimDelivery delivery owner d =>
      rcases BulkCoordinator.claimDelivery_effect (env.standing s.now crash) delivery owner d
        s.world with ⟨hs, -⟩ | ⟨item, now, claimed, -, -, -, hc, -⟩
      · unfold after at hs
        rw [hs]
        exact refl_of Changes s.world.store
      · have hout := claim_outcome s.world.store delivery.val.notification.val.jobId
          delivery.val.notification.val.idempotencyKey owner now d
        rw [hc] at hout
        exact hout.change.changes
    case checkpoint claim stage outcome result =>
      rcases BulkCoordinator.checkpoint_effect (env.standing s.now crash) claim stage outcome result
        s.world with hs | ⟨owner, now, ref, reply, -, -, -, hout⟩
      · unfold after at hs
        rw [hs]
        exact refl_of Changes s.world.store
      · exact hout.change.changes
    case terminalize key owner state code details now ref =>
      exact (terminalize_outcome ..).change.changes

theorem pass_attended_iff {s : TimedWorld} {now : DateTime} (h : NoLostWakeUp s) :
    NoLostWakeUp { s with now := now } ↔ KeepsWakeUp env s (.pass now) := by
  unfold KeepsWakeUp
  constructor
  · intro h' key item hi hl hn
    exact h' key item hi (by rw [hl.1]; decide) hn
  · intro hkeeps key item hi ho hn
    by_cases hl : LeasedAt item s.now
    · exact hkeeps key item hi hl hn
    · exact h key item hi ho hl

/-- A step loses no wake-up exactly when it meets its condition. -/
theorem step_attended_iff (input : CoordinatorInput) (s : TimedWorld)
    (hs : s.world.store.StoreInvariant) (h : NoLostWakeUp s) :
    NoLostWakeUp (coordinatorMachine env input s).2 ↔ KeepsWakeUp env s input := by
  cases input with
  | pass now => exact pass_attended_iff env h
  | call call crash =>
    cases call <;> simp only [coordinatorMachine, CoordinatorCall.action, exec_map]
    case submit submission context =>
      exact iff_of_true (submit_attended submission context h) trivial
    case relayPending => exact iff_of_true (relay_attended hs h) trivial
    case receive => exact receive_attended_iff h
    case redeliverUnacknowledged => exact iff_of_true (redeliver_attended h) trivial
    case claimDelivery delivery owner d =>
      exact claimDelivery_attended_iff crash delivery owner d hs h
    case checkpoint claim stage outcome result =>
      exact checkpoint_attended_iff crash claim stage outcome result h
    case terminalize key owner state code details now ref =>
      exact iff_of_true (terminalize_attended key owner state code details now ref h) trivial

end Runs

/-- No lost wake-up: in every state a run reaches, each item that is not `COMPLETED` and not
under an unexpired lease has a pending announcement, a queued notification or one in
flight, if and only if every step of the run meets its condition. -/
theorem no_lost_wake_up_iff (env : Environment) (now : DateTime) (inputs : List CoordinatorInput) :
    (∀ t ∈ (coordinatorMachine env).history (.start now) inputs, NoLostWakeUp t.after) ↔
      ∀ t ∈ (coordinatorMachine env).history (.start now) inputs,
        KeepsWakeUp env t.before t.input := by
  refine Machine.history_iff (I := fun s => s.world.store.StoreInvariant)
    (fun input s hs => (coordinatorMachine_changes env input s).invariant hs)
    (fun input s hs h => step_attended_iff env input s hs h) empty_invariant ?_ inputs
  intro key item hi
  cases hi

namespace Sample

def delivery : BrokerDelivery :=
  ⟨⟨"delivery-1", ⟨⟨"outbox-1", "bulk-job", "item-1", "bulk-job:item-1", "1",
    "memory://payload/" ++ digest, digest, 0⟩, rfl⟩⟩, rfl⟩

/-- The sample item is submitted, announced and delivered to a worker that claims it and
dies; its lease runs out. -/
def abandoned : List CoordinatorInput :=
  [.call (.submit submission context) none, .call .relayPending none, .call .receive none,
    .call (.claimDelivery delivery "worker-resumed" 10) none,
    .pass (time 21)]

end Sample

/-- The abandoned item is neither finished nor leased, and no notification is left for it. -/
theorem abandoned_item_unattended :
    ¬NoLostWakeUp ((coordinatorMachine (Sample.environment 0)).run (.start (Sample.time 0))
      Sample.abandoned) := by
  intro h
  have hawaits := h Sample.key (Sample.claimOf 1 10).item (by decide +kernel) (by decide +kernel)
    (by decide +kernel)
  exact absurd hawaits (by decide +kernel)

end AiRetrieval
