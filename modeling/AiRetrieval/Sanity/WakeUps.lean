import AiRetrieval.Sanity.CoordinatorOutcomes

/-! The notifications that can still make a worker take up an item, and what each call of
the coordinator does to them. -/

namespace AiRetrieval

open Program AiRetrieval.Action WorkRepository

/-- The announcements still to be published, the queue and the deliveries in flight. -/
def wakeUps (w : World) : List WorkNotification :=
  w.store.pendingOutbox.map (·.val.notification) ++ w.broker.queued ++ w.broker.inflight.values

/-- Some notification for the work can still be delivered. -/
def Awaits (w : World) (work : Work) : Prop := ∃ n ∈ wakeUps w, Names n work

def LeasedAt (item : WorkItemRecord) (now : DateTime) : Prop :=
  item.val.state = .inProgress ∧ ∃ expiry ∈ item.val.leaseExpiresAt, now < expiry

/-- Every item that is not `COMPLETED` and not under an unexpired lease has a notification
that can resume it. -/
def NoLostWakeUp (s : TimedWorld) : Prop :=
  ∀ key item, s.world.store.items.get? key = some item → item.val.state ≠ .completed →
    ¬LeasedAt item s.now → Awaits s.world (workOf item)

/-- The item is finished, leased or waited for by a notification. -/
def Attended (w : World) (now : DateTime) (item : WorkItemRecord) : Prop :=
  item.val.state = .completed ∨ LeasedAt item now ∨ Awaits w (workOf item)

instance (w : World) (work : Work) : Decidable (Awaits w work) :=
  decidable_of_iff (∃ n ∈ wakeUps w, n.val.jobId = work.jobId ∧ n.val.itemId = work.itemId ∧
      n.val.idempotencyKey = work.idempotencyKey ∧
      n.val.configurationVersion = work.configuration.val.version ∧
      n.val.payloadReference = work.payloadReference.val.reference ∧
      n.val.payloadHash = work.payloadReference.val.contentHash)
    ⟨fun ⟨n, hn, h1, h2, h3, h4, h5, h6⟩ => ⟨n, hn, h1, h2, h3, h4, h5, h6⟩,
      fun ⟨n, hn, h1, h2, h3, h4, h5, h6⟩ => ⟨n, hn, h1, h2, h3, h4, h5, h6⟩⟩

instance (item : WorkItemRecord) (now : DateTime) : Decidable (LeasedAt item now) :=
  inferInstanceAs (Decidable (_ ∧ _))

theorem noLostWakeUp_iff {s : TimedWorld} : NoLostWakeUp s ↔
    ∀ key item, s.world.store.items.get? key = some item → Attended s.world s.now item := by
  unfold NoLostWakeUp Attended
  refine forall₃_congr fun key item hi => ?_
  tauto

theorem names_iff_accepted {n : WorkNotification} {item : WorkItemRecord} :
    Names n (workOf item) ↔ notificationKey n = (item.val.jobId, item.val.idempotencyKey) ∧
      BulkCoordinator.matchesDelivery item n := by
  unfold notificationKey BulkCoordinator.matchesDelivery
  rw [Prod.mk.injEq]
  constructor
  · rintro ⟨h1, h2, h3, h4, h5, h6⟩
    exact ⟨⟨h1, h3⟩, h2.symm, h4.symm, h5.symm, h6.symm⟩
  · rintro ⟨⟨h1, h3⟩, h2, h4, h5, h6⟩
    exact ⟨h1, h2.symm, h3, h4.symm, h5.symm, h6.symm⟩

theorem mem_pendingOutbox {s : WorkRepository} {record : OutboxRecord} :
    record ∈ s.pendingOutbox ↔
      (∃ eventId, s.outbox.get? eventId = some record) ∧ record.val.status = .pending := by
  unfold pendingOutbox
  rw [List.mem_filter, Dict.mem_values_iff, decide_eq_true_eq]

theorem mem_wakeUps {w : World} {n : WorkNotification} :
    n ∈ wakeUps w ↔ (∃ record ∈ w.store.pendingOutbox, record.val.notification = n) ∨
      n ∈ w.broker.queued ∨ ∃ deliveryId, w.broker.inflight.get? deliveryId = some n := by
  unfold wakeUps
  rw [List.mem_append, List.mem_append, List.mem_map, Dict.mem_values_iff, or_assoc]

section Frames

variable {w w' : World} {now : DateTime}

theorem Awaits.mono {work : Work} (h : Awaits w work) (hsub : wakeUps w ⊆ wakeUps w') :
    Awaits w' work := by
  obtain ⟨n, hn, hnames⟩ := h
  exact ⟨n, hsub hn, hnames⟩

/-- A step that leaves each item as it is or attended, and attended where it takes a
notification away, loses no wake-up. -/
theorem NoLostWakeUp.frame (h : NoLostWakeUp ⟨w, now⟩)
    (hitem : ∀ key item, w'.store.items.get? key = some item →
      w.store.items.get? key = some item ∨ Attended w' now item)
    (hwake : ∀ key item, w'.store.items.get? key = some item → Awaits w (workOf item) →
      Attended w' now item) : NoLostWakeUp ⟨w', now⟩ := by
  rw [noLostWakeUp_iff] at h ⊢
  intro key item hi
  rcases hitem key item hi with hsame | hattended
  · rcases h key item hsame with hc | hl | ha
    · exact Or.inl hc
    · exact Or.inr (Or.inl hl)
    · exact hwake key item hi ha
  · exact hattended

theorem replaces_wakeUps {key : Key} {current next : WorkItemRecord}
    (hr : Replaces w.store w'.store key current next) (hb : w'.broker = w.broker) :
    wakeUps w' = wakeUps w := by
  unfold wakeUps pendingOutbox
  rw [hr.outbox, hb]

theorem NoLostWakeUp.replaced {key : Key} {current next : WorkItemRecord}
    (h : NoLostWakeUp ⟨w, now⟩) (hr : Replaces w.store w'.store key current next)
    (hb : w'.broker = w.broker) (hnext : Attended w' now next) : NoLostWakeUp ⟨w', now⟩ := by
  refine h.frame (fun k item hi => ?_) fun k item _ ha => Or.inr (Or.inr (ha.mono ?_))
  · rw [hr.get?] at hi
    split at hi
    · cases hi; exact Or.inr hnext
    · exact Or.inl hi
  · rw [replaces_wakeUps hr hb]
    exact List.Subset.refl _

theorem leasedAt_of_acquires {key : Key} {owner : String} {d : TimeDelta}
    {current claimed : WorkItemRecord} {s : WorkRepository}
    (h : Acquires s key owner now d current claimed) : LeasedAt claimed now := by
  have hval := h.value
  refine ⟨by rw [hval]; rfl, ⟨true, now.instant + d⟩, by rw [hval]; rfl, h.aware, ?_⟩
  have := h.positive
  exact Int.lt_add_of_pos_right _ this

end Frames

section Relay

theorem markPublished_wakeUps {w : World} {record : OutboxRecord} {stored : OutboxRecord}
    {reply : Except PyError OutboxRecord × WorkRepository} {publishedAt : DateTime}
    (hstored : w.store.outbox.get? record.val.eventId = some stored)
    (hsame : stored.val.notification = record.val.notification)
    (hqueued : record.val.notification ∈ w.broker.queued)
    (h : MarkPublishedOutcome w.store record.val.eventId publishedAt reply) :
    wakeUps w ⊆ wakeUps { w with store := reply.2 } := by
  cases h with
  | raised e unknown => exact List.Subset.refl _
  | repeated found published => exact List.Subset.refl _
  | published found published hfound pending value =>
    intro n hn
    rw [mem_wakeUps] at hn ⊢
    rcases hn with ⟨r, hr, rfl⟩ | hn
    · obtain ⟨⟨eventId, he⟩, hp⟩ := mem_pendingOutbox.1 hr
      by_cases hid : eventId = record.val.eventId
      · subst hid
        rw [hstored, Option.some.injEq] at he
        subst he
        exact Or.inr (Or.inl (hsame ▸ hqueued))
      · exact Or.inl ⟨r, mem_pendingOutbox.2 ⟨⟨eventId,
          (Dict.get?_insert_of_ne _ _ hid).trans he⟩, hp⟩, rfl⟩
    · exact Or.inr hn

/-- The announcements of a list are the store's own. -/
def Stored (s : WorkRepository) (records : List OutboxRecord) : Prop :=
  ∀ record ∈ records, ∃ stored, s.outbox.get? record.val.eventId = some stored ∧
    stored.val.notification = record.val.notification

theorem Stored.mono {s : WorkRepository} {records records' : List OutboxRecord}
    (h : Stored s records) (hsub : records' ⊆ records) : Stored s records' :=
  fun record hr => h record (hsub hr)

theorem WorkRepository.StoreInvariant.stored_pending {s : WorkRepository} (h : s.StoreInvariant) :
    Stored s s.pendingOutbox := by
  intro record hr
  obtain ⟨⟨eventId, he⟩, -⟩ := mem_pendingOutbox.1 hr
  exact ⟨record, (h.announced.announces eventId record he).1 ▸ he, rfl⟩

theorem Stored.markPublished {s : WorkRepository} {records : List OutboxRecord}
    {eventId : String} {publishedAt : DateTime}
      {reply : Except PyError OutboxRecord × WorkRepository}
    (h : Stored s records) (ho : MarkPublishedOutcome s eventId publishedAt reply) :
    Stored reply.2 records := by
  cases ho with
  | raised e unknown => exact h
  | repeated found published => exact h
  | published found published hfound pending value =>
    intro record hr
    obtain ⟨stored, hs, hn⟩ := h record hr
    by_cases hid : record.val.eventId = eventId
    · subst hid
      rw [hfound, Option.some.injEq] at hs
      subst hs
      exact ⟨published, Dict.get?_insert_self .., by rw [value]; exact hn⟩
    · exact ⟨stored, (Dict.get?_insert_of_ne _ _ hid).trans hs, hn⟩

theorem markPublished_items {s : WorkRepository} {eventId : String} {publishedAt : DateTime}
    {reply : Except PyError OutboxRecord × WorkRepository}
    (h : MarkPublishedOutcome s eventId publishedAt reply) : reply.2.items = s.items := by
  cases h <;> rfl

/-- The relay, wherever it dies, takes no wake-up away and changes no item. -/
theorem relay_wakeUps (env : Environment) (records : List OutboxRecord) (w : World)
    (h : Stored w.store records) :
    wakeUps w ⊆ wakeUps ((BulkCoordinator.relay env records).after w) ∧
      ((BulkCoordinator.relay env records).after w).store.items = w.store.items := by
  induction records generalizing w with
  | nil => exact ⟨List.Subset.refl _, rfl⟩
  | cons record rest ih =>
    obtain ⟨stored, hstored, hsame⟩ := h record (List.mem_cons_self ..)
    -- the world once the notification is published to the broker
    set w₁ : World := { w with
      broker := { w.broker with queued := w.broker.queued ++ [record.val.notification] }
      moment := w.moment + 1 } with hw₁
    have hpublished : wakeUps w ⊆ wakeUps w₁ := by
      intro n hn
      rw [mem_wakeUps] at hn ⊢
      rcases hn with hn | hn | hn
      · exact Or.inl hn
      · exact Or.inr (Or.inl (List.mem_append_left _ hn))
      · exact Or.inr (Or.inr hn)
    have hqueued : record.val.notification ∈ w₁.broker.queued :=
      List.mem_append_right _ (List.mem_singleton_self _)
    unfold BulkCoordinator.relay after
    rw [exec_bind, exec_onBroker]
    simp only [NotificationBroker.publish, exec_modify]
    rw [exec_bind, exec_ask]
    simp only
    rw [← hw₁]
    rcases env.clock w.moment with e | now
    · exact ⟨hpublished, rfl⟩
    simp only
    rw [exec_bind, exec_onStore]
    have hout := markPublished_outcome w₁.store record.val.eventId now
    have hmarked : wakeUps w₁ ⊆ wakeUps { w₁ with store := _ } :=
      markPublished_wakeUps hstored hsame hqueued hout
    have hrest := (h.mono (List.subset_cons_self ..)).markPublished hout
    have hitems := markPublished_items hout
    generalize (markPublished record.val.eventId now).exec w₁.store = reply at *
    rcases reply with ⟨e | published, s⟩
    · exact ⟨List.Subset.trans hpublished hmarked, hitems⟩
    simp only
    obtain ⟨hsub, hsame'⟩ := ih { w₁ with store := s } hrest
    rw [exec_bind]
    unfold after at hsub hsame'
    generalize (BulkCoordinator.relay env rest).exec { w₁ with store := s } = r at hsub hsame' ⊢
    rcases r with ⟨e | count, w₂⟩ <;>
      exact ⟨List.Subset.trans (List.Subset.trans hpublished hmarked) hsub, hsame'.trans hitems⟩

theorem relay_changes (env : Environment) (records : List OutboxRecord) :
    Moves (OnStores Changes) (BulkCoordinator.relay env records) := by
  induction records with
  | nil => exact moves_pure _
  | cons record rest ih =>
    unfold BulkCoordinator.relay
    refine moves_bind (onBroker_moves _) fun _ => moves_bind (ask_moves _) fun now => ?_
    refine moves_bind (onStore_moves fun s => ?_) fun _ => moves_bind ih fun _ => moves_pure _
    exact (markPublished_outcome s record.val.eventId now).change.changes

end Relay

end AiRetrieval
