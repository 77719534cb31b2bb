import AiRetrieval.Proofs.LostWakeUps

/-! The outbox delivers: a notification is published at least once before its record says so,
and more than once only where a pass of the relay was broken off. -/

namespace AiRetrieval

open Program AiRetrieval.Action WorkRepository

/-- What a pass of the relay sends: the notifications the broker's queue gains by it. -/
def sent (t : CoordinatorTransition) : List WorkNotification :=
  match t.input with
  | .call .relayPending _ => t.after.world.broker.queued.drop t.before.world.broker.queued.length
  | _ => []

/-- The transition is a pass of the relay that did not return. -/
def brokenOff (t : CoordinatorTransition) : Bool :=
  match t.input, t.reply with
  | .call .relayPending _, .error _ => true
  | _, _ => false

/-- The notifications sent so far against the outbox, where `broken` passes of the relay were
broken off. -/
structure Accounts (s : WorkRepository) (sent : List WorkNotification) (broken : Nat) : Prop where
  store : s.StoreInvariant
  known : ∀ n ∈ sent, ∃ eventId record, s.outbox.get? eventId = some record ∧
    record.val.notification = n
  published : ∀ eventId record, s.outbox.get? eventId = some record →
    record.val.status = .published →
      1 ≤ sent.count record.val.notification ∧ sent.count record.val.notification ≤ broken + 1
  pending : ∀ eventId record, s.outbox.get? eventId = some record →
    record.val.status = .pending → sent.count record.val.notification ≤ broken

section Relay

variable {s s' : WorkRepository} {sent : List WorkNotification} {broken : Nat}

theorem event_of_notification (hs : s.StoreInvariant) {eventId eventId' : String}
    {record record' : OutboxRecord} (h : s.outbox.get? eventId = some record)
    (h' : s.outbox.get? eventId' = some record')
    (hn : record.val.notification = record'.val.notification) : eventId = eventId' := by
  obtain ⟨hid, hevent, -⟩ := hs.announced.announces eventId record h
  obtain ⟨hid', hevent', -⟩ := hs.announced.announces eventId' record' h'
  rw [← hid, ← hid', hid, ← hevent, hn, hevent', hid']

theorem Accounts.of_outbox (h : Accounts s sent broken) (hs : s'.StoreInvariant)
    (houtbox : s'.outbox = s.outbox) : Accounts s' sent broken :=
  ⟨hs, by rw [houtbox]; exact h.known, by rw [houtbox]; exact h.published,
    by rw [houtbox]; exact h.pending⟩

/-- A new announcement has not been sent. -/
theorem Accounts.created (h : Accounts s sent broken) {item : WorkItemRecord}
    {outbox : OutboxRecord} (issued : Issued item outbox) (hc : Creates s item outbox)
    (hs : (s.putCreated item outbox).StoreInvariant) :
    Accounts (s.putCreated item outbox) sent broken := by
  have hget : ∀ eventId record, (s.putCreated item outbox).outbox.get? eventId = some record →
      eventId = outbox.val.eventId ∧ record = outbox ∨ s.outbox.get? eventId = some record := by
    intro eventId record hr
    by_cases hid : eventId = outbox.val.eventId
    · subst hid
      have hself : some outbox = some record := (Dict.get?_insert_self ..).symm.trans hr
      exact Or.inl ⟨rfl, (Option.some.inj hself).symm⟩
    · exact Or.inr ((Dict.get?_insert_of_ne _ _ hid).symm.trans hr)
  have hkept : ∀ eventId record, s.outbox.get? eventId = some record →
      (s.putCreated item outbox).outbox.get? eventId = some record := by
    intro eventId record hr
    by_cases hid : eventId = outbox.val.eventId
    · subst hid
      rw [hc.freeEvent] at hr
      cases hr
    · exact (Dict.get?_insert_of_ne _ _ hid).trans hr
  have hfresh : sent.count outbox.val.notification = 0 := by
    rw [List.count_eq_zero]
    intro hmem
    obtain ⟨eventId, record, hr, hn⟩ := h.known _ hmem
    have hid := event_of_notification hs (hkept eventId record hr)
      (Dict.get?_insert_self ..) hn
    rw [hid, hc.freeEvent] at hr
    cases hr
  refine ⟨hs, fun n hn => ?_, fun eventId record hr hp => ?_, fun eventId record hr hp => ?_⟩
  · obtain ⟨eventId, record, hr, hnotification⟩ := h.known n hn
    exact ⟨eventId, record, hkept eventId record hr, hnotification⟩
  · rcases hget eventId record hr with ⟨-, rfl⟩ | hr
    · rw [issued.unpublished] at hp
      cases hp
    · exact h.published eventId record hr hp
  · rcases hget eventId record hr with ⟨-, rfl⟩ | hr
    · rw [hfresh]
      exact Nat.zero_le _
    · exact h.pending eventId record hr hp

/-- A pass broken off after it sent `n` may send it again. -/
theorem Accounts.sends (h : Accounts s sent broken) {eventId : String} {record : OutboxRecord}
    (hr : s.outbox.get? eventId = some record) :
    Accounts s (sent ++ [record.val.notification]) (broken + 1) := by
  have hcount : ∀ n, (sent ++ [record.val.notification]).count n ≤ sent.count n + 1 := by
    intro n
    rw [List.count_append]
    exact Nat.add_le_add_left (List.count_le_length) _
  refine ⟨h.store, fun n hn => ?_, fun eventId' record' hr' hp => ?_,
    fun eventId' record' hr' hp => ?_⟩
  · rcases List.mem_append.1 hn with hn | hn
    · exact h.known n hn
    · exact ⟨eventId, record, hr, (List.mem_singleton.1 hn).symm⟩
  · obtain ⟨hleast, hmost⟩ := h.published eventId' record' hr' hp
    have hnext := hcount record'.val.notification
    rw [List.count_append] at hnext ⊢
    omega
  · have hmost := h.pending eventId' record' hr' hp
    have hnext := hcount record'.val.notification
    omega

theorem Accounts.marks (h : Accounts s sent broken) {record published : OutboxRecord}
    (hr : s.outbox.get? record.val.eventId = some record) (hp : record.val.status = .pending)
    (hn : published.val.notification = record.val.notification)
    (hstatus : published.val.status = .published)
    (hs : StoreInvariant { s with outbox := s.outbox.insert record.val.eventId published }) :
    Accounts { s with outbox := s.outbox.insert record.val.eventId published }
      (sent ++ [record.val.notification]) broken := by
  have hother : ∀ eventId other, eventId ≠ record.val.eventId →
      s.outbox.get? eventId = some other →
      (sent ++ [record.val.notification]).count other.val.notification =
        sent.count other.val.notification := by
    intro eventId other hid ho
    have hne : record.val.notification ≠ other.val.notification := fun heq =>
      hid (event_of_notification h.store ho hr heq.symm)
    rw [List.count_append, List.count_singleton, if_neg (by simpa using hne), Nat.add_zero]
  have hpending := h.pending _ record hr hp
  refine ⟨hs, fun n hmem => ?_, fun eventId other ho hpub => ?_, fun eventId other ho hpend => ?_⟩
  · rcases List.mem_append.1 hmem with hmem | hmem
    · obtain ⟨eventId, other, ho, hother⟩ := h.known n hmem
      by_cases hid : eventId = record.val.eventId
      · subst hid
        rw [hr, Option.some.injEq] at ho
        subst ho
        exact ⟨_, published, Dict.get?_insert_self .., hn.trans hother⟩
      · exact ⟨eventId, other, (Dict.get?_insert_of_ne _ _ hid).trans ho, hother⟩
    · exact ⟨_, published, Dict.get?_insert_self .., hn.trans (List.mem_singleton.1 hmem).symm⟩
  · by_cases hid : eventId = record.val.eventId
    · subst hid
      have hself : some published = some other := (Dict.get?_insert_self ..).symm.trans ho
      obtain rfl := Option.some.inj hself
      rw [hn, List.count_append, List.count_singleton_self]
      omega
    · have ho : s.outbox.get? eventId = some other := (Dict.get?_insert_of_ne _ _ hid).symm.trans ho
      rw [hother eventId other hid ho]
      exact h.published eventId other ho hpub
  · by_cases hid : eventId = record.val.eventId
    · subst hid
      have hself : some published = some other := (Dict.get?_insert_self ..).symm.trans ho
      obtain rfl := Option.some.inj hself
      rw [hstatus] at hpend
      cases hpend
    · have ho : s.outbox.get? eventId = some other := (Dict.get?_insert_of_ne _ _ hid).symm.trans ho
      rw [hother eventId other hid ho]
      exact h.pending eventId other ho hpend

/-- What a pass over `records` does: it sends the first of them in order, each pending record it
sends is accounted for, and when it returns it has sent and marked them all. -/
structure Relays (records : List OutboxRecord) (sent : List WorkNotification) (broken : Nat)
    (w : World) (reply : Except PyError Nat) (w' : World) (new : List WorkNotification) : Prop where
  queued : w'.broker.queued = w.broker.queued ++ new
  ordered : new <+: records.map (·.val.notification)
  accounts : ∃ more, more ≤ broken + 1 ∧ (∀ count, reply = .ok count → more = broken) ∧
    Accounts w'.store (sent ++ new) more
  returned : ∀ count, reply = .ok count → count = records.length ∧
    new = records.map (·.val.notification) ∧
    ∀ eventId record, w'.store.outbox.get? eventId = some record → record.val.status = .pending →
      eventId ∉ records.map (·.val.eventId) ∧ w.store.outbox.get? eventId = some record

theorem relay_relays (env : Environment) (records : List OutboxRecord) (w : World)
    (sent : List WorkNotification) (broken : Nat) (h : Accounts w.store sent broken)
    (hrecords : ∀ record ∈ records, w.store.outbox.get? record.val.eventId = some record ∧
      record.val.status = .pending)
    (hnodup : (records.map (·.val.eventId)).Nodup) :
    ∃ new, Relays records sent broken w ((BulkCoordinator.relay env records).exec w).1
      ((BulkCoordinator.relay env records).after w) new := by
  induction records generalizing w sent with
  | nil =>
    refine ⟨[], (List.append_nil _).symm, List.prefix_refl _,
      ⟨broken, Nat.le_succ _, fun _ _ => rfl, by rw [List.append_nil]; exact h⟩,
        fun count hcount => ?_⟩
    cases hcount
    exact ⟨rfl, rfl, fun eventId record hr _ => ⟨List.not_mem_nil, hr⟩⟩
  | cons record rest ih =>
    obtain ⟨hfound, hpending⟩ := hrecords record (List.mem_cons_self ..)
    rw [List.map_cons, List.nodup_cons] at hnodup
    -- a pass that dies before it has marked the record it sent
    have hdies : ∀ (e : PyError) (w' : World), w'.store = w.store →
        w'.broker.queued = w.broker.queued ++ [record.val.notification] →
        Relays (record :: rest) sent broken w (.error e) w' [record.val.notification] := by
      intro e w' hstore hqueued
      refine ⟨hqueued, ⟨rest.map (·.val.notification), rfl⟩,
        ⟨broken + 1, Nat.le_refl _, ?_, ?_⟩, ?_⟩
      · intro count hcount
        cases hcount
      · rw [hstore]
        exact h.sends hfound
      · intro count hcount
        cases hcount
    unfold BulkCoordinator.relay after
    rw [exec_bind, exec_onBroker]
    simp only [NotificationBroker.publish, exec_modify]
    rw [exec_bind, exec_ask]
    simp only
    rcases env.clock w.moment with e | now
    · exact ⟨_, hdies e _ rfl rfl⟩
    simp only
    rw [exec_bind, exec_onStore]
    have hout := markPublished_outcome w.store record.val.eventId now
    have hinvariant := hout.change.invariant h.store
    generalize (markPublished record.val.eventId now).exec w.store = reply at hout hinvariant ⊢
    cases hout with
    | raised e unknown => exact ⟨_, hdies e _ rfl rfl⟩
    | repeated found published =>
      rename_i hpublished
      rw [hfound, Option.some.injEq] at published
      subst published
      rw [hpending] at hpublished
      cases hpublished
    | published found published hsame pending value =>
      rw [hfound, Option.some.injEq] at hsame
      subst hsame
      simp only
      have hnotification : published.val.notification = record.val.notification := by rw [value]
      have hstatus : published.val.status = .published := by rw [value]
      have hmarked := h.marks hfound hpending hnotification hstatus hinvariant
      rw [exec_bind]
      have hrest := ih { w with
          broker := { w.broker with queued := w.broker.queued ++ [record.val.notification] }
          store := { w.store with outbox := w.store.outbox.insert record.val.eventId published }
          moment := w.moment + 1 } _ hmarked ?_ hnodup.2
      · obtain ⟨new, hnew⟩ := hrest
        unfold after at hnew
        generalize (BulkCoordinator.relay env rest).exec _ = r at hnew ⊢
        have hqueued : r.2.broker.queued = w.broker.queued ++ (record.val.notification :: new) := by
          rw [hnew.queued, List.append_assoc, List.singleton_append]
        have hordered : record.val.notification :: new <+:
            (record :: rest).map (·.val.notification) := by
          rw [List.map_cons]
          exact (List.prefix_cons_inj _).2 hnew.ordered
        obtain ⟨more, hmore, hok, haccounts⟩ := hnew.accounts
        rw [List.append_assoc, List.singleton_append] at haccounts
        rcases r with ⟨e | count, w₂⟩
        · refine ⟨_, hqueued, hordered, ⟨more, hmore, fun _ hc => ?_, haccounts⟩, fun _ hc => ?_⟩
          · cases hc
          · cases hc
        · obtain ⟨hlength, hall, hleft⟩ := hnew.returned count rfl
          refine ⟨_, hqueued, hordered, ⟨more, hmore, fun _ _ => hok count rfl, haccounts⟩, ?_⟩
          intro total htotal
          cases htotal
          refine ⟨by rw [hlength, List.length_cons], by rw [hall, List.map_cons], ?_⟩
          intro eventId other hother hp
          obtain ⟨hnot, hkept⟩ := hleft eventId other hother hp
          have hne : eventId ≠ record.val.eventId := by
            intro hid
            subst hid
            have hself : some published = some other := (Dict.get?_insert_self ..).symm.trans hkept
            rw [← Option.some.inj hself, value] at hp
            cases hp
          refine ⟨?_, (Dict.get?_insert_of_ne _ _ hne).symm.trans hkept⟩
          rw [List.map_cons, List.mem_cons, not_or]
          exact ⟨hne, hnot⟩
      · intro other ho
        obtain ⟨hget, hp⟩ := hrecords other (List.mem_cons_of_mem _ ho)
        have hne : other.val.eventId ≠ record.val.eventId := fun hid =>
          hnodup.1 (hid ▸ List.mem_map_of_mem ho)
        exact ⟨(Dict.get?_insert_of_ne _ _ hne).trans hget, hp⟩

theorem pendingOutbox_nodup (hs : s.StoreInvariant) :
    (s.pendingOutbox.map (·.val.eventId)).Nodup := by
  have hkeys : s.outbox.values.map (·.val.eventId) = s.outbox.keys :=
    Dict.values_map_of_keyed fun eventId record hr => (hs.announced.announces eventId record hr).1
  have hsub := (List.filter_sublist (l := s.outbox.values)
    (p := fun record => record.val.status = .pending)).map (·.val.eventId)
  rw [hkeys] at hsub
  exact hsub.nodup s.outbox.nodup

theorem pendingOutbox_stored (hs : s.StoreInvariant) {record : OutboxRecord}
    (h : record ∈ s.pendingOutbox) :
    s.outbox.get? record.val.eventId = some record ∧ record.val.status = .pending := by
  obtain ⟨⟨eventId, hr⟩, hp⟩ := mem_pendingOutbox.1 h
  exact ⟨(hs.announced.announces eventId record hr).1 ▸ hr, hp⟩

theorem relayPending_relays (env : Environment) (w : World) (h : Accounts w.store sent broken) :
    ∃ new, Relays w.store.pendingOutbox sent broken w
      ((BulkCoordinator.relayPending env).exec w).1
      ((BulkCoordinator.relayPending env).after w) new :=
  relay_relays env w.store.pendingOutbox w sent broken h
    (fun _ hr => pendingOutbox_stored h.store hr) (pendingOutbox_nodup h.store)

end Relay

section Runs

variable (env : Environment)

/-- What a pass of the relay owes: it sends a first part of the pending notifications, in their
order, and when it returns it has sent all of them and leaves none pending. -/
def PassesOn (t : CoordinatorTransition) : Prop :=
  ∀ crash, t.input = .call .relayPending crash →
    sent t <+: t.before.world.store.pendingOutbox.map (·.val.notification) ∧
    ∀ count, t.reply = .ok (.published count) →
      count = t.before.world.store.pendingOutbox.length ∧
      sent t = t.before.world.store.pendingOutbox.map (·.val.notification) ∧
      t.after.world.store.pendingOutbox = []

theorem relay_step (crash : Option Nat) (s : TimedWorld) {log : List WorkNotification}
    {broken : Nat} (h : Accounts s.world.store log broken) :
    Accounts (coordinatorMachine env (.call .relayPending crash) s).2.world.store
        (log ++ sent ((coordinatorMachine env).transition s (.call .relayPending crash)))
        (broken + if brokenOff ((coordinatorMachine env).transition s (.call .relayPending crash))
          then 1 else 0) ∧
      PassesOn ((coordinatorMachine env).transition s (.call .relayPending crash)) := by
  obtain ⟨new, hnew⟩ := relayPending_relays (env.standing s.now crash) s.world h
  unfold after at hnew
  have hsent : sent ((coordinatorMachine env).transition s (.call .relayPending crash)) = new := by
    simp only [sent, Machine.transition, coordinatorMachine, CoordinatorCall.action, exec_map]
    rw [hnew.queued, List.drop_left]
  obtain ⟨more, hmore, hok, haccounts⟩ := hnew.accounts
  have hweaker : ∀ {fewer : Nat}, more ≤ fewer →
      Accounts ((BulkCoordinator.relayPending (env.standing s.now crash)).exec s.world).2.store
        (log ++ new) fewer := fun hle =>
    ⟨haccounts.store, haccounts.known,
      fun e r hr hp => ⟨(haccounts.published e r hr hp).1,
        (haccounts.published e r hr hp).2.trans (Nat.succ_le_succ hle)⟩,
      fun e r hr hp => (haccounts.pending e r hr hp).trans hle⟩
  refine ⟨?_, fun crash' _ => ⟨?_, fun count hcount => ?_⟩⟩
  · rw [hsent]
    simp only [brokenOff, Machine.transition, coordinatorMachine, CoordinatorCall.action, exec_map]
    cases hreply : ((BulkCoordinator.relayPending (env.standing s.now crash)).exec s.world).1 with
    | error e => exact hweaker hmore
    | ok count => exact hweaker (hok count hreply).le
  · rw [hsent]
    exact hnew.ordered
  · rw [hsent]
    simp only [Machine.transition, coordinatorMachine, CoordinatorCall.action, exec_map] at hcount ⊢
    cases hreply : ((BulkCoordinator.relayPending (env.standing s.now crash)).exec s.world).1 with
    | error e =>
      rw [hreply] at hcount
      cases hcount
    | ok total =>
      rw [hreply] at hcount
      cases hcount
      obtain ⟨hlength, hall, hleft⟩ := hnew.returned count hreply
      refine ⟨hlength, hall, ?_⟩
      rw [List.eq_nil_iff_forall_not_mem]
      intro record hrecord
      obtain ⟨hget, hp⟩ := pendingOutbox_stored haccounts.store hrecord
      obtain ⟨hnot, hbefore⟩ := hleft _ record hget hp
      exact hnot (List.mem_map_of_mem (mem_pendingOutbox.2 ⟨⟨_, hbefore⟩, hp⟩))

theorem outbox_kept (input : CoordinatorInput) (s : TimedWorld)
    (hsubmit : ∀ submission context crash, input ≠ .call (.submit submission context) crash)
    (hrelay : ∀ crash, input ≠ .call .relayPending crash) :
    (coordinatorMachine env input s).2.world.store.outbox = s.world.store.outbox := by
  cases input with
  | pass now => rfl
  | call call crash =>
    cases call <;> simp only [coordinatorMachine, CoordinatorCall.action, exec_map]
    case submit submission context => exact absurd rfl (hsubmit submission context crash)
    case relayPending => exact absurd rfl (hrelay crash)
    case receive =>
      have hs := (receiveNext_effect (env.standing s.now crash) s.world).1
      unfold after at hs
      rw [hs]
    case redeliverUnacknowledged => rfl
    case claimDelivery delivery owner d =>
      rcases BulkCoordinator.claimDelivery_effect (env.standing s.now crash) delivery owner d
        s.world with ⟨hs, -⟩ | ⟨item, now, claimed, -, -, -, hc, -⟩
      · unfold after at hs
        rw [hs]
      · have hout := claim_outcome s.world.store delivery.val.notification.val.jobId
          delivery.val.notification.val.idempotencyKey owner now d
        rw [hc] at hout
        unfold after at hout
        generalize ((BulkCoordinator.claimDelivery (env.standing s.now crash) delivery owner d).exec
          s.world).2.store = s' at hout ⊢
        cases hout <;> rfl
    case checkpoint claim stage outcome result =>
      rcases BulkCoordinator.checkpoint_effect (env.standing s.now crash) claim stage outcome result
        s.world with hs | ⟨owner, now, ref, reply, -, -, -, hout⟩
      · unfold after at hs
        rw [hs]
      · unfold after at hout
        generalize ((BulkCoordinator.checkpoint (env.standing s.now crash) claim stage outcome
          result).exec s.world).2.store = s' at hout ⊢
        cases hout <;> rfl
    case terminalize key owner state code details now ref =>
      have hout := terminalize_outcome s.world.store key.1 key.2 owner state code details now ref
      rw [exec_onStore]
      generalize (terminalize key.1 key.2 owner state code details now ref).exec s.world.store = r
        at hout ⊢
      cases hout <;> rfl

theorem step_accounts (input : CoordinatorInput) (s : TimedWorld) (log : List WorkNotification)
    (broken : Nat) (h : Accounts s.world.store log broken) :
    Accounts (coordinatorMachine env input s).2.world.store
      (log ++ sent ((coordinatorMachine env).transition s input))
      (broken + if brokenOff ((coordinatorMachine env).transition s input) then 1 else 0) := by
  have hinvariant := (coordinatorMachine_changes env input s).invariant h.store
  have hother (hrelay : ∀ crash, input ≠ .call .relayPending crash)
      (haccounts : Accounts (coordinatorMachine env input s).2.world.store log broken) :
      Accounts (coordinatorMachine env input s).2.world.store
        (log ++ sent ((coordinatorMachine env).transition s input))
        (broken + if brokenOff ((coordinatorMachine env).transition s input) then 1 else 0) := by
    have hnone : sent ((coordinatorMachine env).transition s input) = [] ∧
        brokenOff ((coordinatorMachine env).transition s input) = false := by
      cases input with
      | pass now => exact ⟨rfl, rfl⟩
      | call call crash =>
        cases call with
        | relayPending => exact absurd rfl (hrelay crash)
        | _ => exact ⟨rfl, rfl⟩
    rw [hnone.1, hnone.2, List.append_nil]
    exact haccounts
  by_cases hrelay : ∃ crash, input = .call .relayPending crash
  · obtain ⟨crash, rfl⟩ := hrelay
    exact (relay_step env crash s h).1
  have hrelay : ∀ crash, input ≠ .call .relayPending crash := fun crash hc => hrelay ⟨crash, hc⟩
  refine hother hrelay ?_
  by_cases hsubmit : ∃ submission context crash, input = .call (.submit submission context) crash
  · obtain ⟨submission, context, crash, rfl⟩ := hsubmit
    obtain ⟨-, reply, hout⟩ :=
      BulkCoordinator.submit_outcome (env.standing s.now crash) submission context s.world
    simp only [coordinatorMachine, CoordinatorCall.action, exec_map] at hinvariant ⊢
    unfold after at hout
    generalize ((BulkCoordinator.submit (env.standing s.now crash) submission context).exec
      s.world).2.store = s' at hout hinvariant ⊢
    cases hout with
    | raised e => exact h
    | existing item => exact h
    | created item outbox issued hc => exact h.created issued hc hinvariant
  · exact h.of_outbox hinvariant (outbox_kept env input s
      (fun submission context crash hc => hsubmit ⟨submission, context, crash, hc⟩) hrelay)

/-- The outbox delivers, over every run of the coordinator: a record that is marked published
was sent at least once, a pending one may have been sent too, both only as often as passes of
the relay were broken off; and each pass sends the pending notifications in their order. -/
theorem outbox_delivers (now : DateTime) (inputs : List CoordinatorInput) :
    (∀ eventId record,
      ((coordinatorMachine env).run (.start now) inputs).world.store.outbox.get? eventId =
        some record →
      (record.val.status = .published → 1 ≤ (((coordinatorMachine env).history (.start now)
        inputs).flatMap sent).count record.val.notification) ∧
      (((coordinatorMachine env).history (.start now) inputs).flatMap sent).count
          record.val.notification ≤
        ((coordinatorMachine env).history (.start now) inputs).countP brokenOff +
          if record.val.status = .published then 1 else 0) ∧
    ∀ t ∈ (coordinatorMachine env).history (.start now) inputs, PassesOn t := by
  have hstart : Accounts (TimedWorld.start now).world.store [] 0 :=
    ⟨empty_invariant, by simp, (fun _ _ hr _ => by cases hr), fun _ _ hr _ => by cases hr⟩
  constructor
  · have hrun := Machine.run_logged (m := coordinatorMachine env)
      (P := fun s log n => Accounts s.world.store log n) sent brokenOff
      (fun i s log n => step_accounts env i s log n) hstart inputs
    rw [List.nil_append, Nat.zero_add] at hrun
    intro eventId record hr
    refine ⟨fun hp => (hrun.published eventId record hr hp).1, ?_⟩
    by_cases hp : record.val.status = .published
    · rw [if_pos hp]
      exact (hrun.published eventId record hr hp).2
    · rw [if_neg hp]
      have hpending : record.val.status = .pending := by
        cases hs : record.val.status with
        | pending => rfl
        | published => exact absurd hs hp
      exact hrun.pending eventId record hr hpending
  · intro t ht crash hinput
    obtain ⟨log, broken, hbefore⟩ := Machine.history_invariant (m := coordinatorMachine env)
      (P := fun s => ∃ log broken, Accounts s.world.store log broken)
      (fun i s h => by
        obtain ⟨log, broken, h⟩ := h
        exact ⟨_, _, step_accounts env i s log broken h⟩) ⟨[], 0, hstart⟩ ht
    obtain ⟨s, i, rfl⟩ := Machine.history_transition ht
    have hi : i = .call .relayPending crash := hinput
    subst hi
    exact (relay_step env crash s hbefore).2 crash rfl

end Runs

end AiRetrieval
