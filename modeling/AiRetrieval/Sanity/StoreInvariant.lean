import AiRetrieval.Sanity.StoreChanges

/-! The invariant of the durable work repository, in three parts that are each
preserved by every `Change`: identities and announcements, checkpoints and terminal
records, effects and reconciliations. -/

namespace AiRetrieval

namespace WorkRepository

/-- The item under `key` is `COMPLETED`. -/
def Closed (s : WorkRepository) (key : Key) : Prop :=
  ∃ item, s.items.get? key = some item ∧ item.val.state = .completed

def LastStageRecorded (s : WorkRepository) (key : Key) : Prop :=
  ∃ c ∈ s.checkpointsOf key, c.val.completedStage = .completed

/-- Items, identifiers and announcements describe the same works. -/
structure Announced (s : WorkRepository) : Prop where
  keyed : ∀ key w, s.work? key = some w → key = w.key
  itemIds : ∀ jobId itemId k, s.itemIds.get? (jobId, itemId) = some k ↔
    ∃ w, s.work? (jobId, k) = some w ∧ w.itemId = itemId
  announced : ∀ key w, s.work? key = some w →
    ∃! eventId, ∃ record, s.outbox.get? eventId = some record ∧ Announces record w
  announces : ∀ eventId record, s.outbox.get? eventId = some record →
    record.val.eventId = eventId ∧ record.val.notification.val.eventId = eventId ∧
      ∃ key w, s.work? key = some w ∧ Announces record w

structure CheckpointOf (c : CheckpointRecord) (w : Work) : Prop where
  key : (c.val.jobId, c.val.idempotencyKey) = w.key
  itemId : c.val.itemId = w.itemId
  configuration : c.val.configuration = w.configuration

structure TerminalOf (r : TerminalWorkItemRecord) (w : Work) : Prop where
  key : (r.val.jobId, r.val.idempotencyKey) = w.key
  itemId : r.val.itemId = w.itemId
  configuration : r.val.configuration = w.configuration

/-- Checkpoints are numbered and move forward; a work is closed exactly when it has a
terminal record or a checkpoint of the last stage, and never both. -/
structure Recorded (s : WorkRepository) : Prop where
  checkpoints : ∀ key, ∀ c ∈ s.checkpointsOf key, ∃ w, s.work? key = some w ∧ CheckpointOf c w
  numbered : ∀ key, (s.checkpointsOf key).map (·.val.sequence) =
    List.range' 1 (s.checkpointsOf key).length
  forward : ∀ key, (s.checkpointsOf key).Pairwise fun a b =>
    a.val.completedStage.order < b.val.completedStage.order
  terminal : ∀ key r, s.terminal.get? key = some r → ∃ w, s.work? key = some w ∧ TerminalOf r w
  closed : ∀ key, s.Closed key ↔ (∃ r, s.terminal.get? key = some r) ∨ s.LastStageRecorded key
  once : ∀ key r, s.terminal.get? key = some r → ¬s.LastStageRecorded key

/-- Effects and reconciliations belong to stored works. -/
structure Effected (s : WorkRepository) : Prop where
  effects : ∀ key r, s.effects.get? key = some r → key = (r.val.jobId, r.val.idempotencyKey) ∧
    ∃ w, s.work? key = some w ∧ w.itemId = r.val.itemId
  reconciliations : ∀ key r, s.reconciliations.get? key = some r →
    key = (r.val.jobId, r.val.idempotencyKey) ∧
      ∃ w, s.work? key = some w ∧ w.itemId = r.val.itemId

/-- A lease is held exactly while the item is in progress. -/
def Leased (s : WorkRepository) : Prop := ∀ key item, s.items.get? key = some item →
  (item.val.leaseOwner.isSome ↔ item.val.state = .inProgress) ∧
    (item.val.leaseExpiresAt.isSome ↔ item.val.state = .inProgress)

structure StoreInvariant (s : WorkRepository) : Prop where
  leased : s.Leased
  announced : s.Announced
  recorded : s.Recorded
  effected : s.Effected

variable {s s' : WorkRepository} {key : Key}

theorem work?_eq_some {w : Work} :
    s.work? key = some w ↔ ∃ item, s.items.get? key = some item ∧ workOf item = w := by
  simp [work?, Option.map_eq_some_iff]

theorem work?_of_get? {item : WorkItemRecord} (h : s.items.get? key = some item) :
    s.work? key = some (workOf item) := work?_eq_some.2 ⟨item, h, rfl⟩

theorem leased (s : WorkRepository) : s.Leased := fun _ item _ => item.lease_iff

section Frames

variable {current next : WorkItemRecord}

theorem Replaces.work? (h : Replaces s s' key current next) : s'.work? = s.work? := by
  funext k
  simp only [WorkRepository.work?, h.items, Dict.get?_insert]
  split
  · next hk => subst hk; rw [h.found]; simp [h.work]
  · rfl

theorem Replaces.get? (h : Replaces s s' key current next) (k : Key) :
    s'.items.get? k = if k = key then some next else s.items.get? k := by
  rw [h.items, Dict.get?_insert]

theorem Replaces.closed_of_ne (h : Replaces s s' key current next) {k : Key} (hk : k ≠ key) :
    s'.Closed k ↔ s.Closed k := by
  unfold Closed
  rw [h.get?, if_neg hk]

theorem Replaces.closed_self (h : Replaces s s' key current next) :
    s'.Closed key ↔ next.val.state = .completed := by
  unfold Closed
  rw [h.get?, if_pos rfl]
  simp

theorem Replaces.not_closed (h : Replaces s s' key current next) : ¬s.Closed key := by
  rintro ⟨item, hi, hc⟩
  rw [h.found] at hi
  cases hi
  exact h.opened hc

theorem Announced.of_eq (h : s.Announced) (hw : s'.work? = s.work?) (hi : s'.itemIds = s.itemIds)
    (ho : s'.outbox = s.outbox) : s'.Announced where
  keyed := by rw [hw]; exact h.keyed
  itemIds := by rw [hw, hi]; exact h.itemIds
  announced := by rw [hw, ho]; exact h.announced
  announces := by rw [hw, ho]; exact h.announces

theorem Effected.of_eq (h : s.Effected) (hw : s'.work? = s.work?)
    (he : s'.effects = s.effects) (hr : s'.reconciliations = s.reconciliations) :
    s'.Effected where
  effects := by rw [hw, he]; exact h.effects
  reconciliations := by rw [hw, hr]; exact h.reconciliations

theorem Recorded.of_eq (h : s.Recorded) (hi : s'.items = s.items)
    (hc : s'.checkpoints = s.checkpoints) (ht : s'.terminal = s.terminal) : s'.Recorded := by
  have hw : s'.work? = s.work? := by funext k; simp [WorkRepository.work?, hi]
  have hcl : s'.Closed = s.Closed := by funext k; simp [Closed, hi]
  have hcp : s'.checkpointsOf = s.checkpointsOf := by funext k; simp [checkpointsOf, hc]
  have hls : s'.LastStageRecorded = s.LastStageRecorded := by
    funext k; simp [LastStageRecorded, hcp]
  constructor
  · rw [hcp, hw]; exact h.checkpoints
  · rw [hcp]; exact h.numbered
  · rw [hcp]; exact h.forward
  · rw [ht, hw]; exact h.terminal
  · rw [ht, hcl, hls]; exact h.closed
  · rw [ht, hls]; exact h.once

end Frames

section Announcements

theorem announces_key {record : OutboxRecord} {w w' : Work} (h : Announces record w)
    (h' : Announces record w') : w.key = w'.key := by
  unfold Work.key
  rw [← h.jobId, ← h.idempotencyKey, h'.jobId, h'.idempotencyKey]

theorem putCreated_work? {item : WorkItemRecord} {outbox : OutboxRecord} (k : Key) :
    (s.putCreated item outbox).work? k =
      if k = (workOf item).key then some (workOf item) else s.work? k := by
  simp only [WorkRepository.work?, putCreated, Dict.get?_insert]
  change Option.map workOf (if k = (workOf item).key then some item else _) = _
  split <;> rfl

theorem Creates.work?_eq_none {item : WorkItemRecord} {outbox : OutboxRecord}
    (h : Creates s item outbox) : s.work? (workOf item).key = none := by
  simp [WorkRepository.work?, Work.key, workOf, h.freeKey]

theorem Announced.created {item : WorkItemRecord} {outbox : OutboxRecord} (h : s.Announced)
    (issued : Issued item outbox) (hc : Creates s item outbox) :
    (s.putCreated item outbox).Announced := by
  have hfree := hc.work?_eq_none
  have hne : ∀ {k w}, s.work? k = some w → k ≠ (workOf item).key := by
    rintro k w hw rfl
    rw [hfree] at hw
    cases hw
  constructor
  · intro k w hw
    rw [putCreated_work?] at hw
    split at hw
    · next hk => cases hw; exact hk
    · exact h.keyed k w hw
  · intro jobId itemId k
    simp only [putCreated_work?]
    simp only [putCreated, Dict.get?_insert]
    by_cases hid : (jobId, itemId) = (item.val.jobId, item.val.itemId)
    · obtain ⟨rfl, rfl⟩ := Prod.mk.inj hid
      rw [if_pos rfl, Option.some.injEq]
      constructor
      · rintro rfl
        exact ⟨workOf item, if_pos rfl, rfl⟩
      · rintro ⟨w, hw, hwi⟩
        split at hw
        · next hk => exact (Prod.mk.inj hk).2.symm
        · have := (h.itemIds _ _ k).2 ⟨w, hw, hwi⟩
          rw [hc.freeItem] at this
          cases this
    · rw [if_neg hid, h.itemIds]
      constructor
      · rintro ⟨w, hw, hwi⟩
        exact ⟨w, by rw [if_neg (hne hw), hw], hwi⟩
      · rintro ⟨w, hw, hwi⟩
        split at hw
        · next hk =>
          cases hw
          exact absurd (by rw [← hwi, (Prod.mk.inj hk).1]; rfl) hid
        · exact ⟨w, hw, hwi⟩
  · intro k w hw
    rw [putCreated_work?] at hw
    simp only [putCreated, Dict.get?_insert]
    split at hw
    · next hk =>
      cases hw
      refine ⟨outbox.val.eventId, ⟨outbox, if_pos rfl, issued.announces⟩, ?_⟩
      rintro e ⟨record, hr, ha⟩
      split at hr
      · next he => exact he
      · obtain ⟨-, -, k', w', hw', ha'⟩ := h.announces e record hr
        exact absurd ((h.keyed k' w' hw').trans (announces_key ha' ha)) (hne hw')
    · obtain ⟨e, ⟨record, hr, ha⟩, huniq⟩ := h.announced k w hw
      have he : e ≠ outbox.val.eventId := by
        rintro rfl
        rw [hc.freeEvent] at hr
        cases hr
      refine ⟨e, ⟨record, by rw [if_neg he, hr], ha⟩, ?_⟩
      rintro e' ⟨record', hr', ha'⟩
      split at hr'
      · cases hr'
        have := announces_key issued.announces ha'
        exact absurd ((h.keyed k w hw).trans this.symm) (hne hw)
      · exact huniq e' ⟨record', hr', ha'⟩
  · intro e record hr
    simp only [putCreated, Dict.get?_insert] at hr
    split at hr
    · next he =>
      cases hr
      exact ⟨he.symm, issued.event.trans he.symm, _, _, by rw [putCreated_work?, if_pos rfl],
        issued.announces⟩
    · obtain ⟨h1, h2, k, w, hw, ha⟩ := h.announces e record hr
      exact ⟨h1, h2, k, w, by rw [putCreated_work?, if_neg (hne hw), hw], ha⟩

theorem Announces.of_notification {record record' : OutboxRecord} {w : Work}
    (h : record'.val.notification = record.val.notification) :
    Announces record' w ↔ Announces record w := by
  constructor
  · rintro ⟨h1, h2, h3, h4, h5, h6⟩
    constructor <;> rw [← h] <;> assumption
  · rintro ⟨h1, h2, h3, h4, h5, h6⟩
    constructor <;> rw [h] <;> assumption

theorem Announced.published {eventId : String} {record published : OutboxRecord} (h : s.Announced)
    (found : s.outbox.get? eventId = some record)
    (event : published.val.eventId = record.val.eventId)
    (notification : published.val.notification = record.val.notification) :
    Announced { s with outbox := s.outbox.insert eventId published } := by
  have hiff : ∀ e w, (∃ r, (s.outbox.insert eventId published).get? e = some r ∧ Announces r w) ↔
      ∃ r, s.outbox.get? e = some r ∧ Announces r w := by
    intro e w
    rw [Dict.get?_insert]
    split
    · next he => subst he; simp [found, Announces.of_notification notification]
    · rfl
  refine ⟨h.keyed, h.itemIds, fun k w hw => ?_, fun e r hr => ?_⟩
  · simp only [hiff]
    exact h.announced k w hw
  · simp only [Dict.get?_insert] at hr
    split at hr
    · next he =>
      subst he
      cases hr
      obtain ⟨h1, h2, k, w, hw, ha⟩ := h.announces _ _ found
      exact ⟨event.trans h1, by rw [notification, h2], k, w, hw,
        (Announces.of_notification notification).2 ha⟩
    · exact h.announces e r hr

theorem Change.announced (h : Change s s') (hs : s.Announced) : s'.Announced := by
  cases h with
  | unchanged => exact hs
  | acquired h => exact hs.of_eq h.replaces.work? rfl rfl
  | renewed h => exact hs.of_eq h.replaces.work? rfl rfl
  | checkpointed h => exact hs.of_eq h.replaces.work? rfl rfl
  | settled h => exact hs.of_eq h.replaces.work? rfl rfl
  | created issued h => exact hs.created issued h
  | published found event notification => exact hs.published found event notification
  | effectSaved found same fresh => exact hs.of_eq rfl rfl rfl
  | reconciliationSaved found same fresh => exact hs.of_eq rfl rfl rfl
  | failureRecorded failures => exact hs.of_eq rfl rfl rfl

end Announcements

section Records

theorem Recorded.latest_sequence (h : s.Recorded) (key : Key) :
    ((s.latest key).map (·.val.sequence)).getD 0 = (s.checkpointsOf key).length := by
  have hl := congrArg List.getLast? (h.numbered key)
  rw [List.getLast?_map, List.getLast?_range'] at hl
  unfold latest
  rw [hl]
  split
  · next hz => rw [hz]; rfl
  · rw [Option.getD_some]; omega

theorem Recorded.order_le_latest (h : s.Recorded) {c last : CheckpointRecord}
    (hc : c ∈ s.checkpointsOf key) (hl : s.latest key = some last) :
    c.val.completedStage.order ≤ last.val.completedStage.order := by
  obtain ⟨front, hfront⟩ := List.getLast?_eq_some_iff.1 hl
  have hp := h.forward key
  rw [hfront] at hp hc
  rcases List.mem_append.1 hc with hf | hlast
  · exact le_of_lt ((List.pairwise_append.1 hp).2.2 c hf last (List.mem_singleton_self _))
  · rw [List.mem_singleton.1 hlast]

theorem checkpointsOf_putCheckpoint {updated : WorkItemRecord} {record : CheckpointRecord}
    (k : Key) : (s.putCheckpoint key updated record).checkpointsOf k =
      if k = key then s.checkpointsOf key ++ [record] else s.checkpointsOf k := by
  simp only [checkpointsOf, putCheckpoint, Dict.get?_insert]
  split <;> rfl

theorem Recorded.replaced {current next : WorkItemRecord} (h : s.Recorded)
    (hr : Replaces s s' key current next) (hc : s'.checkpoints = s.checkpoints)
    (ht : s'.terminal = s.terminal) (hn : next.val.state ≠ .completed) : s'.Recorded := by
  have hcp : s'.checkpointsOf = s.checkpointsOf := by funext k; simp [checkpointsOf, hc]
  have hls : s'.LastStageRecorded = s.LastStageRecorded := by
    funext k; simp [LastStageRecorded, hcp]
  have hcl : s'.Closed = s.Closed := by
    funext k
    by_cases hk : k = key
    · subst hk
      simp [hr.closed_self, hn, hr.not_closed]
    · simp [hr.closed_of_ne hk]
  constructor
  · rw [hcp, hr.work?]; exact h.checkpoints
  · rw [hcp]; exact h.numbered
  · rw [hcp]; exact h.forward
  · rw [ht, hr.work?]; exact h.terminal
  · rw [ht, hcl, hls]; exact h.closed
  · rw [ht, hls]; exact h.once

theorem Recorded.no_terminal (h : s.Recorded) (hk : ¬s.Closed key) :
    s.terminal.get? key = none := by
  cases ht : s.terminal.get? key with
  | none => rfl
  | some r => exact absurd ((h.closed key).2 (Or.inl ⟨r, ht⟩)) hk

theorem Recorded.checkpointed {owner : String} {stage : CheckpointStage} {outcome : String}
    {now : DateTime} {ref : Option ObjectReference} {current updated : WorkItemRecord}
    {record : CheckpointRecord} (h : s.Recorded)
    (hc : Checkpoints s key owner stage outcome now ref current updated record) :
    (s.putCheckpoint key updated record).Recorded := by
  have hr := hc.replaces
  have hnot : ¬s.LastStageRecorded key := fun hl => hr.not_closed ((h.closed key).2 (Or.inr hl))
  have hstage : record.val.completedStage = stage := by rw [hc.checkpoint]
  have hupdated : updated.val.state = .completed ↔ stage = .completed := by
    rw [hc.value, releasedFields]
    split <;> simp [*]
  have hls : ∀ k, (s.putCheckpoint key updated record).LastStageRecorded k ↔
      if k = key then stage = .completed else s.LastStageRecorded k := by
    intro k
    unfold LastStageRecorded
    rw [checkpointsOf_putCheckpoint]
    split
    · next hk =>
      subst hk
      simp only [List.mem_append, List.mem_singleton]
      constructor
      · rintro ⟨c, hm | rfl, hcs⟩
        · exact absurd ⟨c, hm, hcs⟩ hnot
        · exact hstage.symm.trans hcs
      · intro hs
        exact ⟨record, Or.inr rfl, hstage.trans hs⟩
    · rfl
  constructor
  · intro k c hm
    rw [hr.work?]
    rw [checkpointsOf_putCheckpoint] at hm
    split at hm
    · next hk =>
      subst hk
      rcases List.mem_append.1 hm with hm | hm
      · exact h.checkpoints _ c hm
      · rw [List.mem_singleton] at hm
        subst hm
        refine ⟨workOf current, work?_of_get? hc.owned.found, ?_⟩
        constructor <;> simp [hc.checkpoint, workOf, Work.key]
    · exact h.checkpoints k c hm
  · intro k
    rw [checkpointsOf_putCheckpoint]
    split
    · rw [List.map_append, h.numbered, List.length_append, List.length_singleton,
        List.range'_1_concat]
      simp only [List.map_cons, List.map_nil, hc.checkpoint, h.latest_sequence]
      rw [Nat.add_comm 1]
    · exact h.numbered k
  · intro k
    rw [checkpointsOf_putCheckpoint]
    split
    · rw [List.pairwise_append]
      refine ⟨h.forward key, List.pairwise_singleton _ _, fun a ha b hb => ?_⟩
      rw [List.mem_singleton.1 hb, hstage]
      obtain ⟨last, hlast⟩ : ∃ last, s.latest key = some last :=

        Option.ne_none_iff_exists'.1 fun hn =>
          List.ne_nil_of_mem ha (List.getLast?_eq_none_iff.1 hn)
      exact lt_of_le_of_lt (h.order_le_latest ha hlast) (hc.forward last hlast)
    · exact h.forward k
  · rw [hr.work?]
    exact h.terminal
  · intro k
    rw [hls]
    split
    · next hk =>
      subst hk
      rw [hr.closed_self, hupdated]
      change _ ↔ (∃ r, s.terminal.get? k = some r) ∨ _
      rw [h.no_terminal hr.not_closed]
      simp
    · next hk =>
      rw [hr.closed_of_ne hk]
      exact h.closed k
  · intro k r hk
    rw [hls]
    split
    · next he =>
      subst he
      change s.terminal.get? k = some r at hk
      rw [h.no_terminal hr.not_closed] at hk
      cases hk
    · exact h.once k r hk

theorem Recorded.settled {owner : String} {state : TerminalWorkItemState}
    {code details : Option String} {now : DateTime} {ref : Option ObjectReference}
    {current completed : WorkItemRecord} {record : TerminalWorkItemRecord} (h : s.Recorded)
    (hc : Terminalizes s key owner state code details now ref current completed record) :
    (s.putTerminal key completed record).Recorded := by
  have hr := hc.replaces
  have hnot : ¬s.LastStageRecorded key := fun hl => hr.not_closed ((h.closed key).2 (Or.inr hl))
  have hget : ∀ k, (s.putTerminal key completed record).terminal.get? k =
      if k = key then some record else s.terminal.get? k := fun k => Dict.get?_insert ..
  constructor
  · rw [hr.work?]; exact h.checkpoints
  · exact h.numbered
  · exact h.forward
  · intro k r hk
    rw [hr.work?]
    rw [hget] at hk
    split at hk
    · next he =>
      subst he
      cases hk
      refine ⟨workOf current, work?_of_get? hc.owned.found, ?_⟩
      constructor <;> simp [hc.terminal, workOf, Work.key]
    · exact h.terminal k r hk
  · intro k
    rw [hget]
    split
    · next he =>
      subst he
      rw [hr.closed_self, hc.value]
      simp [releasedFields]
    · next he =>
      rw [hr.closed_of_ne he]
      exact h.closed k
  · intro k r hk
    rw [hget] at hk
    split at hk
    · next he => subst he; exact hnot
    · exact h.once k r hk

theorem Recorded.created {item : WorkItemRecord} {outbox : OutboxRecord} (h : s.Recorded)
    (issued : Issued item outbox) (hc : Creates s item outbox) :
    (s.putCreated item outbox).Recorded := by
  have hfree := hc.work?_eq_none
  have hclosed : ∀ k, (s.putCreated item outbox).Closed k ↔ s.Closed k := by
    intro k
    unfold Closed
    simp only [putCreated, Dict.get?_insert]
    split
    · next hk =>
      subst hk
      simp [hc.freeKey, issued.pending]
    · rfl
  constructor
  · intro k c hm
    obtain ⟨w, hw, hcw⟩ := h.checkpoints k c hm
    refine ⟨w, ?_, hcw⟩
    rw [putCreated_work?, if_neg ?_, hw]
    rintro rfl
    rw [hfree] at hw
    cases hw
  · exact h.numbered
  · exact h.forward
  · intro k r hk
    obtain ⟨w, hw, hrw⟩ := h.terminal k r hk
    refine ⟨w, ?_, hrw⟩
    rw [putCreated_work?, if_neg ?_, hw]
    rintro rfl
    rw [hfree] at hw
    cases hw
  · intro k
    rw [hclosed]
    exact h.closed k
  · exact h.once

theorem Change.recorded (h : Change s s') (hs : s.Recorded) : s'.Recorded := by
  cases h with
  | unchanged => exact hs
  | acquired h => exact hs.replaced h.replaces rfl rfl (by simp [h.value, acquiredFields])
  | renewed h =>
    refine hs.replaced h.replaces rfl rfl ?_
    rw [h.value]
    exact h.owned.opened
  | checkpointed h => exact hs.checkpointed h
  | settled h => exact hs.settled h
  | created issued h => exact hs.created issued h
  | published found event notification => exact hs.of_eq rfl rfl rfl
  | effectSaved found same fresh => exact hs.of_eq rfl rfl rfl
  | reconciliationSaved found same fresh => exact hs.of_eq rfl rfl rfl
  | failureRecorded failures => exact hs.of_eq rfl rfl rfl

end Records

section Effects

theorem Change.effected (h : Change s s') (hs : s.Effected) : s'.Effected := by
  cases h with
  | unchanged => exact hs
  | acquired h => exact hs.of_eq h.replaces.work? rfl rfl
  | renewed h => exact hs.of_eq h.replaces.work? rfl rfl
  | checkpointed h => exact hs.of_eq h.replaces.work? rfl rfl
  | settled h => exact hs.of_eq h.replaces.work? rfl rfl
  | created issued h =>
    rename_i item outbox
    have hne : ∀ {k w}, s.work? k = some w → k ≠ (workOf item).key := by
      rintro k w hw rfl
      rw [h.work?_eq_none] at hw
      cases hw
    constructor
    · intro k r hk
      obtain ⟨hkey, w, hw, hwi⟩ := hs.effects k r hk
      exact ⟨hkey, w, by rw [putCreated_work?, if_neg (hne hw), hw], hwi⟩
    · intro k r hk
      obtain ⟨hkey, w, hw, hwi⟩ := hs.reconciliations k r hk
      exact ⟨hkey, w, by rw [putCreated_work?, if_neg (hne hw), hw], hwi⟩
  | published found event notification => exact hs.of_eq rfl rfl rfl
  | effectSaved found same fresh =>
    refine ⟨fun k r hk => ?_, hs.reconciliations⟩
    simp only [Dict.get?_insert] at hk
    split at hk
    · next he =>
      subst he
      cases hk
      exact ⟨rfl, _, work?_of_get? found, same⟩
    · exact hs.effects k r hk
  | reconciliationSaved found same fresh =>
    refine ⟨hs.effects, fun k r hk => ?_⟩
    simp only [Dict.get?_insert] at hk
    split at hk
    · next he =>
      subst he
      cases hk
      exact ⟨rfl, _, work?_of_get? found, same⟩
    · exact hs.reconciliations k r hk
  | failureRecorded failures => exact hs.of_eq rfl rfl rfl

end Effects

theorem Change.invariant (h : Change s s') (hs : s.StoreInvariant) : s'.StoreInvariant :=
  ⟨leased s', h.announced hs.announced, h.recorded hs.recorded, h.effected hs.effected⟩

theorem empty_invariant : StoreInvariant .empty := by
  refine ⟨leased _, ⟨?_, ?_, ?_, ?_⟩, ⟨?_, ?_, ?_, ?_, ?_, ?_⟩, ⟨?_, ?_⟩⟩ <;>
    simp [empty, work?, checkpointsOf, Closed, LastStageRecorded]

theorem Reached.invariant (h : s.Reached) : s.StoreInvariant :=
  Machine.Reachable.invariant (fun call t => (call_change call t).invariant) h empty_invariant

end WorkRepository

end AiRetrieval
