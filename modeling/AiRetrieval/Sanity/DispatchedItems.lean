import AiRetrieval.Sanity.WakeUps
import AiRetrieval.Spec.BulkDispatch

/-! What the dispatcher's loop leaves in the store: each item that the repository takes is created
before the next one is looked at. -/

namespace AiRetrieval.BulkDispatcher

open Program AiRetrieval.Action WorkRepository

variable (runtime : PythonRuntime) (env : Environment) (job : BatchJob)
  (context : ExecutionContext)

def keyOf (itemId : String) : Key := (job.val.jobId, idempotencyKey job itemId)

def payloadReference (data : Bytes) : Except PyError ObjectReference :=
  Checked.make ObjectReference.postInit
    ⟨"memory://" ++ ArtifactKind.payload.value ++ "/" ++ env.sha256 data, env.sha256 data, .payload,
      data.length⟩

theorem putPayload_exec (data : Bytes) (objects : ObjectResultStore) :
    ((ObjectResultStore.putPayload env.sha256 data).exec objects).1 = payloadReference env data :=
  rfl

def prepared (itemId : String) : Except PyError WorkItemRecord := do
  let data ← payload runtime job itemId
  let submission ← Checked.make WorkSubmission.postInit
    ⟨job.val.jobId, itemId, idempotencyKey job itemId, data⟩
  require (context.path = .bulk) (.valueError "durable work may only bind to a bulk execution")
  let reference ← payloadReference env data
  BulkCoordinator.pendingItem submission reference context.configuration.reference

/-- The pending item and its announcement, on what the identifier source answers. -/
def announced (answer : Except PyError String) (itemId : String) :
    Except PyError (WorkItemRecord × OutboxRecord) := do
  let item ← prepared runtime env job context itemId
  let eventId ← BulkCoordinator.newIdentifier "outbox" answer
  let outbox ← BulkCoordinator.announcement item eventId
  return (item, outbox)

/-- The stored work is that of the item. -/
def SameWork (existing item : WorkItemRecord) : Prop :=
  existing.val.itemId = item.val.itemId ∧ existing.val.configuration = item.val.configuration ∧
    existing.val.payloadReference = item.val.payloadReference

def Admits (s : WorkRepository) (item : WorkItemRecord) (outbox : OutboxRecord) : Prop :=
  match s.items.get? (item.val.jobId, item.val.idempotencyKey) with
  | some existing => SameWork existing item
  | none => s.itemIds.get? (item.val.jobId, item.val.itemId) = none ∧
      s.outbox.get? outbox.val.eventId = none

/-- The store once the item is taken. -/
def taking (s : WorkRepository) (item : WorkItemRecord) (outbox : OutboxRecord) : WorkRepository :=
  if s.items.contains (item.val.jobId, item.val.idempotencyKey) then s
  else s.putCreated item outbox

section Repository

variable {s : WorkRepository} {item : WorkItemRecord} {outbox : OutboxRecord}

theorem createWithOutbox_taken (h : Admits s item outbox) :
    ∃ reply, (createWithOutbox item outbox).exec s = (.ok reply, taking s item outbox) := by
  unfold Admits at h
  unfold createWithOutbox taking
  simp only [exec_bind, exec_get]
  rcases hfound : s.items.get? (item.val.jobId, item.val.idempotencyKey) with _ | existing
  · rw [hfound] at h
    rw [if_neg (by rw [Dict.contains, h.1]; exact Bool.false_ne_true),
      if_neg (by rw [Dict.contains, h.2]; exact Bool.false_ne_true),
      if_neg (by rw [Dict.contains, hfound]; exact Bool.false_ne_true)]
    exact ⟨item, rfl⟩
  · rw [hfound] at h
    simp only
    rw [if_neg (by rintro (hne | hne | hne); exacts [hne h.1, hne h.2.1, hne h.2.2]),
      if_pos (by rw [Dict.contains, hfound]; rfl)]
    exact ⟨existing, rfl⟩

theorem createWithOutbox_refused (h : ¬Admits s item outbox) :
    ∃ e, (createWithOutbox item outbox).exec s = (.error e, s) := by
  have hout := createWithOutbox_outcome s item outbox
  generalize (createWithOutbox item outbox).exec s = reply at hout
  unfold Admits at h
  cases hout with
  | raised e => exact ⟨e, rfl⟩
  | existing existing found same =>
    rw [found] at h
    exact absurd same h
  | created hc =>
    rw [hc.freeKey] at h
    exact absurd ⟨hc.freeItem, hc.freeEvent⟩ h

end Repository

section Items

variable {runtime env job context} {itemId : String} {w : World}

theorem prepared_value {item : WorkItemRecord}
    (h : prepared runtime env job context itemId = .ok item) :
    item.val.jobId = job.val.jobId ∧ item.val.itemId = itemId ∧
      item.val.idempotencyKey = idempotencyKey job itemId ∧
      item.val.configuration = context.configuration.reference := by
  obtain ⟨data, -, h⟩ := except_bind_eq_ok.1 h
  obtain ⟨submission, hsubmission, h⟩ := except_bind_eq_ok.1 h
  obtain ⟨-, h⟩ := except_seq_eq_ok.1 h
  obtain ⟨reference, -, h⟩ := except_bind_eq_ok.1 h
  rw [Checked.make_eq_ok] at hsubmission
  rw [BulkCoordinator.pendingItem, Checked.make_eq_ok] at h
  rw [h, hsubmission]
  exact ⟨rfl, rfl, rfl, rfl⟩

theorem announced_issued {answer : Except PyError String} {item : WorkItemRecord}
    {outbox : OutboxRecord}
    (h : announced runtime env job context answer itemId = .ok (item, outbox)) :
    prepared runtime env job context itemId = .ok item ∧
      BulkCoordinator.newIdentifier "outbox" answer = .ok outbox.val.eventId ∧
      Issued item outbox := by
  obtain ⟨item', hitem, h⟩ := except_bind_eq_ok.1 h
  obtain ⟨eventId, hevent, h⟩ := except_bind_eq_ok.1 h
  obtain ⟨outbox', houtbox, h⟩ := except_bind_eq_ok.1 h
  cases h
  refine ⟨hitem, ?_, ?_⟩
  · obtain ⟨notification, -, houtbox⟩ := except_bind_eq_ok.1 houtbox
    rw [Checked.make_eq_ok] at houtbox
    rw [hevent, houtbox]
  · obtain ⟨data, -, hitem⟩ := except_bind_eq_ok.1 hitem
    obtain ⟨submission, -, hitem⟩ := except_bind_eq_ok.1 hitem
    obtain ⟨-, hitem⟩ := except_seq_eq_ok.1 hitem
    obtain ⟨reference, -, hitem⟩ := except_bind_eq_ok.1 hitem
    exact issued_of_announcement hitem houtbox

theorem submitItem_exec (itemId : String) (w : World) :
    (∃ e w', announced runtime env job context (env.identifier w.moment) itemId = .error e ∧
      (submitItem runtime env job context itemId).exec w = (.error e, w') ∧ w'.store = w.store) ∨
    ∃ item outbox w',
      announced runtime env job context (env.identifier w.moment) itemId = .ok (item, outbox) ∧
      (submitItem runtime env job context itemId).exec w =
        (((createWithOutbox item outbox).exec w.store).1.map fun _ => (), w') ∧
      w'.store = ((createWithOutbox item outbox).exec w.store).2 ∧ w'.moment = w.moment + 1 := by
  unfold submitItem announced prepared
  rw [exec_bind, exec_liftExcept]
  rcases payload runtime job itemId with e | data
  · exact Or.inl ⟨e, w, rfl, rfl, rfl⟩
  simp only
  rw [exec_bind, exec_liftExcept, except_ok_bind]
  rcases hsubmission : Checked.make WorkSubmission.postInit
    ⟨job.val.jobId, itemId, idempotencyKey job itemId, data⟩ with e | submission
  · exact Or.inl ⟨e, w, rfl, rfl, rfl⟩
  simp only
  rw [except_ok_bind, exec_bind, BulkCoordinator.submit, require]
  by_cases hpath : context.path = .bulk
  swap
  · rw [if_neg hpath, if_pos hpath]
    exact Or.inl ⟨_, w, rfl, rfl, rfl⟩
  have hdata : submission.val.payload = data := by rw [Checked.make_eq_ok.1 hsubmission]
  rw [if_pos hpath, if_neg (not_not.2 hpath), except_ok_bind, exec_bind, exec_onObjects,
    putPayload_exec, hdata]
  rcases payloadReference env data with e | reference
  · exact Or.inl ⟨e, _, rfl, rfl, rfl⟩
  simp only
  rw [except_ok_bind, exec_bind, exec_liftExcept]
  rcases BulkCoordinator.pendingItem submission reference context.configuration.reference with
    e | item
  · exact Or.inl ⟨e, _, rfl, rfl, rfl⟩
  simp only
  rw [except_ok_bind, exec_bind, exec_ask]
  simp only
  rcases BulkCoordinator.newIdentifier "outbox" (env.identifier w.moment) with e | eventId
  · exact Or.inl ⟨e, _, rfl, rfl, rfl⟩
  simp only
  rw [except_ok_bind, exec_bind, exec_liftExcept]
  rcases BulkCoordinator.announcement item eventId with e | outbox
  · exact Or.inl ⟨e, _, rfl, rfl, rfl⟩
  simp only
  rw [exec_onStore]
  rcases hreply : (createWithOutbox item outbox).exec w.store with ⟨e | stored, s⟩
  · exact Or.inr ⟨item, outbox, _, rfl, by rw [hreply]; rfl, by rw [hreply], rfl⟩
  · exact Or.inr ⟨item, outbox, _, rfl, by rw [hreply]; rfl, by rw [hreply], rfl⟩

end Items

section Loop

variable (runtime : PythonRuntime) (env : Environment) (job : BatchJob)
  (context : ExecutionContext) (s : WorkRepository) (moment : Nat)

/-- The item is not in the store yet. -/
def Fresh (itemId : String) : Prop := s.items.contains (keyOf job itemId) = false

instance (itemId : String) : Decidable (Fresh job s itemId) :=
  inferInstanceAs (Decidable (_ = _))

/-- One of the items is created under the event. -/
def Spent (items : List String) (eventId : String) : Prop :=
  ∃ front itemId back, items = front ++ itemId :: back ∧ Fresh job s itemId ∧ itemId ∉ front ∧
    BulkCoordinator.newIdentifier "outbox" (env.identifier (moment + front.length)) = .ok eventId

/-- The repository takes the item, where it has taken those before it: its work is stored, or
was created before, or nothing stands in the way of its creation. -/
def Accepted (before : List String) (itemId : String) : Prop :=
  ∃ item outbox, announced runtime env job context
    (env.identifier (moment + before.length)) itemId =
      .ok (item, outbox) ∧
    match s.items.get? (keyOf job itemId) with
    | some existing => SameWork existing item
    | none => itemId ∈ before ∨ s.itemIds.get? (job.val.jobId, itemId) = none ∧
        s.outbox.get? outbox.val.eventId = none ∧ ¬Spent env job s moment before outbox.val.eventId

/-- What the store holds once the items are taken. -/
structure Submitted (items : List String) (s' : WorkRepository) : Prop where
  changes : Changes s s'
  still : (∀ itemId ∈ items, ¬Fresh job s itemId) → s' = s
  item : ∀ itemId, s'.items.get? (keyOf job itemId) =
    if itemId ∈ items ∧ Fresh job s itemId then
      (prepared runtime env job context itemId).toOption
    else s.items.get? (keyOf job itemId)
  itemIds : ∀ itemId, itemId ∉ items ∨ ¬Fresh job s itemId →
    s'.itemIds.get? (job.val.jobId, itemId) = s.itemIds.get? (job.val.jobId, itemId)
  outbox : ∀ eventId, s'.outbox.get? eventId = none ↔
    s.outbox.get? eventId = none ∧ ¬Spent env job s moment items eventId
  pending : s'.pendingOutbox.length =
    s.pendingOutbox.length + (items.toFinset.filter (Fresh job s)).card

end Loop

section Steps

variable {runtime : PythonRuntime} {env : Environment} {job : BatchJob}
  {context : ExecutionContext} {s s' : WorkRepository} {moment : Nat} {items : List String}
  {itemId : String}

theorem keyOf_injective : Function.Injective (keyOf job) := by
  intro a b h
  simp only [keyOf, idempotencyKey, Prod.mk.injEq, true_and, String.append_right_inj] at h
  exact h

theorem submitted_nil : Submitted runtime env job context s moment [] s where
  changes := refl_of Changes s
  still _ := rfl
  item itemId := by simp
  itemIds _ _ := rfl
  outbox eventId := by
    have hnone : ¬Spent env job s moment [] eventId := by
      rintro ⟨front, itemId, back, h, -⟩
      simp at h
    simp [hnone]
  pending := by simp

theorem spent_concat {eventId : String} : Spent env job s moment (items ++ [itemId]) eventId ↔
    Spent env job s moment items eventId ∨ Fresh job s itemId ∧ itemId ∉ items ∧
      BulkCoordinator.newIdentifier "outbox" (env.identifier (moment + items.length)) =
        .ok eventId := by
  constructor
  · rintro ⟨front, other, back, h, hrest⟩
    rcases List.eq_nil_or_concat back with rfl | ⟨back, last, rfl⟩
    · obtain ⟨rfl, hlast⟩ := List.append_inj' h rfl
      obtain ⟨rfl, -⟩ := List.cons.inj hlast
      exact Or.inr hrest
    · rw [List.concat_eq_append, ← List.cons_append, ← List.append_assoc] at h
      obtain ⟨rfl, -⟩ := List.append_inj' h rfl
      exact Or.inl ⟨front, other, back, rfl, hrest⟩
  · rintro (⟨front, other, back, rfl, hrest⟩ | h)
    · exact ⟨front, other, back ++ [itemId], by simp, hrest⟩
    · exact ⟨items, itemId, [], rfl, h⟩

theorem Submitted.keep (h : Submitted runtime env job context s moment items s')
    (hold : Fresh job s itemId → itemId ∈ items) :
    Submitted runtime env job context s moment (items ++ [itemId]) s' := by
  have hiff (other : String) :
      other ∈ items ++ [itemId] ∧ Fresh job s other ↔ other ∈ items ∧ Fresh job s other := by
    rw [List.mem_append, List.mem_singleton]
    refine and_congr_left fun hfresh => or_iff_left_of_imp ?_
    rintro rfl
    exact hold hfresh
  constructor
  · exact h.changes
  · exact fun hnone => h.still fun other hother => hnone other (List.mem_append_left _ hother)
  · intro other
    simp only [h.item, hiff]
  · intro other hother
    refine h.itemIds other ?_
    rcases hother with hother | hother
    · exact Or.inl fun hmem => hother (List.mem_append_left _ hmem)
    · exact Or.inr hother
  · intro eventId
    rw [h.outbox, spent_concat, or_iff_left]
    rintro ⟨hfresh, hnot, -⟩
    exact hnot (hold hfresh)
  · rw [h.pending]
    congr 2
    ext other
    simp only [Finset.mem_filter, List.mem_toFinset, hiff]

theorem Submitted.create (h : Submitted runtime env job context s moment items s')
    {item : WorkItemRecord} {outbox : OutboxRecord}
    (ha : announced runtime env job context (env.identifier (moment + items.length)) itemId =
      .ok (item, outbox)) (hc : Creates s' item outbox) :
    Submitted runtime env job context s moment (items ++ [itemId]) (s'.putCreated item outbox) := by
  obtain ⟨hprepared, hevent, hissued⟩ := announced_issued ha
  obtain ⟨hjob, hid, hkey, -⟩ := prepared_value hprepared
  have hkeyed : (item.val.jobId, item.val.idempotencyKey) = keyOf job itemId := by
    rw [hjob, hkey, keyOf]
  have hfree := hc.freeKey
  rw [hkeyed, h.item] at hfree
  have hnot : ¬(itemId ∈ items ∧ Fresh job s itemId) := by
    intro hmem
    rw [if_pos hmem, hprepared] at hfree
    cases hfree
  rw [if_neg hnot] at hfree
  have hfresh : Fresh job s itemId := by
    rw [Fresh, Dict.contains, hfree]
    rfl
  have hnew : itemId ∉ items := fun hmem => hnot ⟨hmem, hfresh⟩
  constructor
  · exact trans_of Changes h.changes (Change.created hissued hc).changes
  · exact fun hnone => absurd hfresh
      (hnone itemId (List.mem_append_right _ (List.mem_singleton_self _)))
  · intro other
    rw [putCreated, Dict.get?_insert, hkeyed]
    by_cases hother : other = itemId
    · subst hother
      rw [if_pos rfl, if_pos ⟨List.mem_append_right _ (List.mem_singleton_self _),
        hfresh⟩, hprepared]
      rfl
    · rw [if_neg (keyOf_injective.ne hother), h.item]
      simp only [List.mem_append, List.mem_singleton, hother, or_false]
  · intro other hother
    have hne : other ≠ itemId := by
      rintro rfl
      rcases hother with hother | hother
      · exact hother (List.mem_append_right _ (List.mem_singleton_self _))
      · exact hother hfresh
    rw [putCreated, Dict.get?_insert_of_ne]
    · refine h.itemIds other (hother.imp_left fun hmem hin => hmem (List.mem_append_left _ hin))
    · rw [hjob, hid]
      exact fun heq => hne (Prod.mk.inj heq).2
  · intro eventId
    rw [putCreated, Dict.get?_insert, spent_concat, hevent]
    by_cases heq : eventId = outbox.val.eventId
    · subst heq
      rw [if_pos rfl]
      exact iff_of_false (fun h => by cases h) fun hand => hand.2 (Or.inr ⟨hfresh, hnew, rfl⟩)
    · rw [if_neg heq, h.outbox, or_iff_left]
      rintro ⟨-, -, hsame⟩
      exact heq (Except.ok.inj hsame).symm
  · have hone : [outbox].filter (fun record => record.val.status = .pending) = [outbox] := by
      simp [hissued.unpublished]
    have hpending : (s'.putCreated item outbox).pendingOutbox = s'.pendingOutbox ++ [outbox] := by
      rw [putCreated, pendingOutbox, Dict.values_insert_of_get?_none _ hc.freeEvent,
        List.filter_append, hone]
      rfl
    have hinsert : ((items ++ [itemId]).toFinset.filter (Fresh job s)) =
        insert itemId (items.toFinset.filter (Fresh job s)) := by
      ext other
      rw [Finset.mem_insert, Finset.mem_filter, Finset.mem_filter, List.mem_toFinset,
        List.mem_toFinset, List.mem_append, List.mem_singleton]
      constructor
      · rintro ⟨hmem | rfl, hother⟩
        · exact Or.inr ⟨hmem, hother⟩
        · exact Or.inl rfl
      · rintro (rfl | ⟨hmem, hother⟩)
        · exact ⟨Or.inr rfl, hfresh⟩
        · exact ⟨Or.inl hmem, hother⟩
    have hout : itemId ∉ items.toFinset.filter (Fresh job s) := by
      rw [Finset.mem_filter, List.mem_toFinset]
      exact hnot
    rw [hpending, List.length_append, h.pending, hinsert, Finset.card_insert_of_notMem hout]
    exact Nat.add_assoc ..

theorem accepted_iff (h : Submitted runtime env job context s moment items s') :
    Accepted runtime env job context s moment items itemId ↔ ∃ item outbox,
      announced runtime env job context (env.identifier (moment + items.length)) itemId =
        .ok (item, outbox) ∧ Admits s' item outbox := by
  refine exists_congr fun item => exists_congr fun outbox => and_congr_right fun ha => ?_
  obtain ⟨hprepared, -, -⟩ := announced_issued ha
  obtain ⟨hjob, hid, hkey, -⟩ := prepared_value hprepared
  unfold Admits
  rw [hjob, hkey, hid]
  change _ ↔ match s'.items.get? (keyOf job itemId) with
    | some existing => SameWork existing item
    | none => _
  rw [h.item]
  rcases hfound : s.items.get? (keyOf job itemId) with _ | existing
  · have hfresh : Fresh job s itemId := by
      rw [Fresh, Dict.contains, hfound]
      rfl
    by_cases hmem : itemId ∈ items
    · rw [if_pos ⟨hmem, hfresh⟩, hprepared]
      exact iff_of_true (Or.inl hmem) ⟨rfl, rfl, rfl⟩
    · rw [if_neg fun hand => hmem hand.1, h.itemIds itemId (Or.inl hmem), h.outbox]
      exact or_iff_right hmem
  · have hknown : ¬Fresh job s itemId := by
      rw [Fresh, Dict.contains, hfound]
      exact fun h => by cases h
    rw [if_neg fun hand => hknown hand.2]

theorem submitItem_step {w : World}
    (h : Submitted runtime env job context s moment items w.store)
    (hmoment : w.moment = moment + items.length) :
    (Accepted runtime env job context s moment items itemId ∧
      ∃ w', (submitItem runtime env job context itemId).exec w = (.ok (), w') ∧
        Submitted runtime env job context s moment (items ++ [itemId]) w'.store ∧
        w'.moment = moment + (items ++ [itemId]).length) ∨
    (¬Accepted runtime env job context s moment items itemId ∧
      ∃ e w', (submitItem runtime env job context itemId).exec w = (.error e, w') ∧
        w'.store = w.store) := by
  rw [accepted_iff h, ← hmoment]
  rcases submitItem_exec itemId w with ⟨e, w', ha, hexec, hstore⟩ |
    ⟨item, outbox, w', ha, hexec, hstore, hnext⟩
  · refine Or.inr ⟨?_, e, w', hexec, hstore⟩
    rintro ⟨item, outbox, hok, -⟩
    rw [ha] at hok
    cases hok
  by_cases hadmits : Admits w.store item outbox
  · obtain ⟨reply, hreply⟩ := createWithOutbox_taken hadmits
    rw [hreply] at hexec hstore
    refine Or.inl ⟨⟨item, outbox, ha, hadmits⟩, w', hexec, ?_, ?_⟩
    · rw [hmoment] at ha
      obtain ⟨hprepared, -, -⟩ := announced_issued ha
      obtain ⟨hjob, -, hkey, -⟩ := prepared_value hprepared
      rw [hstore, taking, hjob, hkey]
      change Submitted runtime env job context s moment (items ++ [itemId])
        (if w.store.items.contains (keyOf job itemId) then w.store else _)
      by_cases hthere : w.store.items.contains (keyOf job itemId) = true
      · rw [if_pos hthere]
        refine h.keep fun hfresh => ?_
        by_contra hnew
        rw [Dict.contains, h.item, if_neg fun hand => hnew hand.1] at hthere
        exact Bool.false_ne_true (hfresh.symm.trans hthere)
      · rw [if_neg hthere]
        have hfree : w.store.items.get? (item.val.jobId, item.val.idempotencyKey) = none := by
          rw [hjob, hkey]
          change w.store.items.get? (keyOf job itemId) = none
          simpa [Dict.contains] using hthere
        unfold Admits at hadmits
        rw [hfree] at hadmits
        exact h.create ha ⟨hfree, hadmits.1, hadmits.2⟩
    · rw [hnext, hmoment, List.length_append, Nat.add_assoc]
      rfl
  · obtain ⟨e, hreply⟩ := createWithOutbox_refused hadmits
    rw [hreply] at hexec hstore
    refine Or.inr ⟨?_, e, w', hexec, hstore⟩
    rintro ⟨item', outbox', hok, hadmits'⟩
    rw [ha] at hok
    cases hok
    exact hadmits hadmits'

/-- The loop takes every item, or stops at the first one that is not accepted with those before it
taken. -/
theorem submitItems_run (rest : List String) {w : World}
    (h : Submitted runtime env job context s moment items w.store)
    (hmoment : w.moment = moment + items.length) :
    (∃ w', (submitItems runtime env job context rest).exec w = (.ok (), w') ∧
      Submitted runtime env job context s moment (items ++ rest) w'.store ∧
      w'.moment = moment + (items ++ rest).length ∧
      ∀ front itemId back, rest = front ++ itemId :: back →
        Accepted runtime env job context s moment (items ++ front) itemId) ∨
    ∃ e w' front itemId back, (submitItems runtime env job context rest).exec w = (.error e, w') ∧
      rest = front ++ itemId :: back ∧
      ¬Accepted runtime env job context s moment (items ++ front) itemId ∧
      Submitted runtime env job context s moment (items ++ front) w'.store ∧
      ∀ first other last, front = first ++ other :: last →
        Accepted runtime env job context s moment (items ++ first) other := by
  induction rest generalizing items w with
  | nil =>
    refine Or.inl ⟨w, rfl, ?_, ?_, ?_⟩
    · rwa [List.append_nil]
    · rwa [List.append_nil]
    · intro front itemId back hnil
      simp at hnil
  | cons itemId rest ih =>
    rw [submitItems]
    rcases submitItem_step h hmoment with ⟨hac, w', hexec, hnext, hlater⟩ | ⟨hnot, e, w',
      hexec, hsame⟩
    · rw [exec_bind_of_ok hexec]
      -- the item was accepted, and so are those that follow it
      have haccepts {front : List String} (hrest : ∀ first other last,
          front = first ++ other :: last →
            Accepted runtime env job context s moment (items ++ [itemId] ++ first) other)
          (first : List String) (other : String) (last : List String)
          (hsplit : itemId :: front = first ++ other :: last) :
          Accepted runtime env job context s moment (items ++ first) other := by
        cases first with
        | nil =>
          obtain ⟨rfl, -⟩ := List.cons.inj hsplit
          rwa [List.append_nil]
        | cons head first =>
          obtain ⟨rfl, htail⟩ := List.cons.inj hsplit
          rw [List.append_cons]
          exact hrest first other last htail
      have happend (list : List String) : items ++ [itemId] ++ list = items ++ itemId :: list :=
        (List.append_cons items itemId list).symm
      rcases ih hnext hlater with ⟨u, hu, hall, hm, hrest⟩ |
        ⟨e, u, front, stop, back, hu, rfl, hstop, hfront, hrest⟩
      · rw [happend] at hall hm
        exact Or.inl ⟨u, hu, hall, hm, haccepts hrest⟩
      · rw [happend] at hstop hfront
        exact Or.inr ⟨e, u, itemId :: front, stop, back, hu, rfl, hstop, hfront, haccepts hrest⟩
    · rw [exec_bind_of_error hexec]
      refine Or.inr ⟨e, w', [], itemId, rest, rfl, rfl, ?_, ?_, ?_⟩
      · rwa [List.append_nil]
      · rwa [List.append_nil, hsame]
      · intro first other last hnil
        simp at hnil

end Steps

section Relay

variable (env : Environment)

/-- The same items, and announcements under the same events. -/
def SameEntries (s s' : WorkRepository) : Prop :=
  s'.items = s.items ∧ ∀ eventId, s'.outbox.get? eventId = none ↔ s.outbox.get? eventId = none

instance : IsPreorder WorkRepository SameEntries where
  refl _ := ⟨rfl, fun _ => Iff.rfl⟩
  trans _ _ _ h h' := ⟨h'.1.trans h.1, fun eventId => (h'.2 eventId).trans (h.2 eventId)⟩

theorem markPublished_same {s : WorkRepository} {eventId : String} {publishedAt : DateTime}
    {reply : Except PyError OutboxRecord × WorkRepository}
    (h : MarkPublishedOutcome s eventId publishedAt reply) : SameEntries s reply.2 := by
  cases h with
  | raised e unknown => exact refl_of SameEntries s
  | repeated found published => exact refl_of SameEntries s
  | published found published hfound pending value =>
    refine ⟨rfl, fun other => ?_⟩
    rw [Dict.get?_insert]
    split
    · next heq =>
      subst heq
      rw [hfound]
      exact iff_of_false (fun h => by cases h) fun h => by cases h
    · exact Iff.rfl

theorem relay_same (records : List OutboxRecord) :
    Moves (OnStores SameEntries) (BulkCoordinator.relay env records) := by
  induction records with
  | nil => exact moves_pure _
  | cons record rest ih =>
    unfold BulkCoordinator.relay
    refine moves_bind (onBroker_moves _) fun _ => moves_bind (ask_moves _) fun now => ?_
    refine moves_bind (onStore_moves fun s => ?_) fun _ => moves_bind ih fun _ => moves_pure _
    exact markPublished_same (markPublished_outcome s record.val.eventId now)

theorem relay_returns_iff (records : List OutboxRecord) (w : World) (h : Stored w.store records) :
    (∃ count, ((BulkCoordinator.relay env records).exec w).1 = .ok count) ↔
      ∀ k < records.length, ∃ now, env.clock (w.moment + k) = .ok now := by
  induction records generalizing w with
  | nil => exact iff_of_true ⟨0, rfl⟩ fun k hk => absurd hk (Nat.not_lt_zero k)
  | cons record rest ih =>
    obtain ⟨stored, hstored, -⟩ := h record (List.mem_cons_self ..)
    rw [List.length_cons, Nat.forall_lt_succ_left, Nat.add_zero]
    unfold BulkCoordinator.relay
    rw [exec_bind, exec_onBroker]
    simp only [NotificationBroker.publish, exec_modify]
    rw [exec_bind, exec_ask]
    simp only
    rcases hnow : env.clock w.moment with e | now
    · refine iff_of_false ?_ ?_
      · rintro ⟨count, hcount⟩
        cases hcount
      · rintro ⟨⟨now, hok⟩, -⟩
        cases hok
    simp only
    rw [exec_bind, exec_onStore]
    have hout := markPublished_outcome w.store record.val.eventId now
    have hrest := (h.mono (List.subset_cons_self ..)).markPublished hout
    generalize (markPublished record.val.eventId now).exec w.store = reply at *
    obtain ⟨published, s, rfl⟩ : ∃ published s, reply = (.ok published, s) := by
      cases hout with
      | raised e unknown =>
        rw [hstored] at unknown
        cases unknown
      | repeated found published => exact ⟨_, _, rfl⟩
      | published found published hfound pending value => exact ⟨_, _, rfl⟩
    simp only
    have hnext := ih { w with
      store := s
      broker := { w.broker with queued := w.broker.queued ++ [record.val.notification] }
      moment := w.moment + 1 } hrest
    simp only [Nat.add_right_comm _ 1, Nat.add_assoc _ _ 1] at hnext
    rw [exec_bind]
    refine Iff.trans ?_ (hnext.trans (and_iff_right ⟨now, rfl⟩).symm)
    generalize (BulkCoordinator.relay env rest).exec { w with
      store := s
      broker := { w.broker with queued := w.broker.queued ++ [record.val.notification] }
      moment := w.moment + 1 } = r
    obtain ⟨e | count, t⟩ := r
    · exact iff_of_false (by rintro ⟨_, h⟩; cases h) (by rintro ⟨_, h⟩; cases h)
    · exact iff_of_true ⟨_, rfl⟩ ⟨_, rfl⟩

end Relay

end AiRetrieval.BulkDispatcher
