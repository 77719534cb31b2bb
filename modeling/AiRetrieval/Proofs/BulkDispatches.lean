import AiRetrieval.Proofs.EscapingOutput
import AiRetrieval.Proofs.StaleClaims
import AiRetrieval.Sanity.DispatchedItems

/-! When a dispatched job is all or nothing: the items are created one by one, so a refusal after
the first new item leaves what was created before it. -/

namespace AiRetrieval

open Program AiRetrieval.Action WorkRepository BulkDispatcher

/-- The store holds no item and no announcement of the job that it did not hold before. -/
structure NothingCreated (jobId : String) (s s' : WorkRepository) : Prop where
  items : ∀ key item, key.1 = jobId → s'.items.get? key = some item → s.items.get? key ≠ none
  outbox : ∀ eventId record, record.val.notification.val.jobId = jobId →
    s'.outbox.get? eventId = some record → s.outbox.get? eventId ≠ none

def Durable (job : BatchJob) (s : WorkRepository) (itemId : String) : Prop :=
  ∃ item, s.items.get? (keyOf job itemId) = some item ∧ item.val.itemId = itemId ∧
    ∃ eventId record, s.outbox.get? eventId = some record ∧ Announces record (workOf item) ∧
      (record.val.status = .pending ∨ record.val.status = .published)

section Dispatch

variable (runtime : PythonRuntime) (env : Environment) (scope : String) (job : BatchJob)
  (context : ExecutionContext) (s : Dispatching)

structure AllOrNothing : Prop where
  raised : ∀ e s', (dispatch runtime env job context scope).exec s = (.error e, s') →
    NothingCreated job.val.jobId s.world.store s'.world.store
  returned : ∀ result s', (dispatch runtime env job context scope).exec s = (.ok result, s') →
    ∀ itemId ∈ job.val.itemIds, Durable job s'.world.store itemId

/-- The budget controller refuses to bind the execution. -/
def Unbound : Prop := ∃ controller e, s.controller = some controller ∧
  ((InMemoryBudgetController.bind context [scope]).exec controller).1 = .error e

/-- Each clock reading of the relay returns, when every item is accepted. -/
def RelayAnswers : Prop :=
  ∀ k < s.world.store.pendingOutbox.length +
      (job.val.itemIds.toFinset.filter (Fresh job s.world.store)).card,
    ∃ now, env.clock (s.world.moment + job.val.itemIds.length + k) = .ok now

/-- An item is refused, and none before it is new. -/
def RefusedFirst : Prop := ∃ before itemId after, job.val.itemIds = before ++ itemId :: after ∧
  ¬Accepted runtime env job context s.world.store s.world.moment before itemId ∧
  ∀ other ∈ before, ¬Fresh job s.world.store other

/-- Every item is accepted, and where one is new the relay returns. -/
structure AllAccepted : Prop where
  accepted : ∀ before itemId after, job.val.itemIds = before ++ itemId :: after →
    Accepted runtime env job context s.world.store s.world.moment before itemId
  relayed : (∃ itemId ∈ job.val.itemIds, Fresh job s.world.store itemId) → RelayAnswers env job s

end Dispatch

section Runs

variable {runtime : PythonRuntime} {env : Environment} {scope : String} {job : BatchJob}
  {context : ExecutionContext} {s : Dispatching}

theorem nothingCreated_refl (jobId : String) (s : WorkRepository) : NothingCreated jobId s s := by
  refine ⟨fun key item _ h => ?_, fun eventId record _ h => ?_⟩
  · rw [h]
    exact Option.some_ne_none item
  · rw [h]
    exact Option.some_ne_none record

theorem nothingCreated_of_same {s s' : WorkRepository} (jobId : String) (h : SameEntries s s') :
    NothingCreated jobId s s' := by
  refine ⟨fun key item _ hitem => ?_, fun eventId record _ hrecord => ?_⟩
  · rw [← h.1, hitem]
    exact Option.some_ne_none item
  · intro hnone
    rw [(h.2 eventId).2 hnone] at hrecord
    cases hrecord

/-- The binding touches nothing of the bulk world, and raises where the controller refuses. -/
theorem bindBudget_exec : (Unbound scope context s ∧
      ∃ e s', (bindBudget context scope).exec s = (.error e, s') ∧ s'.world = s.world) ∨
    (¬Unbound scope context s ∧
      ∃ s', (bindBudget context scope).exec s = (.ok (), s') ∧ s'.world = s.world) := by
  unfold bindBudget Unbound
  simp only [exec_bind, exec_get]
  rcases s.controller with _ | controller
  · refine Or.inr ⟨?_, s, rfl, rfl⟩
    rintro ⟨controller, e, h, -⟩
    cases h
  simp only [exec_bind, exec_set, exec_liftExcept]
  rcases hbound : ((InMemoryBudgetController.bind context [scope]).exec controller).1 with
    e | binding
  · exact Or.inl ⟨⟨controller, e, rfl, hbound⟩, e, _, rfl, rfl⟩
  · refine Or.inr ⟨?_, _, rfl, rfl⟩
    rintro ⟨other, e, hother, h⟩
    cases hother
    rw [hbound] at h
    cases h

/-- What a dispatch does: the binding is refused, an item is refused with those before it taken,
or every item is taken and the relay runs. -/
inductive DispatchOutcome (runtime : PythonRuntime) (env : Environment) (scope : String)
    (job : BatchJob) (context : ExecutionContext) (s : Dispatching) :
    Except PyError BulkDispatchResult × Dispatching → Prop where
  | unbound (h : Unbound scope context s) (e : PyError) (s' : Dispatching)
      (same : s'.world.store = s.world.store) :
      DispatchOutcome runtime env scope job context s (.error e, s')
  | refused (bound : ¬Unbound scope context s) (before : List String) (itemId : String)
      (after : List String) (split : job.val.itemIds = before ++ itemId :: after)
      (hnot : ¬Accepted runtime env job context s.world.store s.world.moment before itemId)
      (e : PyError) (s' : Dispatching)
      (submitted : Submitted runtime env job context s.world.store s.world.moment before
        s'.world.store)
      (taken : ∀ first other last, before = first ++ other :: last →
        Accepted runtime env job context s.world.store s.world.moment first other) :
      DispatchOutcome runtime env scope job context s (.error e, s')
  | relayed (bound : ¬Unbound scope context s)
      (accepted : ∀ before itemId after, job.val.itemIds = before ++ itemId :: after →
        Accepted runtime env job context s.world.store s.world.moment before itemId)
      (t : WorkRepository)
      (submitted : Submitted runtime env job context s.world.store s.world.moment
        job.val.itemIds t)
      (reply : Except PyError BulkDispatchResult) (s' : Dispatching)
      (same : SameEntries t s'.world.store) (changes : Changes t s'.world.store)
      (returns : (∃ result, reply = .ok result) ↔ RelayAnswers env job s) :
      DispatchOutcome runtime env scope job context s (reply, s')

theorem dispatch_outcome (hs : s.world.store.Reached) :
    DispatchOutcome runtime env scope job context s
      ((dispatch runtime env job context scope).exec s) := by
  unfold dispatch
  rcases @bindBudget_exec scope context s with ⟨hunbound, e, s', hexec, hsame⟩ |
    ⟨hbound, s', hexec, hsame⟩
  · rw [exec_bind_of_error hexec]
    exact .unbound hunbound e s' (by rw [hsame])
  rw [exec_bind_of_ok hexec, exec_bind, onWorld, exec_zoom, hsame]
  rcases submitItems_run job.val.itemIds (@submitted_nil runtime env job context s.world.store
      s.world.moment) (Nat.add_zero _).symm with
    ⟨w, hrun, hsubmitted, hmoment, haccepted⟩ |
    ⟨e, w, before, itemId, after, hrun, hsplit, hnot, hsubmitted, htaken⟩
  swap
  · rw [hrun]
    exact .refused hbound before itemId after hsplit hnot e _ hsubmitted htaken
  rw [hrun]
  simp only
  have hinvariant := hsubmitted.changes.invariant hs.invariant
  have hreturns := relay_returns_iff env w.store.pendingOutbox w hinvariant.stored_pending
  have hsameEntries := relay_same env w.store.pendingOutbox w
  have hchanges := relay_changes env w.store.pendingOutbox w
  rw [exec_bind, onWorld, exec_zoom, BulkCoordinator.relayPending, exec_bind, exec_get]
  simp only
  unfold OnStores after at hsameEntries hchanges
  generalize (BulkCoordinator.relay env w.store.pendingOutbox).exec w = r at *
  have hanswers : (∃ count, r.1 = .ok count) ↔ RelayAnswers env job s := by
    rw [hreturns, hmoment, hsubmitted.pending]
    exact Iff.rfl
  obtain ⟨e | count, w'⟩ := r
  · refine .relayed hbound haccepted w.store hsubmitted _ _ hsameEntries hchanges ?_
    rw [← hanswers]
    exact iff_of_false (by rintro ⟨_, h⟩; cases h) (by rintro ⟨_, h⟩; cases h)
  · refine .relayed hbound haccepted w.store hsubmitted _ _ hsameEntries hchanges ?_
    rw [← hanswers]
    exact iff_of_true ⟨_, rfl⟩ ⟨_, rfl⟩

theorem not_nothingCreated {items : List String} {s s' t : WorkRepository} {moment : Nat}
    {itemId : String} (h : Submitted runtime env job context s moment items t)
    (hsame : SameEntries t s') (hmem : itemId ∈ items) (hfresh : Fresh job s itemId)
    {item : WorkItemRecord} (hprepared : prepared runtime env job context itemId = .ok item) :
    ¬NothingCreated job.val.jobId s s' := by
  intro hnothing
  have hitem := h.item itemId
  rw [if_pos ⟨hmem, hfresh⟩, hprepared, ← hsame.1] at hitem
  refine hnothing.items (keyOf job itemId) item rfl hitem ?_
  simpa [Fresh, Dict.contains] using hfresh

theorem accepted_prepared {items : List String} {s : WorkRepository} {moment : Nat}
    {itemId : String} (h : Accepted runtime env job context s moment items itemId) :
    ∃ item, prepared runtime env job context itemId = .ok item := by
  obtain ⟨item, outbox, ha, -⟩ := h
  exact ⟨item, (announced_issued ha).1⟩

theorem durable_of_submitted {s s' t : WorkRepository} {moment : Nat} (hs : s.StoreInvariant)
    (h : Submitted runtime env job context s moment job.val.itemIds t)
    (haccepted : ∀ before itemId after, job.val.itemIds = before ++ itemId :: after →
      Accepted runtime env job context s moment before itemId)
    (hsame : SameEntries t s') (hchanges : Changes t s') {itemId : String}
    (hmem : itemId ∈ job.val.itemIds) : Durable job s' itemId := by
  obtain ⟨before, after, hsplit⟩ := List.append_of_mem hmem
  obtain ⟨item, outbox, ha, hverdict⟩ := haccepted before itemId after hsplit
  obtain ⟨hprepared, -, -⟩ := announced_issued ha
  obtain ⟨-, hid, -, -⟩ := prepared_value hprepared
  obtain ⟨stored, hstored, hstoredId⟩ :
      ∃ stored, s'.items.get? (keyOf job itemId) = some stored ∧ stored.val.itemId = itemId := by
    rw [hsame.1, h.item]
    rcases hfound : s.items.get? (keyOf job itemId) with _ | existing
    · rw [if_pos ⟨hmem, by rw [Fresh, Dict.contains, hfound]; rfl⟩, hprepared]
      exact ⟨item, rfl, hid⟩
    · rw [hfound] at hverdict
      rw [if_neg (by rw [Fresh, Dict.contains, hfound]; exact fun h => by cases h.2)]
      exact ⟨existing, rfl, hverdict.1.trans hid⟩
  have hannounced := (hchanges.invariant (h.changes.invariant hs)).announced
  obtain ⟨eventId, ⟨record, hrecord, hannounces⟩, -⟩ :=
    hannounced.announced _ _ (work?_of_get? hstored)
  refine ⟨stored, hstored, hstoredId, eventId, record, hrecord, hannounces, ?_⟩
  cases record.val.status with
  | pending => exact Or.inl rfl
  | published => exact Or.inr rfl

end Runs

/-- From every store that was reached, a dispatch is all or nothing exactly when the budget
controller refuses the binding, or an item is refused before any new one, or every item is
accepted and the relay that follows returns. -/
theorem dispatch_all_or_nothing_iff (runtime : PythonRuntime) (env : Environment) (scope : String)
    (job : BatchJob) (context : ExecutionContext) (s : Dispatching)
    (hs : s.world.store.Reached) :
    AllOrNothing runtime env scope job context s ↔
      Unbound scope context s ∨ RefusedFirst runtime env job context s ∨
        AllAccepted runtime env job context s := by
  have hout := @dispatch_outcome runtime env scope job context s hs
  generalize hexec : (dispatch runtime env job context scope).exec s = r at hout
  have hraised {e : PyError} {s' : Dispatching} (hr : r = (.error e, s')) :
      AllOrNothing runtime env scope job context s ↔
        NothingCreated job.val.jobId s.world.store s'.world.store := by
    subst hr
    refine ⟨fun h => h.raised e s' hexec, fun h => ⟨fun e' t ht => ?_, fun result t ht => ?_⟩⟩
    · rw [hexec] at ht
      cases ht
      exact h
    · rw [hexec] at ht
      cases ht
  cases hout with
  | unbound h e s' same =>
    rw [hraised rfl, same]
    exact iff_of_true (nothingCreated_refl _ _) (Or.inl h)
  | refused bound before itemId after split hnot e s' submitted taken =>
    rw [hraised rfl]
    constructor
    · intro hnothing
      refine Or.inr (Or.inl ⟨before, itemId, after, split, hnot, fun other hother hfresh => ?_⟩)
      obtain ⟨front, back, rfl⟩ := List.append_of_mem hother
      obtain ⟨item, hitem⟩ := accepted_prepared (taken front other back rfl)
      exact not_nothingCreated submitted (refl_of SameEntries _) hother hfresh hitem hnothing
    · rintro (h | ⟨front, other, back, hsplit, hrefused, hold⟩ | h)
      · exact absurd h bound
      · -- the items that were taken are before the refused one, so none of them is new
        have hbefore : ∀ itemId ∈ before, ¬Fresh job s.world.store itemId := by
          rcases List.append_eq_append_iff.1 (split.symm.trans hsplit) with
            ⟨rest, rfl, -⟩ | ⟨rest, rfl, hrest⟩
          · exact fun itemId hmem => hold itemId (List.mem_append_left _ hmem)
          · cases rest with
            | nil =>
              rw [List.append_nil]
              exact hold
            | cons head rest =>
              obtain ⟨rfl, -⟩ := List.cons.inj hrest
              exact absurd (taken front other rest rfl) hrefused
        rw [submitted.still hbefore]
        exact nothingCreated_refl _ _
      · exact absurd (h.accepted before itemId after split) hnot
  | relayed bound accepted t submitted reply s' same changes returns =>
    constructor
    · intro h
      refine Or.inr (Or.inr ⟨accepted, ?_⟩)
      rintro ⟨itemId, hmem, hfresh⟩
      obtain ⟨before, after, hsplit⟩ := List.append_of_mem hmem
      obtain ⟨item, hitem⟩ := accepted_prepared (accepted before itemId after hsplit)
      rw [← returns]
      cases reply with
      | ok result => exact ⟨result, rfl⟩
      | error e =>
        exact absurd (h.raised e s' hexec)
          (not_nothingCreated submitted same hmem hfresh hitem)
    · rintro (h | ⟨before, itemId, after, hsplit, hnot, -⟩ | h)
      · exact absurd h bound
      · exact absurd (accepted before itemId after hsplit) hnot
      · refine ⟨fun e t ht => ?_, fun result t ht itemId hmem => ?_⟩
        · rw [hexec] at ht
          cases ht
          have hold : ∀ itemId ∈ job.val.itemIds, ¬Fresh job s.world.store itemId := by
            intro itemId hmem hfresh
            obtain ⟨result, hresult⟩ := returns.2 (h.relayed ⟨itemId, hmem, hfresh⟩)
            cases hresult
          rw [submitted.still hold] at same
          exact nothingCreated_of_same _ same
        · rw [hexec] at ht
          cases ht
          exact durable_of_submitted hs.invariant submitted accepted same changes hmem

namespace Sample

/-- The task of a job whose second item has a source row that canonical JSON does not represent. -/
def summaries : BulkTaskWork.Fields where
  function := "summarize"
  parameters := []
  sourceRows := [("item-2", .mapping [("score", .float (.nan 0))])]

theorem summaries_pass : BulkTaskWork.postInit summaries = .ok () := by decide +kernel

def twoItems : BatchJob.Fields where
  jobId := "bulk-job"
  itemIds := ["item-1", "item-2"]
  task := some ⟨summaries, summaries_pass⟩

theorem twoItems_pass : BatchJob.postInit twoItems = .ok () := by decide +kernel

def unencodable : BatchJob := ⟨twoItems, twoItems_pass⟩

/-- An empty store, and no budget controller. -/
def idle : Dispatching := ⟨.empty, none⟩

end Sample

/-- The row of the second item cannot be encoded, and the first item is in the store. -/
theorem unencodable_row_leaves_item :
    (((dispatch Sample.runtime (Sample.environment 5) Sample.unencodable Sample.context
      "prototype").exec Sample.idle).1.toOption).isNone = true ∧
    ¬AllOrNothing Sample.runtime (Sample.environment 5) "prototype" Sample.unencodable
      Sample.context Sample.idle := by
  have hraises : (((dispatch Sample.runtime (Sample.environment 5) Sample.unencodable
      Sample.context "prototype").exec Sample.idle).1.toOption).isNone = true := by
    decide +kernel
  have hleaves : (((dispatch Sample.runtime (Sample.environment 5) Sample.unencodable
      Sample.context "prototype").exec Sample.idle).2.world.store.items.contains
        ("bulk-job", "bulk-job:item-1")) = true := by
    decide +kernel
  refine ⟨hraises, fun h => ?_⟩
  rcases hexec : (dispatch Sample.runtime (Sample.environment 5) Sample.unencodable Sample.context
    "prototype").exec Sample.idle with ⟨e | result, s'⟩
  · rw [hexec] at hleaves
    obtain ⟨item, hitem⟩ := Option.isSome_iff_exists.1 hleaves
    exact (h.raised e s' hexec).items _ item rfl hitem rfl
  · rw [hexec] at hraises
    cases hraises

theorem dispatch_all_or_nothing_sample :
    AllOrNothing Sample.runtime (Sample.environment 5) "prototype" Sample.unencodable
        Sample.context Sample.idle ↔
      Unbound "prototype" Sample.context Sample.idle ∨
        RefusedFirst Sample.runtime (Sample.environment 5) Sample.unencodable Sample.context
          Sample.idle ∨
        AllAccepted Sample.runtime (Sample.environment 5) Sample.unencodable Sample.context
          Sample.idle :=
  dispatch_all_or_nothing_iff Sample.runtime (Sample.environment 5) "prototype" Sample.unencodable
    Sample.context Sample.idle (Machine.Reachable.refl _ _)

end AiRetrieval
