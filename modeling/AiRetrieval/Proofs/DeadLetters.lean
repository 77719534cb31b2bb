import AiRetrieval.Proofs.StaleClaims
import AiRetrieval.Sanity.JobListings

/-! The dead-letter queue beside the terminal records. Terminal record, entry and fault
record live in three stores; whatever the claims, the handlers and the faults of a run,
the entries are exactly those of the retry-exhausted records, up to recorded failures. -/

namespace AiRetrieval

open Program AiRetrieval.Action WorkRepository

section Entries

def deadLetterFields (r : TerminalWorkItemRecord) : DeadLetterEntry.Fields where
  jobId := r.val.jobId
  itemId := r.val.itemId
  idempotencyKey := r.val.idempotencyKey
  failureCode := BulkWorkExecutor.deadLetterCode r.val.failureCode
  failureDetails := r.val.failureDetails
  attemptCount := r.val.attemptCount
  configuration := r.val.configuration
  resultReference := r.val.resultReference
  persistedAt := r.val.recordedAt

theorem blank_retry_exhausted : blank "retry_exhausted" = false := by decide +kernel

theorem deadLetterCode_text {code : Option String} (h : missingCode code = false ∨ code = none) :
    blank (BulkWorkExecutor.deadLetterCode code) = false := by
  cases code with
  | none => exact blank_retry_exhausted
  | some value =>
    unfold BulkWorkExecutor.deadLetterCode
    dsimp only
    split
    · exact blank_retry_exhausted
    · simpa [missingCode] using h

theorem deadLetter_passes (r : TerminalWorkItemRecord) :
    DeadLetterEntry.postInit (deadLetterFields r) = .ok () := by
  have h := r.passed
  simp only [TerminalWorkItemRecord.postInit, except_seq_eq_ok, requireTexts_eq_ok, require_eq_ok,
    List.forall_mem_cons] at h
  obtain ⟨⟨hjob, hitem, hkey, -⟩, hattempt, haware, hsucceeded, hfailed⟩ := h
  have hcode : missingCode r.val.failureCode = false ∨ r.val.failureCode = none := by
    by_cases hs : r.val.state = .succeeded
    · right
      by_contra hne
      exact hsucceeded ⟨hs, Or.inl hne⟩
    · left
      by_contra hne
      exact hfailed ⟨hs, by simpa using hne⟩
  simp only [DeadLetterEntry.postInit, except_seq_eq_ok, requireTexts_eq_ok, require_eq_ok,
    List.forall_mem_cons]
  exact ⟨⟨hjob, hitem, hkey, deadLetterCode_text hcode, by simp⟩, hattempt, haware⟩

def deadLetterOf (r : TerminalWorkItemRecord) : DeadLetterEntry :=
  ⟨deadLetterFields r, deadLetter_passes r⟩

/-- The entry is the record's own: it copies its failure, its attempt count, its
configuration and its result reference. -/
structure Copies (r : TerminalWorkItemRecord) (entry : DeadLetterEntry) : Prop where
  key : (entry.val.jobId, entry.val.idempotencyKey) = terminalKey r
  itemId : entry.val.itemId = r.val.itemId
  failureCode : r.val.failureCode = some entry.val.failureCode
  failureDetails : entry.val.failureDetails = r.val.failureDetails
  attemptCount : entry.val.attemptCount = r.val.attemptCount
  configuration : entry.val.configuration = r.val.configuration
  resultReference : entry.val.resultReference = r.val.resultReference
  persistedAt : entry.val.persistedAt = r.val.recordedAt

theorem blank_empty : blank "" = true := by decide +kernel

theorem deadLetterOf_copies {r : TerminalWorkItemRecord} (hs : r.val.state = .retryExhausted) :
    Copies r (deadLetterOf r) := by
  refine ⟨rfl, rfl, ?_, rfl, rfl, rfl, rfl, rfl⟩
  have h := r.passed
  simp only [TerminalWorkItemRecord.postInit, except_seq_eq_ok, require_eq_ok, hs] at h
  have hcode : missingCode r.val.failureCode = false := by simpa using h.2.2.2.2
  rcases hf : r.val.failureCode with _ | code
  · simp [missingCode, hf] at hcode
  · have hne : code ≠ "" := by
      rintro rfl
      simp [missingCode, hf, blank_empty] at hcode
    simp [deadLetterOf, deadLetterFields, hf, BulkWorkExecutor.deadLetterCode, hne]

def entryKey (entry : DeadLetterEntry) : Key := (entry.val.jobId, entry.val.idempotencyKey)

@[simp] theorem entryKey_deadLetterOf (r : TerminalWorkItemRecord) :
    entryKey (deadLetterOf r) = terminalKey r := rfl

def FaultRecorded (s : WorkRepository) (r : TerminalWorkItemRecord) : Prop :=
  ∃ outcome ∈ s.persistenceFailures, outcome.val.jobId = r.val.jobId ∧
    outcome.val.itemId = r.val.itemId ∧ outcome.val.operation = "dead_letter_persist"

/-- The record's copy is in the queue, or the fault that kept it out is recorded. -/
def Accounted (w : World) (r : TerminalWorkItemRecord) : Prop :=
  w.deadLetters.get? (terminalKey r) = some (deadLetterOf r) ∨ FaultRecorded w.store r

end Entries

section Persisting

variable {env : Environment} {w : World}

theorem reason_text (error : PyError) (h : blank error.typeName = false) :
    blank (error.typeName ++ ": " ++ error.text) = false :=
  blank_append_left _ (blank_append_left _ h)

/-- What `_persist_dead_letter` does to the world: the copy is in the queue already, or is
put there, or the fault is recorded. -/
inductive Deposit (w : World) (r : TerminalWorkItemRecord) : World → Prop where
  | kept (found : w.deadLetters.get? (terminalKey r) = some (deadLetterOf r)) : Deposit w r w
  | added (fresh : w.deadLetters.get? (terminalKey r) = none) :
      Deposit w r { w with deadLetters := w.deadLetters.insert (terminalKey r) (deadLetterOf r) }
  | failed (outcome : PersistenceFailureOutcome) (jobId : outcome.val.jobId = r.val.jobId)
      (itemId : outcome.val.itemId = r.val.itemId)
      (operation : outcome.val.operation = "dead_letter_persist") :
      Deposit w r { w with
        store := (recordPersistenceFailure outcome).after w.store
        moment := w.moment + 1 }

theorem persist_exec (faults : List String) (entry : DeadLetterEntry) (d : DeadLetterQueue) :
    (∃ message cls, (DeadLetterQueue.persist faults entry).exec d =
      (.error (.raised cls message), d) ∧
      blank cls.name = false) ∨
    (DeadLetterQueue.persist faults entry).exec d = (.ok entry, d) ∧
      d.get? (entryKey entry) = some entry ∨
    (DeadLetterQueue.persist faults entry).exec d = (.ok entry, d.insert (entryKey entry) entry) ∧
      d.get? (entryKey entry) = none := by
  unfold DeadLetterQueue.persist
  by_cases hfault : entry.val.itemId ∈ faults
  · rw [if_pos hfault]
    exact Or.inl ⟨_, _, rfl, by decide +kernel⟩
  · rw [if_neg hfault, exec_bind, exec_get]
    simp only
    rcases hfound : d.get? (entry.val.jobId, entry.val.idempotencyKey) with _ | existing
    · exact Or.inr (Or.inr ⟨rfl, hfound⟩)
    · simp only
      by_cases hsame : existing = entry
      · rw [if_neg (not_not.2 hsame), hsame]
        exact Or.inr (Or.inl ⟨rfl, hsame ▸ hfound⟩)
      · rw [if_pos hsame]
        exact Or.inl ⟨_, _, rfl, by decide +kernel⟩

/-- Whatever the queue does, the dead-letter step returns. -/
theorem persistDeadLetter_deposit (clock : ∀ n, ∃ now, env.clock n = .ok now)
    (r : TerminalWorkItemRecord) (w : World) :
    ∃ w', (BulkWorkExecutor.persistDeadLetter env r).exec w = (.ok (), w') ∧ Deposit w r w' := by
  have hmake := Checked.make_of_passed (deadLetter_passes r)
  unfold deadLetterFields at hmake
  unfold BulkWorkExecutor.persistDeadLetter
  rw [exec_bind, exec_liftExcept, hmake]
  simp only
  rw [handling, exec_tryCatch, exec_bind, exec_onDeadLetters]
  rcases persist_exec env.failItemIds (deadLetterOf r) w.deadLetters with
    ⟨message, cls, hraise, hcls⟩ | ⟨hkept, hfound⟩ | ⟨hadded, hfresh⟩
  · unfold deadLetterOf deadLetterFields at hraise
    obtain ⟨now, hnow⟩ := clock w.moment
    obtain ⟨hjob, hitem⟩ := TerminalWorkItemRecord.texts r
    have hpass : PersistenceFailureOutcome.postInit {
        jobId := r.val.jobId
        itemId := r.val.itemId
        operation := "dead_letter_persist"
        reason := (PyError.raised cls message).typeName ++ ": " ++ (PyError.raised cls message).text
        recordedAt := now } = .ok () := by
      rw [PersistenceFailureOutcome.postInit, requireTexts_eq_ok]
      simp only [List.forall_mem_cons]
      exact ⟨hjob, hitem, by decide +kernel, reason_text _ hcls, by simp⟩
    simp only [hraise, BulkWorkExecutor.caught, Option.getD_some, exec_bind, exec_ask, hnow,
      exec_liftExcept, Checked.make_of_passed hpass, exec_onStore]
    exact ⟨_, rfl, .failed ⟨_, hpass⟩ rfl rfl rfl⟩
  · unfold deadLetterOf deadLetterFields at hkept
    simp only [hkept, exec_pure]
    exact ⟨w, rfl, .kept hfound⟩
  · unfold deadLetterOf deadLetterFields at hadded
    simp only [hadded, exec_pure]
    exact ⟨_, rfl, .added hfresh⟩

end Persisting

section Correspondence

/-- Every entry copies a retry-exhausted record, and every such record whose dead-letter step
is not pending is accounted for. -/
structure Corresponds (pending : Option Key) (w : World) : Prop where
  store : w.store.StoreInvariant
  copies : ∀ key entry, w.deadLetters.get? key = some entry → ∃ r,
    w.store.terminal.get? key = some r ∧ r.val.state = .retryExhausted ∧ entry = deadLetterOf r
  accounted : ∀ key r, w.store.terminal.get? key = some r → r.val.state = .retryExhausted →
    pending = some key ∨ Accounted w r

structure KeepsRecords (w w' : World) : Prop where
  changes : Changes w.store w'.store
  terminal : w'.store.terminal = w.store.terminal
  failures : w'.store.persistenceFailures = w.store.persistenceFailures
  deadLetters : w'.deadLetters = w.deadLetters

instance : IsPreorder World KeepsRecords where
  refl w := ⟨refl_of Changes w.store, rfl, rfl, rfl⟩
  trans _ _ _ h h' := ⟨trans_of Changes h.changes h'.changes, h'.terminal.trans h.terminal,
    h'.failures.trans h.failures, h'.deadLetters.trans h.deadLetters⟩

theorem Quiet.spares {w w' : World} (h : Quiet w w') : KeepsRecords w w' := by
  rw [h]
  exact ⟨refl_of Changes w.store, rfl, rfl, rfl⟩

variable {w w' : World} {pending : Option Key} {r : TerminalWorkItemRecord}

theorem Accounted.spares (ha : Accounted w r) (h : KeepsRecords w w') : Accounted w' r := by
  unfold Accounted FaultRecorded at *
  rwa [h.deadLetters, h.failures]

theorem Corresponds.spares (hw : Corresponds pending w) (h : KeepsRecords w w') :
    Corresponds pending w' where
  store := h.changes.invariant hw.store
  copies := by rw [h.deadLetters, h.terminal]; exact hw.copies
  accounted := by
    rw [h.terminal]
    exact fun key r hr hs => (hw.accounted key r hr hs).imp_right (·.spares h)

theorem Corresponds.empty : Corresponds none World.empty where
  store := empty_invariant
  copies _ _ h := by cases h
  accounted _ _ h := by cases h

theorem putTerminal_found (s : WorkRepository) (key : Key) (completed : WorkItemRecord)
    (r : TerminalWorkItemRecord) : (s.putTerminal key completed r).terminal.get? key = some r :=
  Dict.get?_insert_self ..

/-- The write of `execute_claim` leaves at most its own record's dead-letter step pending. -/
theorem Corresponds.settled (hw : Corresponds none w) {key : Key} {owner : String}
    {state : TerminalWorkItemState} {code details : Option String} {now : DateTime}
    {ref : Option ObjectReference} {current completed : WorkItemRecord}
    (h : Terminalizes w.store key owner state code details now ref current completed r) :
    Corresponds (some key) { w with store := w.store.putTerminal key completed r } where
  store := (Change.settled h).invariant hw.store
  copies k entry hentry := by
    obtain ⟨r', hr', hs, rfl⟩ := hw.copies k entry hentry
    exact ⟨r', (Change.settled h).terminal_extends _ _ hr', hs, rfl⟩
  accounted k r' hr' hs := by
    by_cases hk : k = key
    · exact Or.inl (hk ▸ rfl)
    · right
      rw [putTerminal, Dict.get?_insert_of_ne _ _ hk] at hr'
      exact (hw.accounted k r' hr' hs).resolve_left (by simp)

theorem FaultRecorded.mono {s : WorkRepository} (outcome : PersistenceFailureOutcome)
    (h : FaultRecorded s r) : FaultRecorded ((recordPersistenceFailure outcome).after s) r := by
  obtain ⟨o, ho, hnames⟩ := h
  refine ⟨o, ?_, hnames⟩
  unfold recordPersistenceFailure after
  rw [exec_modify]
  dsimp only
  split
  · exact ho
  · exact List.mem_append_left _ ho

theorem recorded_mem (s : WorkRepository) (outcome : PersistenceFailureOutcome) :
    outcome ∈ ((recordPersistenceFailure outcome).after s).persistenceFailures := by
  unfold recordPersistenceFailure after
  rw [exec_modify]
  dsimp only
  split
  · assumption
  · exact List.mem_append_right _ (List.mem_singleton_self _)

theorem Deposit.accounted (h : Deposit w r w') : Accounted w' r := by
  cases h with
  | kept found => exact Or.inl found
  | added fresh => exact Or.inl (Dict.get?_insert_self ..)
  | failed outcome jobId itemId operation =>
    exact Or.inr ⟨outcome, recorded_mem .., jobId, itemId, operation⟩

theorem Accounted.deposit {r' : TerminalWorkItemRecord} (ha : Accounted w r')
    (h : Deposit w r w') : Accounted w' r' := by
  cases h with
  | kept found => exact ha
  | added fresh =>
    refine ha.imp_left fun hentry => ?_
    rw [Dict.get?_insert_of_ne _ _ ?_]
    · exact hentry
    · intro hkey
      rw [hkey, fresh] at hentry
      cases hentry
  | failed outcome jobId itemId operation =>
    exact ha.imp_right (FaultRecorded.mono outcome)

theorem Corresponds.deposited (hw : Corresponds (some (terminalKey r)) w)
    (hr : w.store.terminal.get? (terminalKey r) = some r) (hs : r.val.state = .retryExhausted)
    (h : Deposit w r w') : Corresponds none w' := by
  have hall : ∀ key r', w.store.terminal.get? key = some r' → r'.val.state = .retryExhausted →
      Accounted w' r' := by
    intro key r' hr' hs'
    rcases hw.accounted key r' hr' hs' with hkey | ha
    · obtain rfl : terminalKey r = key := Option.some.inj hkey
      obtain rfl : r = r' := Option.some.inj (hr.symm.trans hr')
      exact h.accounted
    · exact ha.deposit h
  cases h with
  | kept found => exact ⟨hw.store, hw.copies, fun k r' h1 h2 => Or.inr (hall k r' h1 h2)⟩
  | added fresh =>
    refine ⟨hw.store, fun k entry hentry => ?_, fun k r' h1 h2 => Or.inr (hall k r' h1 h2)⟩
    by_cases hk : k = terminalKey r
    · subst hk
      rw [Dict.get?_insert_self, Option.some.injEq] at hentry
      exact ⟨r, hr, hs, hentry.symm⟩
    · rw [Dict.get?_insert_of_ne _ _ hk] at hentry
      exact hw.copies k entry hentry
  | failed outcome jobId itemId operation =>
    have hsame := recordPersistenceFailure_same outcome w.store
    have hterminal : ((recordPersistenceFailure outcome).after w.store).terminal =
        w.store.terminal := by rw [hsame]
    refine ⟨recordPersistenceFailure_change outcome |>.invariant hw.store, ?_, ?_⟩
    · intro k entry hentry
      rw [hterminal]
      exact hw.copies k entry hentry
    · intro k r' h1 h2
      rw [hterminal] at h1
      exact Or.inr (hall k r' h1 h2)

def entriesFor (w : World) (r : TerminalWorkItemRecord) : List DeadLetterEntry :=
  (w.deadLetters.entriesOf r.val.jobId).filter fun entry => entry.val.itemId = r.val.itemId

theorem Corresponds.entry_keyed (hw : Corresponds pending w) (key : Key) (entry : DeadLetterEntry)
    (h : w.deadLetters.get? key = some entry) : entryKey entry = key := by
  obtain ⟨r, hr, -, rfl⟩ := hw.copies key entry h
  exact hw.store.terminal_keyed key r hr

theorem Corresponds.mem_entriesOf (hw : Corresponds pending w) {jobId : String}
    {entry : DeadLetterEntry} : entry ∈ w.deadLetters.entriesOf jobId ↔
      w.deadLetters.get? (entryKey entry) = some entry ∧ entry.val.jobId = jobId :=
  mem_listing hw.entry_keyed

theorem Corresponds.mem_entriesFor (hw : Corresponds pending w)
    (hr : w.store.terminal.get? (terminalKey r) = some r) {entry : DeadLetterEntry} :
    entry ∈ entriesFor w r ↔ w.deadLetters.get? (terminalKey r) = some entry := by
  unfold entriesFor
  rw [List.mem_filter, hw.mem_entriesOf, decide_eq_true_eq]
  obtain ⟨work, hwork, hof⟩ := hw.store.recorded.terminal _ r hr
  constructor
  · rintro ⟨⟨hentry, hjob⟩, hitem⟩
    obtain ⟨r', hr', -, rfl⟩ := hw.copies _ entry hentry
    obtain ⟨work', hwork', hof'⟩ := hw.store.recorded.terminal _ r' hr'
    have hfind := hw.store.itemId_finds hwork
    have hfind' := hw.store.itemId_finds hwork'
    rw [← hof.itemId] at hfind
    rw [← hof'.itemId] at hfind'
    change w.store.itemIds.get? (r'.val.jobId, r'.val.itemId) = _ at hfind'
    rw [show r'.val.jobId = r.val.jobId from hjob, show r'.val.itemId = r.val.itemId from hitem]
      at hfind'
    have hkey : terminalKey r = terminalKey r' :=
      Prod.ext hjob.symm (Option.some.inj (hfind.symm.trans hfind'))
    rw [hkey]
    exact hentry
  · intro hentry
    have hkey := hw.entry_keyed _ entry hentry
    obtain ⟨r', hr', -, rfl⟩ := hw.copies _ entry hentry
    obtain rfl : r = r' := Option.some.inj (hr.symm.trans hr')
    exact ⟨⟨hentry, rfl⟩, rfl⟩

theorem Corresponds.entriesFor_nodup (hw : Corresponds pending w) : (entriesFor w r).Nodup := by
  refine List.Nodup.filter _ (List.Nodup.of_map entryKey ?_)
  exact (listing_keys hw.entry_keyed).nodup_iff.2 (w.deadLetters.nodup.filter _)

theorem Corresponds.entriesFor_cases (hw : Corresponds pending w)
    (hr : w.store.terminal.get? (terminalKey r) = some r) (ha : Accounted w r) :
    entriesFor w r = [deadLetterOf r] ∨ entriesFor w r = [] ∧ FaultRecorded w.store r := by
  by_cases hentry : w.deadLetters.get? (terminalKey r) = some (deadLetterOf r)
  · left
    apply List.perm_singleton.1
    rw [List.perm_ext_iff_of_nodup hw.entriesFor_nodup (List.nodup_singleton _)]
    intro entry
    rw [hw.mem_entriesFor hr, hentry, Option.some.injEq, List.mem_singleton, eq_comm]
  · refine Or.inr ⟨List.eq_nil_iff_forall_not_mem.2 fun entry hmem => hentry ?_,
      ha.resolve_left hentry⟩
    rw [hw.mem_entriesFor hr] at hmem
    obtain ⟨r', hr', -, rfl⟩ := hw.copies _ entry hmem
    obtain rfl : r = r' := Option.some.inj (hr.symm.trans hr')
    exact hmem

end Correspondence

section Execution

variable {env : Environment} {w : World} {pending : Option Key} {r : TerminalWorkItemRecord}

theorem Corresponds.weaken (hw : Corresponds none w) (key : Key) : Corresponds (some key) w :=
  ⟨hw.store, hw.copies, fun k r h hs => Or.inr ((hw.accounted k r h hs).resolve_left (by simp))⟩

theorem Corresponds.unowed (hw : Corresponds (some (terminalKey r)) w)
    (hr : w.store.terminal.get? (terminalKey r) = some r) (hs : r.val.state ≠ .retryExhausted) :
    Corresponds none w := by
  refine ⟨hw.store, hw.copies, fun k r' h h' => Or.inr ?_⟩
  rcases hw.accounted k r' h h' with hkey | ha
  · obtain rfl : terminalKey r = k := Option.some.inj hkey
    obtain rfl : r = r' := Option.some.inj (hr.symm.trans h)
    exact absurd h' hs
  · exact ha

theorem Corresponds.bind_spares {α β : Type} {x : Action α} {f : α → Action β}
    (hw : Corresponds none w) (hx : Moves KeepsRecords x)
    (hf : ∀ a t, Corresponds none t → Corresponds none ((f a).after t)) :
    Corresponds none ((x >>= f).after w) := by
  have hmove := hx w
  unfold after at hmove
  apply after_bind_of
  · intro e t ht
    rw [ht] at hmove
    exact hw.spares hmove
  · intro a t ht
    rw [ht] at hmove
    exact hf a t (hw.spares hmove)

theorem Corresponds.still {α : Type} {x : Action α} (hw : Corresponds none w)
    (hx : Moves KeepsRecords x) : Corresponds none (x.after w) := hw.spares (hx w)

theorem quiet_spares {α : Type} {x : Action α} (h : Moves Quiet x) : Moves KeepsRecords x :=
  moves_mono h fun _ _ => Quiet.spares

theorem deadLetterExhausted_corresponds (clock : ∀ n, ∃ now, env.clock n = .ok now)
    (hw : Corresponds (some (terminalKey r)) w)
    (hr : w.store.terminal.get? (terminalKey r) = some r) :
    ∃ w', (BulkWorkExecutor.deadLetterExhausted env r).exec w = (.ok (), w') ∧
      Corresponds none w' := by
  unfold BulkWorkExecutor.deadLetterExhausted
  by_cases hs : r.val.state = .retryExhausted
  · rw [if_pos hs]
    obtain ⟨w', hexec, hdeposit⟩ := persistDeadLetter_deposit clock r w
    exact ⟨w', hexec, hw.deposited hr hs hdeposit⟩
  · rw [if_neg hs]
    exact ⟨w, rfl, hw.unowed hr hs⟩

theorem afterTerminal_corresponds (clock : ∀ n, ∃ now, env.clock n = .ok now) (claim : WorkClaim)
    (result : WorkItemExecutionResult) (hw : Corresponds (some (terminalKey r)) w)
    (hr : w.store.terminal.get? (terminalKey r) = some r) :
    Corresponds none ((BulkWorkExecutor.afterTerminal env claim result r).after w) := by
  have hrest : ∀ t : World, Corresponds (some (terminalKey r)) t →
      t.store.terminal.get? (terminalKey r) = some r →
      Corresponds none (Program.after (do
        BulkWorkExecutor.deadLetterExhausted env r
        BulkWorkExecutor.emitState env claim.item.val.jobId
        return r) t) := by
    intro t ht hrt
    obtain ⟨w', hexec, hw'⟩ := deadLetterExhausted_corresponds clock ht hrt
    unfold after
    rw [exec_bind_of_ok hexec]
    exact hw'.bind_spares (quiet_spares (emitState_quiet env _)) fun _ _ h => h
  unfold BulkWorkExecutor.afterTerminal
  apply after_bind_of
  · intro e t ht
    cases ht
  · intro _ t ht
    cases ht
    exact hrest _ ⟨hw.store, hw.copies, hw.accounted⟩ hr

/-- The write and what follows it. -/
theorem settle_corresponds (clock : ∀ n, ∃ now, env.clock n = .ok now) (claim : WorkClaim)
    (owner : String) (now : DateTime) (result : WorkItemExecutionResult)
    (hw : Corresponds none w) :
    Corresponds none ((BulkWorkExecutor.terminalizeResult env claim owner now result >>=
      BulkWorkExecutor.afterTerminal env claim result).after w) := by
  unfold BulkWorkExecutor.terminalizeResult
  rw [bind_assoc]
  refine hw.bind_spares (quiet_spares (putResult?_quiet _ _)) fun ref t ht => ?_
  have hout := terminalize_outcome t.store claim.item.val.jobId claim.item.val.idempotencyKey owner
    result.val.state result.val.failureCode result.val.failureDetails now ref
  apply after_bind_of
  · intro e u hu
    rw [exec_onStore] at hu
    generalize (terminalize _ _ _ _ _ _ _ _).exec t.store = end' at hout hu
    cases hout with
    | raised e => cases hu; exact ht
    | repeated existing found same => cases hu
    | settled current completed record h => cases hu
  · intro r u hu
    rw [exec_onStore] at hu
    generalize (terminalize _ _ _ _ _ _ _ _).exec t.store = end' at hout hu
    cases hout with
    | raised e => cases hu
    | repeated existing found same =>
      cases hu
      have hkey := ht.store.terminal_keyed _ _ found
      exact afterTerminal_corresponds clock claim result (ht.weaken _) (hkey ▸ found)
    | settled current completed record h =>
      cases hu
      have hset := ht.settled h
      have hfound := putTerminal_found t.store (claim.item.val.jobId, claim.item.val.idempotencyKey)
        completed r
      have hkey := hset.store.terminal_keyed _ _ hfound
      apply afterTerminal_corresponds clock claim result
      · rw [hkey]
        exact hset
      · rw [hkey]
        exact hfound

theorem executeClaim_corresponds (clock : ∀ n, ∃ now, env.clock n = .ok now) (claim : WorkClaim)
    (handler : BulkWorkExecutor.Handler) (spares : ∀ item, Moves KeepsRecords (handler item))
    (hw : Corresponds none w) :
    Corresponds none ((BulkWorkExecutor.executeClaim env claim handler).after w) := by
  unfold BulkWorkExecutor.executeClaim
  refine hw.bind_spares (moves_lift _) fun owner t ht => ?_
  refine ht.bind_spares (quiet_spares (ask_quiet _)) fun now t ht => ?_
  refine ht.bind_spares ?_ fun result t ht => settle_corresponds clock claim owner now result ht
  exact moves_handling (spares _) fun error y hy => caught_moves (moves_lift _) hy

end Execution

section Runs

def StoreCall.ofExecutor : StoreCall → Bool
  | .terminalize .. => true
  | .recordPersistenceFailure _ => true
  | _ => false

theorem call_keeps_terminal {call : StoreCall} (h : call.ofExecutor = false)
    (s : WorkRepository) : (storeMachine call s).2.terminal = s.terminal ∧
      (storeMachine call s).2.persistenceFailures = s.persistenceFailures := by
  cases call <;> simp only [storeMachine, StoreCall.program, exec_map]
  case terminalize => cases h
  case recordPersistenceFailure => cases h
  case create submission context ref identifier =>
    generalize hr : (issue submission context ref identifier).exec s = r
    cases hr ▸ issue_outcome s submission context ref identifier <;> exact ⟨rfl, rfl⟩
  case claim k owner now d =>
    generalize hr : (claim k.1 k.2 owner now d).exec s = r
    cases hr ▸ claim_outcome s k.1 k.2 owner now d <;> exact ⟨rfl, rfl⟩
  case renew k owner now d =>
    generalize hr : (renew k.1 k.2 owner now d).exec s = r
    cases hr ▸ renew_outcome s k.1 k.2 owner now d <;> exact ⟨rfl, rfl⟩
  case checkpoint k owner stage outcome now ref =>
    generalize hr : (checkpoint k.1 k.2 owner stage outcome now ref).exec s = r
    cases hr ▸ checkpoint_outcome s k.1 k.2 owner stage outcome now ref <;> exact ⟨rfl, rfl⟩
  case markPublished eventId publishedAt =>
    generalize hr : (markPublished eventId publishedAt).exec s = r
    cases hr ▸ markPublished_outcome s eventId publishedAt <;> exact ⟨rfl, rfl⟩
  case saveEffect record =>
    generalize hr : (saveEffect record).exec s = r
    cases hr ▸ saveEffect_outcome s record <;> exact ⟨rfl, rfl⟩
  case saveReconciliation record =>
    generalize hr : (saveReconciliation record).exec s = r
    cases hr ▸ saveReconciliation_outcome s record <;> exact ⟨rfl, rfl⟩

theorem call_spares {call : StoreCall} (h : call.ofExecutor = false) :
    Moves KeepsRecords (onStore call.program) := by
  intro w
  obtain ⟨hterminal, hfailures⟩ := call_keeps_terminal h w.store
  exact ⟨(call_change call w.store).changes, hterminal, hfailures, rfl⟩

/-- A handler of the application: it returns any result or raises anything, and leaves
terminal records and dead letters to the executor. -/
structure ItemHandler where
  run : BulkWorkExecutor.Handler
  spares : ∀ item, Moves KeepsRecords (run item)

/-- The executor's calls, each under the dead-letter faults of that moment, between any other
calls of the repository. -/
inductive ExecutorCall where
  | execute (claim : WorkClaim) (handler : ItemHandler) (faults : List String)
  | work (call : StoreCall) (other : call.ofExecutor = false)

inductive ExecutorReply where
  | terminal (record : TerminalWorkItemRecord)
  | work (reply : StoreReply)

def ExecutorCall.action (env : Environment) : ExecutorCall → Action ExecutorReply
  | .execute claim handler faults =>
    .terminal <$> BulkWorkExecutor.executeClaim { env with failItemIds := faults } claim handler.run
  | .work call _ => .work <$> onStore call.program

def executorMachine (env : Environment) :
    Machine ExecutorCall (Except PyError ExecutorReply) World :=
  fun call w => (call.action env).exec w

variable {env : Environment}

theorem call_corresponds (clock : ∀ n, ∃ now, env.clock n = .ok now) (call : ExecutorCall)
    (w : World) (hw : Corresponds none w) : Corresponds none (executorMachine env call w).2 := by
  unfold executorMachine
  cases call with
  | execute claim handler faults =>
    rw [ExecutorCall.action, exec_map]
    have hclock : ∀ n, ∃ now, { env with failItemIds := faults }.clock n = .ok now := clock
    exact executeClaim_corresponds hclock claim handler.run handler.spares hw
  | work call other =>
    rw [ExecutorCall.action, exec_map]
    exact hw.still (call_spares other)

theorem run_corresponds (clock : ∀ n, ∃ now, env.clock n = .ok now) (calls : List ExecutorCall) :
    Corresponds none ((executorMachine env).run .empty calls) :=
  Machine.run_invariant (call_corresponds clock) .empty calls

/-- What follows the write leaves the terminal records as the write left them. -/
theorem settle_terminal (faults : List String) (claim : WorkClaim) (owner : String)
    (now : DateTime) (result : WorkItemExecutionResult) (w : World) :
    ((BulkWorkExecutor.terminalizeResult env claim owner now result >>=
      BulkWorkExecutor.afterTerminal { env with failItemIds := faults } claim result).after
        w).store.terminal =
      ((BulkWorkExecutor.terminalizeResult env claim owner now result).after w).store.terminal := by
  unfold after
  rcases hx : (BulkWorkExecutor.terminalizeResult env claim owner now result).exec w with ⟨e | r, t⟩
  · rw [exec_bind_of_error hx]
  · rw [exec_bind_of_ok hx]
    have hsame := afterTerminal_same { env with failItemIds := faults } claim result r t
    unfold OnStores SameRecords at hsame
    change (Program.after _ t).store.terminal = t.store.terminal
    rw [hsame]

/-- The faults of the queue have no part in the terminal records a call leaves. -/
theorem faults_keep_terminal (claim : WorkClaim) (handler : ItemHandler) (faults : List String)
    (w : World) : (executorMachine env (.execute claim handler faults) w).2.store.terminal =
      (executorMachine env (.execute claim handler []) w).2.store.terminal := by
  unfold executorMachine
  rw [ExecutorCall.action, ExecutorCall.action, exec_map, exec_map]
  let terminalAfter := fun w : World => w.store.terminal
  change terminalAfter (Program.after _ w) = terminalAfter (Program.after _ w)
  unfold BulkWorkExecutor.executeClaim
  refine after_bind_congr terminalAfter (fun owner t => ?_) w
  refine after_bind_congr terminalAfter (fun now t => ?_) t
  refine after_bind_congr terminalAfter (fun result t => ?_) t
  exact (settle_terminal faults claim owner now result t).trans
    (settle_terminal [] claim owner now result t).symm

theorem grows_moves : AfterTerminalMoves (OnStores Grows) where
  quiet _ _ h := h.onStores
  deadLetters w _ := refl_of Grows w.store
  usage w _ := refl_of Grows w.store
  failure outcome := onStore_moves fun _ => (recordPersistenceFailure_change outcome).grows

/-- No call takes a terminal record away or changes it. -/
theorem call_grows (call : ExecutorCall) (w : World) :
    Grows w.store (executorMachine env call w).2.store := by
  unfold executorMachine
  cases call with
  | execute claim handler faults =>
    rw [ExecutorCall.action, exec_map]
    refine executeClaim_moves grows_moves ?_ claim (fun item w => ?_) w
    · exact fun _ _ _ _ _ _ _ _ => onStore_moves fun _ => (terminalize_outcome ..).change.grows
    · exact (handler.spares item w).changes.grows
  | work call other =>
    rw [ExecutorCall.action, exec_map]
    exact (call_change call w.store).grows

/-- After every run of the executor, whatever its calls, handlers and dead-letter faults:
a retry-exhausted record of the job has the one entry that copies it or no entry and a
recorded fault; every entry of the job copies a retry-exhausted record of the job; and a
further call leaves the terminal records as it would without faults, none taken away. -/
theorem dead_letters_exact (env : Environment) (clock : ∀ n, ∃ now, env.clock n = .ok now)
    (calls : List ExecutorCall) (jobId : String) :
    (∀ r ∈ ((executorMachine env).run .empty calls).store.terminalItems jobId,
      r.val.state = .retryExhausted →
        (∃ entry, entriesFor ((executorMachine env).run .empty calls) r = [entry] ∧
          Copies r entry) ∨
        entriesFor ((executorMachine env).run .empty calls) r = [] ∧
          FaultRecorded ((executorMachine env).run .empty calls).store r) ∧
    (∀ entry ∈ ((executorMachine env).run .empty calls).deadLetters.entriesOf jobId,
      ∃ r ∈ ((executorMachine env).run .empty calls).store.terminalItems jobId,
        r.val.state = .retryExhausted ∧ Copies r entry) ∧
    ∀ claim handler faults,
      ((executorMachine env).run .empty (calls ++ [.execute claim handler faults])).store.terminal =
        ((executorMachine env).run .empty (calls ++ [.execute claim handler []])).store.terminal ∧
      ((executorMachine env).run .empty calls).store.terminal.Extends
        ((executorMachine env).run .empty
          (calls ++ [.execute claim handler faults])).store.terminal := by
  have hw := run_corresponds clock calls
  generalize hrun : (executorMachine env).run .empty calls = w at hw
  refine ⟨fun r hr hs => ?_, fun entry hentry => ?_, fun claim handler faults => ?_⟩
  · obtain ⟨hfound, -⟩ := hw.store.mem_terminalItems.1 hr
    have haccounted := (hw.accounted _ r hfound hs).resolve_left (by simp)
    exact (hw.entriesFor_cases hfound haccounted).imp_left fun h => ⟨_, h, deadLetterOf_copies hs⟩
  · obtain ⟨hfound, hjob⟩ := hw.mem_entriesOf.1 hentry
    obtain ⟨r, hr, hs, rfl⟩ := hw.copies _ entry hfound
    have hkey := hw.store.terminal_keyed _ r hr
    exact ⟨r, hw.store.mem_terminalItems.2 ⟨hkey.symm ▸ hr, hjob⟩, hs, deadLetterOf_copies hs⟩
  · rw [Machine.run_append, Machine.run_append, hrun]
    exact ⟨faults_keep_terminal claim handler faults w, (call_grows _ w).terminal⟩

end Runs

namespace Sample

def failing : ItemHandler :=
  ⟨fun _ => throw (.raised .runtimeError "boom"), fun _ => moves_throw _⟩

/-- The sample item, failed twice under its first lease, the first time with a fault of the
dead-letter queue. -/
def failedTwice : List ExecutorCall :=
  [.work create rfl, .work (claimAt "worker-resumed" 0) rfl,
    .execute (claimOf 1 10) failing ["item-1"], .execute (claimOf 1 10) failing []]

end Sample

/-- The fault of the first execution is recorded, the second one deposits the entry. -/
theorem dead_letters_exact_sample :
    (((executorMachine (Sample.environment 5)).run .empty
      (Sample.failedTwice.take 3)).deadLetters.entriesOf "bulk-job").length = 0 ∧
    (((executorMachine (Sample.environment 5)).run .empty
      Sample.failedTwice).deadLetters.entriesOf "bulk-job").length = 1 ∧
    ∀ entry ∈ ((executorMachine (Sample.environment 5)).run .empty
        Sample.failedTwice).deadLetters.entriesOf "bulk-job",
      ∃ r ∈ ((executorMachine (Sample.environment 5)).run .empty
          Sample.failedTwice).store.terminalItems "bulk-job",
        r.val.state = .retryExhausted ∧ Copies r entry :=
  ⟨by decide +kernel, by decide +kernel,
    (dead_letters_exact (Sample.environment 5) (fun _ => ⟨Sample.time 5, rfl⟩) Sample.failedTwice
      "bulk-job").2.1⟩

end AiRetrieval
