import AiRetrieval.Sanity.EffectRecords

/-! A final answer of the adapter is on record before anything later in `execute` can
fail: when the clock is aware, the claim is of a stored item and committed evidence
echoes the request, `execute` records an outcome exactly when the adapter reported one. -/

namespace AiRetrieval

open Program AiRetrieval.Action WorkRepository

/-- The claim is of the work stored under its key. -/
def Genuine (claim : WorkClaim) (s : WorkRepository) : Prop :=
  s.work? (claimKey claim) = some (workOf claim.item)

instance (claim : WorkClaim) (s : WorkRepository) : Decidable (Genuine claim s) :=
  inferInstanceAs (Decidable (_ = _))

/-- The clock returns, and what it returns is timezone-aware. -/
def AwareClock (env : Environment) : Prop := ∀ n, ∃ now, env.clock n = .ok now ∧ now.aware = true

/-- A final outcome of the request's mutation is on record. -/
def RecordedAs (s : WorkRepository) (request : EffectRequest) : Prop :=
  (s.effects.get? (requestKey request)).map Mutation.ofEffect = some (.ofRequest request) ∨
    (s.reconciliations.get? (requestKey request)).map Mutation.ofReconciliation =
      some (.ofRequest request)

/-- One outcome of the request's mutation was recorded, and nothing else. -/
inductive Decided (request : EffectRequest) (s s' : WorkRepository) : Prop where
  | effect (record : EffectRecord) (same : Mutation.ofEffect record = .ofRequest request)
      (effects : s'.effects = s.effects.insert (requestKey request) record)
      (reconciliations : s'.reconciliations = s.reconciliations)
  | reconciliation (record : ReconciliationRecord)
      (same : Mutation.ofReconciliation record = .ofRequest request)
      (effects : s'.effects = s.effects)
      (reconciliations :
        s'.reconciliations = s.reconciliations.insert (requestKey request) record)

theorem Decided.recordedAs {request : EffectRequest} {s s' : WorkRepository}
    (h : Decided request s s') : RecordedAs s' request := by
  cases h with
  | effect record same effects _ =>
    exact Or.inl (by rw [effects, Dict.get?_insert_self, Option.map_some, same])
  | reconciliation record same _ reconciliations =>
    exact Or.inr (by rw [reconciliations, Dict.get?_insert_self, Option.map_some, same])

theorem RecordedAs.mono {request : EffectRequest} {s s' : WorkRepository}
    (h : RecordedAs s request) (hg : Grows s s') : RecordedAs s' request := by
  unfold RecordedAs at *
  simp only [Option.map_eq_some_iff] at *
  rcases h with ⟨r, hr, hm⟩ | ⟨r, hr, hm⟩
  · exact Or.inl ⟨r, hg.effects _ _ hr, hm⟩
  · exact Or.inr ⟨r, hg.reconciliations _ _ hr, hm⟩

def RecordsWhen (decided : Prop) (request : EffectRequest) (s s' : WorkRepository) : Prop :=
  (decided ∧ Decided request s s') ∨ (¬decided ∧ SameOutcomes s s')

section Texts

theorem EffectRequest.texts (r : EffectRequest) :
    blank r.val.targetDataset = false ∧ blank r.val.rowScopeDigest = false ∧
      blank r.val.mutationDigest = false := by
  have h := r.passed
  simp only [EffectRequest.postInit, except_seq_eq_ok, requireTexts_eq_ok,
    List.forall_mem_cons] at h
  exact ⟨h.1.1, h.1.2.1, h.1.2.2.1⟩

theorem EffectAttempt.texts (a : EffectAttempt) :
    blank a.val.transactionOutcome = false ∧ blank a.val.adapterVersion = false := by
  have h := a.passed
  simpa only [EffectAttempt.postInit, except_seq_eq_ok, requireText_eq_ok] using h

theorem committedRecord_returns (request : EffectRequest) (attempt : EffectAttempt)
    {now : DateTime} (h : now.aware = true) :
    ∃ record, EffectRecoveryCoordinator.committedRecord request attempt now = .ok record ∧
      Mutation.ofEffect record = .ofRequest request := by
  obtain ⟨h1, h2, h3⟩ := request.val.claim.item.texts
  obtain ⟨h4, h5, h6⟩ := request.texts
  obtain ⟨h7, h8⟩ := attempt.texts
  refine ⟨_, Checked.make_of_passed ?_, rfl⟩
  simp [EffectRecord.postInit, except_seq_eq_ok, requireTexts_eq_ok, require_eq_ok, *]

end Texts

section Saves

variable {s : WorkRepository} {request : EffectRequest}

theorem Genuine.requireItem (h : Genuine request.val.claim s) :
    ∃ item, s.requireItem (requestKey request) = .ok item ∧
      item.val.itemId = request.val.claim.item.val.itemId := by
  obtain ⟨item, hi, hw⟩ := work?_eq_some.1 h
  exact ⟨item, requireItem_eq_ok.2 hi, congrArg Work.itemId hw⟩

theorem saveEffect_fresh {record : EffectRecord} (hclaim : Genuine request.val.claim s)
    (hfree : s.effects.get? (requestKey request) = none)
    (hsame : Mutation.ofEffect record = .ofRequest request) :
    (saveEffect record).exec s =
      (.ok record, { s with effects := s.effects.insert (requestKey request) record }) := by
  obtain ⟨item, hi, hid⟩ := hclaim.requireItem
  have hkey : (record.val.jobId, record.val.idempotencyKey) = requestKey request :=
    congrArg Mutation.key hsame
  have hitem : item.val.itemId = record.val.itemId :=
    hid.trans (congrArg Mutation.itemId hsame).symm
  unfold saveEffect
  simp only [exec_bind, exec_liftExcept, exec_get, hkey]
  rw [hi]
  simp only
  rw [if_neg (not_not.2 hitem), hfree]
  rfl

theorem saveReconciliation_fresh {record : ReconciliationRecord}
    (hclaim : Genuine request.val.claim s)
    (hfree : s.reconciliations.get? (requestKey request) = none)
    (hsame : Mutation.ofReconciliation record = .ofRequest request) :
    (saveReconciliation record).exec s = (.ok record,
      { s with reconciliations := s.reconciliations.insert (requestKey request) record }) := by
  obtain ⟨item, hi, hid⟩ := hclaim.requireItem
  have hkey : (record.val.jobId, record.val.idempotencyKey) = requestKey request :=
    congrArg Mutation.key hsame
  have hitem : item.val.itemId = record.val.itemId :=
    hid.trans (congrArg Mutation.itemId hsame).symm
  unfold saveReconciliation
  simp only [exec_bind, exec_liftExcept, exec_get, hkey]
  rw [hi]
  simp only
  rw [if_neg (not_not.2 hitem), hfree]
  rfl

end Saves

namespace EffectRecoveryCoordinator

variable {env : Environment} {request : EffectRequest} {context : ExecutionContext} {w : World}

/-- The answer that decides a first attempt of the request at moment `n`: the shared
transaction's, or the verification's. -/
def firstAnswer (env : Environment) (request : EffectRequest) (context : ExecutionContext)
    (n : Nat) : Except PyError EffectEvidence :=
  match request.val.boundary with
  | .shared => env.executeShared n request context
  | .nonShared => env.verifyEffect n request.val.claim.item.val.idempotencyKey
      request.val.mutationDigest context

def Echoes (env : Environment) (request : EffectRequest) (context : ExecutionContext)
    (n : Nat) : Prop :=
  ∀ evidence ∈ (firstAnswer env request context n).toOption,
    evidence.val.status = .committed →
      evidence.val.record.map Mutation.ofEffect = some (.ofRequest request)

instance (n : Nat) : Decidable (Echoes env request context n) :=
  inferInstanceAs (Decidable (∀ evidence ∈ (firstAnswer env request context n).toOption, _))

/-- The request may be decided in `w`: its claim is of a stored item, and its key has no
outcome. -/
structure Undecided (request : EffectRequest) (w : World) : Prop where
  genuine : Genuine request.val.claim w.store
  noEffect : w.store.effects.get? (requestKey request) = none
  noReconciliation : w.store.reconciliations.get? (requestKey request) = none

theorem settle_decides {record : EffectRecord} {status : EffectRecoveryStatus} {reason : String}
    (h : Undecided request w) (hsame : Mutation.ofEffect record = .ofRequest request) :
    Decided request w.store ((settle env request record status reason).after w).store := by
  unfold settle after
  rw [exec_bind, exec_onStore, saveEffect_fresh h.genuine h.noEffect hsame]
  -- the record is stored; restoring the checkpoint may still raise
  have hrest : Moves (OnStores SameOutcomes) (restoreCheckpoint env request record >>= fun c =>
      liftM (Checked.make EffectRecoveryResult.postInit {
        status := status
        effectRecord := some record
        checkpoint := some c
        reasonCode := reason })) :=
    moves_bind (restoreCheckpoint_sameOutcomes record) fun _ => moves_lift _
  have hsaved := hrest { w with store :=
    { w.store with effects := w.store.effects.insert (requestKey request) record } }
  exact .effect record hsame hsaved.1 hsaved.2

theorem reconcile_decides {reason : String} (hclock : AwareClock env) (h : Undecided request w)
    (hreason : blank reason = false) :
    Decided request w.store ((reconcile env request reason).after w).store := by
  obtain ⟨now, hnow, haware⟩ := hclock w.moment
  obtain ⟨h1, h2, h3⟩ := request.val.claim.item.texts
  obtain ⟨h4, h5, h6⟩ := request.texts
  unfold reconcile after
  rw [exec_bind, exec_ask, hnow]
  simp only
  rw [exec_bind, exec_liftExcept, Checked.make_of_passed (by
    simp [ReconciliationRecord.postInit, except_seq_eq_ok, requireTexts_eq_ok, require_eq_ok, *])]
  simp only
  rw [exec_bind, exec_onStore, saveReconciliation_fresh h.genuine h.noReconciliation rfl]
  exact .reconciliation _ rfl rfl rfl

theorem settleEvidence_decides {record : Option EffectRecord} {status : EffectRecoveryStatus}
    {reason : String} (h : Undecided request w)
    (hsame : record.map Mutation.ofEffect = some (.ofRequest request)) :
    Decided request w.store ((settleEvidence env request record status reason).after w).store := by
  unfold settleEvidence after
  rw [exec_bind, exec_liftExcept, assertSameEffect, require_of hsame]
  cases record with
  | none => cases hsame
  | some record => exact settle_decides h (Option.some.inj hsame)

theorem executeShared_records (hclock : AwareClock env) (h : Undecided request w)
    (hshared : request.val.boundary = .shared) (hecho : Echoes env request context w.moment) :
    RecordsWhen (sharedCall env request context w).decisive request w.store
      ((executeShared env request context).after w).store := by
  have hdecisive : (sharedCall env request context w).decisive ↔
      (env.executeShared w.moment request context).toOption.map (·.val.status) = some .committed ∨
      (env.executeShared w.moment request context).toOption.map (·.val.status) = some .ambiguous :=
    Iff.rfl
  unfold RecordsWhen
  rw [hdecisive]
  unfold executeShared after
  rw [exec_bind, exec_callAdapter]
  unfold Echoes firstAnswer at hecho
  rw [hshared] at hecho
  simp only at hecho
  rcases hv : env.executeShared w.moment request context with e | evidence
  · exact Or.inr ⟨by simp [Except.toOption], rfl, rfl⟩
  have hcalled : Undecided request (called (sharedCall env request context w) w) :=
    ⟨h.genuine, h.noEffect, h.noReconciliation⟩
  simp only [Except.toOption, Option.map_some, Option.some.injEq]
  cases hs : evidence.val.status with
  | committed =>
    exact Or.inl ⟨Or.inl rfl, settleEvidence_decides hcalled (hecho evidence (by rw [hv]; rfl) hs)⟩
  | ambiguous =>
    exact Or.inl ⟨Or.inr rfl, reconcile_decides hclock hcalled (by decide +kernel)⟩
  | absent => exact Or.inr ⟨by simp, rfl, rfl⟩
  | rolledBack => exact Or.inr ⟨by simp, rfl, rfl⟩

theorem attemptNonShared_records (hclock : AwareClock env) (h : Undecided request w) :
    RecordsWhen (nonSharedCall env request context w).decisive request w.store
      ((attemptNonShared env request context).after w).store := by
  have hdecisive : (nonSharedCall env request context w).decisive ↔
      (env.executeNonShared w.moment request.val.effect request.val.mutationDigest
        context).toOption.map (·.val.status.evidence) = some .committed ∨
      (env.executeNonShared w.moment request.val.effect request.val.mutationDigest
        context).toOption.map (·.val.status.evidence) = some .ambiguous := Iff.rfl
  unfold RecordsWhen
  rw [hdecisive]
  unfold attemptNonShared after
  rw [exec_bind, exec_callAdapter]
  rcases env.executeNonShared w.moment request.val.effect request.val.mutationDigest context with
    e | attempt
  · exact Or.inr ⟨by simp [Except.toOption], rfl, rfl⟩
  have hcalled : Undecided request (called (nonSharedCall env request context w) w) :=
    ⟨h.genuine, h.noEffect, h.noReconciliation⟩
  simp only [Except.toOption, Option.map_some, Option.some.injEq]
  cases hs : attempt.val.status with
  | rolledBack => exact Or.inr ⟨by simp [EffectAttemptStatus.evidence], rfl, rfl⟩
  | ambiguous =>
    exact Or.inl ⟨Or.inr rfl, reconcile_decides hclock hcalled (by decide +kernel)⟩
  | committed =>
    refine Or.inl ⟨Or.inl rfl, ?_⟩
    obtain ⟨now, hnow, haware⟩ := hclock (w.moment + 1)
    obtain ⟨record, hrecord, hsame⟩ := committedRecord_returns request attempt haware
    simp only
    rw [exec_bind, exec_ask, show env.clock (called _ w).moment = .ok now from hnow]
    simp only
    rw [exec_bind, exec_liftExcept, hrecord]
    exact settle_decides (w := { called (nonSharedCall env request context w) w with
      moment := w.moment + 1 + 1 }) ⟨h.genuine, h.noEffect, h.noReconciliation⟩ hsame

theorem executeNonShared_records (hclock : AwareClock env) (h : Undecided request w)
    (hboundary : request.val.boundary = .nonShared)
    (hecho : Echoes env request context w.moment) :
    (¬notInPlace env request context w →
      RecordsWhen (verifyCall env request context w).decisive request w.store
        ((executeNonShared env request context).after w).store) ∧
    (notInPlace env request context w →
      RecordsWhen (nonSharedCall env request context
        (called (verifyCall env request context w) w)).decisive request w.store
        ((executeNonShared env request context).after w).store) := by
  have hcalled : Undecided request (called (verifyCall env request context w) w) :=
    ⟨h.genuine, h.noEffect, h.noReconciliation⟩
  have hattempt : RecordsWhen (nonSharedCall env request context
      (called (verifyCall env request context w) w)).decisive request w.store
      ((attemptNonShared env request context).after
        (called (verifyCall env request context w) w)).store :=
    attemptNonShared_records hclock hcalled
  have hreport : (verifyCall env request context w).report =
      (env.verifyEffect w.moment request.val.claim.item.val.idempotencyKey
        request.val.mutationDigest context).toOption.map (·.val.status) := rfl
  unfold notInPlace
  generalize hd : nonSharedCall env request context
    (called (verifyCall env request context w) w) = attempt at hattempt
  unfold AdapterCall.decisive at hattempt ⊢
  rw [hreport]
  unfold executeNonShared after
  rw [exec_bind, exec_callAdapter]
  unfold Echoes firstAnswer at hecho
  rw [hboundary] at hecho
  simp only at hecho
  rcases hv : env.verifyEffect w.moment request.val.claim.item.val.idempotencyKey
    request.val.mutationDigest context with e | evidence
  · exact ⟨fun _ => Or.inr ⟨by simp [Except.toOption], rfl, rfl⟩,
      fun hn => by simp [Except.toOption] at hn⟩
  simp only [Except.toOption, Option.map_some, Option.some.injEq]
  cases hs : evidence.val.status with
  | committed =>
    exact ⟨fun _ => Or.inl ⟨Or.inl rfl,
      settleEvidence_decides hcalled (hecho evidence (by rw [hv]; rfl) hs)⟩, fun hn =>
        by simp at hn⟩
  | ambiguous =>
    exact ⟨fun _ => Or.inl ⟨Or.inr rfl, reconcile_decides hclock hcalled (by decide +kernel)⟩,
      fun hn => by simp at hn⟩
  | absent => exact ⟨fun hn => by simp at hn, fun _ => hattempt⟩
  | rolledBack => exact ⟨fun hn => by simp at hn, fun _ => hattempt⟩

theorem execute_records (hclock : AwareClock env) (hclaim : Genuine request.val.claim w.store)
    (hecho : Echoes env request context w.moment) :
    RecordsWhen (∃ call ∈ callsMade env request context w, call.decisive) request w.store
      ((execute env request context).after w).store := by
  by_cases hr : Reaches request context w
  · have h : Undecided request w := ⟨hclaim, hr.noEffect, hr.noReconciliation⟩
    have hexec := execute_of_fits env w ⟨hr.bulk, hr.bound⟩
    rw [hr.noEffect, hr.noReconciliation] at hexec
    unfold callsMade after
    rw [if_pos hr, hexec]
    cases hb : request.val.boundary with
    | shared =>
      simp only [List.mem_singleton, exists_eq_left]
      exact executeShared_records hclock h hb hecho
    | nonShared =>
      obtain ⟨hverified, hattempted⟩ := executeNonShared_records hclock h hb hecho
      by_cases hn : notInPlace env request context w
      · have hverify : ¬(verifyCall env request context w).decisive := by
          unfold AdapterCall.decisive
          rcases hn with hn | hn <;> simp [hn]
        simp only [if_pos hn, List.mem_cons, List.not_mem_nil, or_false, exists_eq_or_imp,
          exists_eq_left, hverify, false_or]
        exact hattempted hn
      · simp only [if_neg hn, List.mem_singleton, exists_eq_left]
        exact hverified hn
  · refine Or.inr ⟨by simp [callsMade, hr], ?_⟩
    unfold after
    by_cases hf : Fits request context
    · rw [execute_of_fits env w hf]
      split
      · exact recover_moves (restoreCheckpoint_sameOutcomes _) w
      · exact refl_of SameOutcomes w.store
      · next he hp => exact absurd ⟨hf.1, hf.2, he, hp⟩ hr
    · obtain ⟨message, hm⟩ := execute_refused env w hf
      rw [hm]
      exact refl_of SameOutcomes w.store

theorem callsMade_request {call : AdapterCall} (h : call ∈ callsMade env request context w) :
    call.request = request ∧ Reaches request context w := by
  unfold callsMade at h
  split at h
  · next hr =>
    refine ⟨?_, hr⟩
    split at h
    · rw [List.mem_singleton.1 h]; rfl
    · rcases List.mem_cons.1 h with rfl | h
      · rfl
      · split at h
        · rw [List.mem_singleton.1 h]; rfl
        · cases h
  · cases h

/-- Within one `execute` nothing follows a final answer. -/
theorem callsMade_ordered (env : Environment) (request : EffectRequest)
    (context : ExecutionContext) (w : World) :
    (callsMade env request context w).Pairwise fun call _ => ¬call.decisive := by
  unfold callsMade
  split
  · split
    · exact List.pairwise_singleton _ _
    · split
      · next hn =>
        refine List.pairwise_cons.2 ⟨fun _ _ hd => ?_, List.pairwise_singleton _ _⟩
        rcases hn with hn | hn <;> rcases hd with hd | hd <;> rw [hn] at hd <;> cases hd
      · exact List.pairwise_singleton _ _
  · exact List.Pairwise.nil

/-- A different mutation of a decided key is refused, whatever was decided. -/
theorem execute_conflict {recorded : EffectRequest} (hr : RecordedAs w.store recorded)
    (hx : w.store.effects.get? (requestKey request) = none ∨
      w.store.reconciliations.get? (requestKey request) = none)
    (hkey : requestKey request = requestKey recorded)
    (hne : Mutation.ofRequest request ≠ .ofRequest recorded) :
    ∃ error, (execute env request context).exec w = (.error error, w) ∧
      (Fits request context → ∃ message, error = .raised .effectConflictError message) := by
  by_cases hf : Fits request context
  · rw [execute_of_fits env w hf]
    rw [RecordedAs, ← hkey] at hr
    simp only [Option.map_eq_some_iff] at hr
    rcases hr with ⟨existing, he, hm⟩ | ⟨pending, hp, hm⟩
    · have hconflict : Mutation.ofEffect existing ≠ .ofRequest request :=
        fun h => hne (h.symm.trans hm)
      rw [he]
      simp only [recover, assertSameEffect, require, Option.map_some, Option.some.injEq,
        if_neg hconflict]
      exact ⟨_, rfl, fun _ => ⟨_, rfl⟩⟩
    · have hconflict : Mutation.ofReconciliation pending ≠ .ofRequest request :=
        fun h => hne (h.symm.trans hm)
      rw [hx.resolve_right (by rw [hp]; exact Option.some_ne_none _), hp]
      simp only [await, assertSameReconciliation, require, if_neg hconflict]
      exact ⟨_, rfl, fun _ => ⟨_, rfl⟩⟩
  · obtain ⟨message, hm⟩ := execute_refused env w hf
    exact ⟨_, hm, fun h => absurd h hf⟩

end EffectRecoveryCoordinator

end AiRetrieval
