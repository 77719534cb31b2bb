import AiRetrieval.Sanity.ApprovalGate

/-! An execution whose gate hands on no request returns the result it withholds, unless a text of
it cannot be encoded, a check of a record fails or the outside raises. -/

namespace AiRetrieval.BatchWriteBackExecutor

open Program AiRetrieval.Action

/-- The output is accepted under the bound rules and the write-back is enabled, so that the
approval is checked. -/
structure Gated (command : WriteBackCommand) (context : ExecutionContext) : Prop where
  accepted : command.val.validation.val.outcome.accepted = true
  rules : context.configuration.validationRulesVersion =
    some command.val.validation.val.outcome.rulesVersion
  enabled : writeBackEnabled context = some (.bool true)

/-- The clock answers an aware time. -/
def ReadsAware (env : Environment) (n : Nat) : Prop :=
  ∃ moment, env.clock n = .ok moment ∧ moment.aware = true

/-- Nothing an execution needs for its withheld result raises. -/
structure Undisturbed (env : Environment) (command : WriteBackCommand) (context : ExecutionContext)
    (snapshot : AuthorizationSnapshot) (reading : DateTime) (w : World) : Prop where
  bound : Bound command context
  output : command.val.validation.val.outcome.accepted = true →
    context.configuration.validationRulesVersion =
      some command.val.validation.val.outcome.rulesVersion →
    ∃ payload, canonicalOutput env command.val.validation = .ok payload
  rowScope : ((env.points command.val.rowScope).string?).isSome = true
  parameters : Gated command context →
    ∀ item ∈ command.val.parameters, ∃ text, env.repr item.2.object = .ok text
  reading : Gated command context → snapshot.policy.isSome = true →
    snapshot.approval.isSome = true → reading.aware = true
  rulesVersion : blank command.val.validation.val.outcome.rulesVersion = false
  reasonCodes : command.val.validation.val.outcome.accepted = false →
    ∀ code ∈ command.val.validation.val.outcome.reasonCodes, blank code = false
  audited : ¬Gated command context → ReadsAware env w.moment
  auditedGated : Gated command context → ReadsAware env (w.moment + 2)
  sink : ∀ n event, env.audit n event ≠ .error .interrupt

variable {env : Environment} {command : WriteBackCommand} {context : ExecutionContext}
  {snapshot : AuthorizationSnapshot} {reading : DateTime} {w : World}

section Texts

theorem command_named (command : WriteBackCommand) :
    ∀ text ∈ [command.val.policyVersion, command.val.approvalReference,
    command.val.dataScope, command.val.targetDataset, command.val.rowScope],
      blank text = false := by
  have hcommand := command.passed
  simp only [WriteBackCommand.postInit, except_seq_eq_ok, require_eq_ok, requireTexts_eq_ok,
    List.forall_mem_cons] at hcommand
  simp only [List.forall_mem_cons]
  obtain ⟨-, ⟨h1, h2, h3, h4, h5, -⟩, -⟩ := hcommand
  exact ⟨h1, h2, h3, h4, h5, fun _ h => (by cases h)⟩

theorem columns_named (command : WriteBackCommand) : command.val.columns.named := by
  have hcommand := command.passed
  simp only [WriteBackCommand.postInit, except_seq_eq_ok, require_eq_ok] at hcommand
  exact hcommand.2.2.1

theorem mutationType_mutates (command : WriteBackCommand) :
    command.val.mutationType ∈ mutationOperations := by
  have hcommand := command.passed
  simp only [WriteBackCommand.postInit, except_seq_eq_ok, require_eq_ok] at hcommand
  exact hcommand.2.2.2.1

theorem item_named (item : WorkItemRecord) :
    blank item.val.jobId = false ∧ blank item.val.itemId = false ∧
      blank item.val.idempotencyKey = false := by
  have hitem := item.passed
  simp only [WorkItemRecord.postInit, except_seq_eq_ok, requireTexts_eq_ok, List.forall_mem_cons]
    at hitem
  exact ⟨hitem.1.1, hitem.1.2.1, hitem.1.2.2.1⟩

theorem kind_named (kind : OperationKind) : blank kind.value = false := by
  cases kind <;> decide +kernel

theorem status_named (status : WriteBackExecutionStatus) : blank status.value = false := by
  cases status <;> decide +kernel

end Texts

section Failures

theorem proposedScope_returns (context : ExecutionContext) (scope : WriteBackScope)
    (hrules : blank command.val.validation.val.outcome.rulesVersion = false) :
    ∃ proposed, proposedScope command context scope.val.validFrom scope.val.validUntil =
      .ok proposed := by
  have hscope := scope.passed
  simp only [WriteBackScope.postInit, except_seq_eq_ok, require_eq_ok] at hscope
  obtain ⟨-, -, -, -, haware, hpositive⟩ := hscope
  have hnamed := command_named command
  simp only [List.forall_mem_cons] at hnamed
  obtain ⟨-, -, hdata, htarget, hrow, -⟩ := hnamed
  obtain ⟨hjob, hitem, -⟩ := item_named command.val.claim.item
  have hversion := (require_eq_ok.1 context.configuration.reference.passed).2
  refine ⟨_, Checked.make_of_passed ?_⟩
  simp only [WriteBackScope.postInit, except_seq_eq_ok, require_eq_ok, requireTexts_eq_ok,
    List.forall_mem_cons]
  refine ⟨⟨hjob, hdata, htarget, hrow, hrules, hversion, fun _ h => (by cases h)⟩, ?_,
    columns_named command, mutationType_mutates command, haware, hpositive⟩
  exact ⟨List.cons_ne_nil _ _, List.forall_mem_singleton.2 hitem⟩

theorem blank_of_noted {p : Prop} [Decidable p] {a b : List String} {code : String}
    (ha : ∀ code ∈ a, blank code = false) (hb : ∀ code ∈ b, blank code = false)
    (h : code ∈ if p then a else b) : blank code = false := by
  split at h
  · exact ha code h
  · exact hb code h

theorem approvalFailures_returns (snapshot : AuthorizationSnapshot)
    (hrules : blank command.val.validation.val.outcome.rulesVersion = false)
    (haware : snapshot.policy.isSome = true → snapshot.approval.isSome = true →
      reading.aware = true) :
    ∃ reasons, approvalFailures command context snapshot reading = .ok reasons ∧
      ∀ code ∈ reasons, blank code = false := by
  rcases snapshot with ⟨_ | policy, _ | approval⟩
  case some.some =>
    obtain ⟨proposed, hproposed⟩ := proposedScope_returns context policy.val.scope hrules
    have hscope := proposed.passed
    simp only [WriteBackScope.postInit, except_seq_eq_ok, require_eq_ok] at hscope
    obtain ⟨-, -, -, -, ⟨hfrom, huntil⟩, -⟩ := hscope
    have haware := haware rfl rfl
    have hinterval : ∃ valid, IntervalCheck proposed.val.validFrom proposed.val.validUntil reading
        valid := by
      refine ⟨decide (proposed.val.validFrom.instant ≤ reading.instant) &&
        decide (reading.instant < proposed.val.validUntil.instant), _,
        DateTime.notAfter_eq_ok.2 ⟨hfrom.trans haware.symm, rfl⟩, ?_⟩
      split
      · next hbegun =>
        rw [DateTime.before_eq_ok, hbegun, Bool.true_and]
        exact ⟨haware.trans huntil.symm, rfl⟩
      · next hbegun => rw [Bool.eq_false_of_not_eq_true hbegun, Bool.false_and]
    obtain ⟨valid, hvalid⟩ := hinterval
    refine ⟨_, (approvalFailures_some _).2 ⟨proposed, valid, hproposed, hvalid, rfl⟩, ?_⟩
    have hmapped (before : String) (hbefore : blank before = false) (fields : List String) :
        ∀ code ∈ fields.map (fun field => before ++ field ++ "_mismatch"), blank code = false := by
      rw [List.forall_mem_map]
      exact fun field _ => blank_append_left _ (blank_append_left _ hbefore)
    intro code hcode
    rw [List.mem_eraseDups] at hcode
    simp only [List.mem_append] at hcode
    obtain ((((h | h) | h) | h) | h) | h := hcode
    · exact blank_of_noted (by decide +kernel) (by decide +kernel) h
    · exact blank_of_noted (by decide +kernel) (by decide +kernel) h
    · exact blank_of_noted (by decide +kernel) (by decide +kernel) h
    · exact hmapped "policy_" (by decide +kernel) _ code h
    · exact hmapped "approval_" (by decide +kernel) _ code h
    · exact blank_of_noted (by decide +kernel) (by decide +kernel) h
  all_goals
    refine ⟨_, rfl, List.forall_mem_singleton.2 ?_⟩
    decide +kernel

end Failures

section Audit

/-- What an audit of the result needs beside the texts of the command: a digest of the row
scope, codes that are not blank and an aware time. -/
structure Reportable (env : Environment) (command : WriteBackCommand)
    (request : Option EffectRequest) (result : WriteBackExecutionResult) (w : World) : Prop where
  rowScope : ∃ digest, auditedRowScope env command request = .ok digest ∧ blank digest = false
  reasonCodes : ∀ code ∈ result.reasonCodes, blank code = false
  clock : ReadsAware env w.moment

theorem request_named (request : EffectRequest) :
    blank request.val.rowScopeDigest = false ∧ blank request.val.mutationDigest = false := by
  have hrequest := request.passed
  simp only [EffectRequest.postInit, except_seq_eq_ok, requireTexts_eq_ok, List.forall_mem_cons]
    at hrequest
  exact ⟨hrequest.1.2.1, hrequest.1.2.2.1⟩

theorem authority_named (snapshot : Option AuthorizationSnapshot) :
    blank (((snapshot.bind (·.approval)).map (·.val.authority)).getD "unavailable") = false := by
  cases snapshot.bind (·.approval) with
  | none => decide +kernel
  | some approval =>
    have happroval := approval.passed
    simp only [ApprovalRecord.postInit, requireTexts_eq_ok, List.forall_mem_cons] at happroval
    exact happroval.2.1

theorem auditEvent_passes {snapshot : Option AuthorizationSnapshot}
    {request : Option EffectRequest} {result : WriteBackExecutionResult} {digest : String}
    {now : DateTime} (hrules : blank command.val.validation.val.outcome.rulesVersion = false)
    (hdigest : blank digest = false) (hcodes : ∀ code ∈ result.reasonCodes, blank code = false)
    (haware : now.aware = true) :
    WriteBackAuditEvent.postInit
      (auditEvent command context snapshot result request digest now) = .ok () := by
  have hnamed := command_named command
  simp only [List.forall_mem_cons] at hnamed
  obtain ⟨hpolicy, happroval, -, htarget, -, -⟩ := hnamed
  obtain ⟨hjob, hitem, hkey⟩ := item_named command.val.claim.item
  have heffect : blank ((request.map (·.val.mutationDigest)).getD "unavailable") = false := by
    cases request with
    | none => decide +kernel
    | some request => exact (request_named request).2
  have hversion := (require_eq_ok.1 context.configuration.reference.passed).2
  simp only [WriteBackAuditEvent.postInit, except_seq_eq_ok, require_eq_ok]
  simp only [auditEvent, List.forall_mem_cons]
  refine ⟨⟨require_eq_ok.1 context.correlationId.passed, hjob, hitem, hkey, happroval,
    authority_named snapshot, hpolicy, htarget,
    hdigest, heffect, kind_named _, hrules, hversion, by decide +kernel, fun _ h => (by cases h)⟩,
    columns_named command, ?_, haware⟩
  split
  · exact ⟨List.cons_ne_nil _ _, List.forall_mem_singleton.2 (status_named _)⟩
  · next hsome => exact ⟨hsome, hcodes⟩

/-- A reportable result is returned once its event is appended, or its sink fails. -/
theorem finish_returns {snapshot : Option AuthorizationSnapshot} {request : Option EffectRequest}
    {result : WriteBackExecutionResult} (h : Reportable env command request result w)
    (hrules : blank command.val.validation.val.outcome.rulesVersion = false)
    (hsink : ∀ n event, env.audit n event ≠ .error .interrupt) :
    ∃ t, (finish env command context snapshot request result).exec w = (.ok result, t) := by
  obtain ⟨digest, hdigested, hdigest⟩ := h.rowScope
  obtain ⟨now, hnow, haware⟩ := h.clock
  have hread := exec_clock hnow
  have hpassed : WriteBackAuditEvent.postInit
      (auditEvent command context snapshot result request digest now) = .ok () :=
    auditEvent_passes hrules hdigest h.reasonCodes haware
  have hemitted : ∃ t, (emitAudit env command context snapshot result request).exec w =
      (.ok (), t) := by
    unfold emitAudit
    rw [hdigested, exec_bind_of_ok (exec_liftExcept _ _), exec_bind_of_ok hread,
      Checked.make_of_passed hpassed, exec_bind_of_ok (exec_liftExcept _ _)]
    unfold Program.handling
    rw [exec_tryCatch, exec_ask]
    rcases happended : env.audit (w.moment + 1) ⟨_, hpassed⟩ with e | ⟨⟩
    · cases e with
      | interrupt => exact absurd happended (hsink _ _)
      | _ => exact ⟨_, rfl⟩
    · exact ⟨_, rfl⟩
  obtain ⟨t, hemitted⟩ := hemitted
  exact ⟨t, by rw [finish, exec_bind_of_ok hemitted]; rfl⟩

end Audit

section Gate

/-- The gate returns a result that can be reported. -/
def Withholds (env : Environment) (command : WriteBackCommand) (x : Action Decision)
    (w : World) : Prop :=
  ∃ snapshot request result t, x.exec w = (.ok (.withheld snapshot request result), t) ∧
    Reportable env command request result t

theorem withholds_bind_of_ok {α : Type} {x : Action α} {f : α → Action Decision} {a : α}
    {t : World} (h : x.exec w = (.ok a, t)) :
    Withholds env command (x >>= f) w ↔ Withholds env command (f a) t := by
  unfold Withholds
  rw [exec_bind_of_ok h]

theorem withholds_pure {snapshot : Option AuthorizationSnapshot} {request : Option EffectRequest}
    {result : WriteBackExecutionResult} (h : Reportable env command request result w) :
    Withholds env command (pure (.withheld snapshot request result)) w :=
  ⟨_, _, _, _, rfl, h⟩

theorem reportable_unrequested (hhex : Hexadecimal env) {result : WriteBackExecutionResult}
    (hrow : ((env.points command.val.rowScope).string?).isSome = true)
    (hcodes : ∀ code ∈ result.reasonCodes, blank code = false) (hclock : ReadsAware env w.moment) :
    Reportable env command none result w where
  rowScope := by
    obtain ⟨digest, hdigest⟩ := textDigest_returns_iff.2 hrow
    exact ⟨digest, hdigest, textDigest_named hhex hdigest⟩
  reasonCodes := hcodes
  clock := hclock

theorem gateApproved_withholds (hhex : Hexadecimal env)
    (hsnapshot : env.authorization w.moment command.val.policyVersion
      command.val.approvalReference = .ok snapshot)
    (hclock : env.clock (w.moment + 1) = .ok reading)
    (hgated : Gated command context) (h : Undisturbed env command context snapshot reading w)
    {payload : Bytes} {outputReference : ObjectReference}
    (hhands : ¬Hands (gateApproved env command context payload outputReference) w) :
    Withholds env command (gateApproved env command context payload outputReference) w := by
  obtain ⟨request, hrequest⟩ : ∃ request, effectRequest env command payload = .ok request :=
    (effectRequest_returns_iff hhex).2 ⟨h.rowScope, h.parameters hgated⟩
  obtain ⟨reasons, hreasons, hcodes⟩ : ∃ reasons,
      approvalFailures command context snapshot reading = .ok reasons ∧
        ∀ code ∈ reasons, blank code = false :=
    approvalFailures_returns snapshot h.rulesVersion (h.reading hgated)
  have hasked := exec_authorization hsnapshot
  have hread := exec_clock (w := { w with moment := w.moment + 1 }) hclock
  unfold gateApproved at hhands ⊢
  rw [hrequest, hands_bind_of_ok (exec_liftExcept _ _), hands_bind_of_ok hasked,
    hands_bind_of_ok hread, hreasons, hands_bind_of_ok (exec_liftExcept _ _)] at hhands
  rw [hrequest, withholds_bind_of_ok (exec_liftExcept _ _), withholds_bind_of_ok hasked,
    withholds_bind_of_ok hread, hreasons, withholds_bind_of_ok (exec_liftExcept _ _)]
  by_cases hnil : reasons = []
  · rw [if_neg (not_not.2 hnil)] at hhands
    exact absurd ⟨_, _, _, _, rfl⟩ hhands
  · rw [if_pos hnil]
    exact withholds_pure ⟨⟨_, rfl, (request_named request).1⟩, hcodes, h.auditedGated hgated⟩

theorem gate_withholds (hhex : Hexadecimal env) (hbulk : context.path = .bulk)
    (hsnapshot : env.authorization w.moment command.val.policyVersion
      command.val.approvalReference = .ok snapshot)
    (hclock : env.clock (w.moment + 1) = .ok reading)
    (h : Undisturbed env command context snapshot reading w)
    (hhands : ¬Hands (gate env command context) w) :
    Withholds env command (gate env command context) w := by
  have hlift : requireBulkClaim command context = .ok () :=
    requireBulkClaim_ok_iff.2 ⟨hbulk, h.bound⟩
  unfold gate at hhands ⊢
  rw [hlift, hands_bind_of_ok (exec_liftExcept _ _)] at hhands
  rw [hlift, withholds_bind_of_ok (exec_liftExcept _ _)]
  dsimp only at hhands ⊢
  by_cases haccepted : command.val.validation.val.outcome.accepted = false
  · rw [if_pos haccepted]
    refine withholds_pure (reportable_unrequested hhex h.rowScope ?_ (h.audited fun hgated => ?_))
    · dsimp only [rejectionCodes]
      split
      · exact List.forall_mem_singleton.2 (by decide +kernel)
      · exact h.reasonCodes haccepted
    · exact absurd (haccepted.symm.trans hgated.accepted) (by decide)
  rw [if_neg haccepted] at hhands ⊢
  by_cases hrules : some command.val.validation.val.outcome.rulesVersion ≠
      context.configuration.validationRulesVersion
  · rw [if_pos hrules]
    exact withholds_pure (reportable_unrequested hhex h.rowScope
      (List.forall_mem_singleton.2 (by decide +kernel))
      (h.audited fun hgated => hrules hgated.rules.symm))
  rw [if_neg hrules] at hhands ⊢
  have haccepted := Bool.eq_true_of_not_eq_false haccepted
  have hrules := (not_not.1 hrules).symm
  obtain ⟨payload, hpayload⟩ := h.output haccepted hrules
  obtain ⟨outputReference, stored, hput⟩ := putResult_returns hhex payload w.objects
  have hobjects : (onObjects (ObjectResultStore.putResult env.sha256 payload)).exec w =
      (.ok outputReference, { w with objects := stored }) := by rw [exec_onObjects, hput]
  rw [hpayload, hands_bind_of_ok (exec_liftExcept _ _), hands_bind_of_ok hobjects] at hhands
  rw [hpayload, withholds_bind_of_ok (exec_liftExcept _ _), withholds_bind_of_ok hobjects]
  by_cases henabled : writeBackEnabled context = some (.bool true)
  · rw [henabled] at hhands ⊢
    have h' : Undisturbed env command context snapshot reading { w with objects := stored } :=
      { h with }
    exact gateApproved_withholds (w := { w with objects := stored }) hhex hsnapshot hclock
      ⟨haccepted, hrules, henabled⟩ h' hhands
  · have hreported {result : WriteBackExecutionResult}
        (hcodes : ∀ code ∈ result.reasonCodes, blank code = false) :
        Reportable env command none result { w with objects := stored } :=
      reportable_unrequested hhex h.rowScope hcodes
        (h.audited fun hgated => henabled hgated.enabled)
    split
    · next he => exact absurd he henabled
    · exact withholds_pure (hreported (List.forall_mem_singleton.2 (by decide +kernel)))
    · exact withholds_pure (hreported (List.forall_mem_singleton.2 (by decide +kernel)))

theorem execute_returns (hhex : Hexadecimal env) (hbulk : context.path = .bulk)
    (hsnapshot : env.authorization w.moment command.val.policyVersion
      command.val.approvalReference = .ok snapshot)
    (hclock : env.clock (w.moment + 1) = .ok reading)
    (h : Undisturbed env command context snapshot reading w)
    (hhands : ¬Hands (gate env command context) w) :
    ∃ result t, (execute env command context).exec w = (.ok result, t) := by
  obtain ⟨snapshot', request, result, s, hgate, hreportable⟩ :=
    gate_withholds hhex hbulk hsnapshot hclock h hhands
  obtain ⟨t, hfinish⟩ : ∃ t, (finish env command context snapshot' request result).exec s =
      (.ok result, t) := finish_returns hreportable h.rulesVersion h.sink
  have hperform : (perform env command context).exec w = (.ok result, t) := by
    rw [perform_eq, exec_bind_of_ok hgate]
    exact hfinish
  refine ⟨result, ((execute env command context).exec w).2, Prod.ext ?_ rfl⟩
  rw [execute, exec_bind_of_ok (exec_get _), exec_bind_of_ok hperform,
    exec_bind_of_ok (exec_modify _ _)]
  rfl

end Gate

end AiRetrieval.BatchWriteBackExecutor
