import AiRetrieval.Sanity.WriteBackMoves
import AiRetrieval.Spec.Authorization

/-! The approval gate of the write-back executor apart from what follows it: an
execution is the gate's decision, and then the recovery or the withheld result. -/

namespace AiRetrieval.BatchWriteBackExecutor

open Program AiRetrieval.Action

/-- What the gate decides: a result without an effect, or the effect recovery of a
request. -/
inductive Decision where
  | withheld (snapshot : Option AuthorizationSnapshot) (request : Option EffectRequest)
    (result : WriteBackExecutionResult)
  | handed (request : EffectRequest) (snapshot : AuthorizationSnapshot)
    (outputReference : ObjectReference)

section Gate

variable (env : Environment) (command : WriteBackCommand) (context : ExecutionContext)

def gateApproved (payload : Bytes) (outputReference : ObjectReference) : Action Decision := do
  let request ← effectRequest env command payload
  let snapshot ← ask fun n =>
    env.authorization n command.val.policyVersion command.val.approvalReference
  let checkedAt ← ask env.clock
  let reasons ← approvalFailures command context snapshot checkedAt
  if reasons ≠ [] then
    return .withheld (some snapshot) (some request) {
      status := .approvalRejected
      reasonCodes := reasons
      outputReference := some outputReference }
  else return .handed request snapshot outputReference

/-- The part of `perform` before the recovery and the audit. -/
def gate : Action Decision := do
  requireBulkClaim command context
  let validation := command.val.validation
  if validation.val.outcome.accepted = false then
    return .withheld none none {
      status := .validationRejected
      reasonCodes := rejectionCodes validation.val.outcome }
  else if some validation.val.outcome.rulesVersion ≠
      context.configuration.validationRulesVersion then
    return .withheld none none {
      status := .validationRejected
      reasonCodes := ["validation_version_not_bound"] }
  else
    let payload ← canonicalOutput env validation
    let outputReference ← onObjects (ObjectResultStore.putResult env.sha256 payload)
    match writeBackEnabled context with
    | some (.bool true) => gateApproved env command context payload outputReference
    | some (.bool false) =>
      return .withheld none none {
        status := .persisted
        reasonCodes := ["write_back_disabled"]
        outputReference := some outputReference }
    | _ =>
      return .withheld none none {
        status := .approvalRejected
        reasonCodes := ["write_back_setting_unavailable"]
        outputReference := some outputReference }

/-- What follows the gate. -/
def conclude : Decision → Action WriteBackExecutionResult
  | .withheld snapshot request result => finish env command context snapshot request result
  | .handed request snapshot outputReference => do
    let recovered ← Program.attempt (EffectRecoveryCoordinator.execute env request context)
    match recovered with
    | .error .interrupt => throw .interrupt
    | recovered =>
      finish env command context (some snapshot) (some request)
        (recoveryResult outputReference recovered)

theorem executeApproved_eq (payload : Bytes) (outputReference : ObjectReference) :
    executeApproved env command context payload outputReference =
      gateApproved env command context payload outputReference >>= conclude env command
        context := by
  unfold executeApproved gateApproved
  simp only [bind_assoc]
  congr 1; funext request
  congr 1; funext snapshot
  congr 1; funext checkedAt
  congr 1; funext reasons
  split
  · rw [pure_bind]; rfl
  · rw [pure_bind]; rfl

/-- An execution is its gate and what follows it. -/
theorem perform_eq :
    perform env command context = gate env command context >>= conclude env command context := by
  unfold perform gate
  simp only [bind_assoc]
  congr 1; funext _
  split
  · rw [pure_bind]; rfl
  split
  · rw [pure_bind]; rfl
  simp only [bind_assoc]
  congr 1; funext payload
  congr 1; funext outputReference
  generalize writeBackEnabled context = enabled
  rcases enabled with _ | (_ | (_ | _) | _ | _ | _ | _ | _ | _)
  case some.bool.true => exact executeApproved_eq env command context _ _
  all_goals rw [pure_bind]; rfl

end Gate

/-- The scope names what the command writes under the bound configuration. -/
structure Covers (scope : WriteBackScope) (command : WriteBackCommand)
    (context : ExecutionContext) : Prop where
  jobId : scope.val.jobId = command.val.claim.item.val.jobId
  itemScope : scope.val.itemScope = .singleton command.val.claim.item.val.itemId
  dataScope : scope.val.dataScope = command.val.dataScope
  targetDataset : scope.val.targetDataset = command.val.targetDataset
  rowScope : scope.val.rowScope = command.val.rowScope
  columns : scope.val.columns = command.val.columns
  mutationType : scope.val.mutationType = command.val.mutationType
  rulesVersion :
    scope.val.validationRulesVersion = command.val.validation.val.outcome.rulesVersion
  configurationVersion :
    scope.val.configurationVersion = context.configuration.reference.val.version

structure Grants (policy : WriteBackPolicy) (approval : ApprovalRecord)
    (command : WriteBackCommand) (context : ExecutionContext) (reading : DateTime) : Prop where
  active : policy.val.active = true
  standing : approval.val.revoked = false
  approved : approval.val.policyVersion = policy.val.version
  versioned : policy.val.version = command.val.policyVersion
  scopes : policy.val.scope = approval.val.scope
  covers : Covers policy.val.scope command context
  begun : policy.val.scope.val.validFrom ≤ reading
  unended : reading < policy.val.scope.val.validUntil

def Authorized (snapshot : AuthorizationSnapshot) (command : WriteBackCommand)
    (context : ExecutionContext) (reading : DateTime) : Prop :=
  ∃ policy approval, snapshot.policy = some policy ∧ snapshot.approval = some approval ∧
    Grants policy approval command context reading

section Failures

variable {command : WriteBackCommand} {context : ExecutionContext} {reading : DateTime}

theorem scopeMismatches_eq_nil_iff (a b : WriteBackScope) : scopeMismatches a b = [] ↔ a = b := by
  constructor
  · intro h
    apply Checked.ext
    simp only [scopeMismatches, List.filterMap_eq_nil_iff, List.forall_mem_cons,
      ite_eq_left_iff, reduceCtorEq, imp_false, not_not, decide_eq_true_eq] at h
    obtain ⟨h1, h2, h3, h4, h5, h6, h7, h8, h9, h10, h11, -⟩ := h
    obtain ⟨⟨⟩, _⟩ := a
    obtain ⟨⟨⟩, _⟩ := b
    simp_all only
  · rintro rfl
    simp [scopeMismatches]

theorem proposedScope_eq_iff {scope : WriteBackScope} :
    proposedScope command context scope.val.validFrom scope.val.validUntil = .ok scope ↔
      Covers scope command context := by
  unfold proposedScope
  rw [Checked.make_eq_ok]
  constructor
  · intro h
    constructor <;> rw [h]
  · rintro ⟨h1, h2, h3, h4, h5, h6, h7, h8, h9⟩
    rw [← h1, ← h2, ← h3, ← h4, ← h5, ← h6, ← h7, ← h8, ← h9]

theorem eraseDups_eq_nil_iff {l : List String} : l.eraseDups = [] ↔ l = [] := by
  cases l with
  | nil => simp
  | cons a rest => simp [List.eraseDups_cons]

/-- The interval check of `_approval_failures` gives `valid`. -/
def IntervalCheck (validFrom validUntil now : DateTime) (valid : Bool) : Prop :=
  ∃ begun, validFrom.notAfter now = .ok begun ∧
    (if begun then now.before validUntil else .ok false) = .ok valid

theorem intervalCheck_iff {validFrom validUntil now : DateTime} :
    IntervalCheck validFrom validUntil now true ↔ validFrom ≤ now ∧ now < validUntil := by
  constructor
  · rintro ⟨begun, hbegun, h⟩
    rw [DateTime.notAfter_eq_ok] at hbegun
    cases begun with
    | false => simp at h
    | true =>
      rw [if_pos rfl, DateTime.before_eq_ok] at h
      exact ⟨⟨hbegun.1, of_decide_eq_true hbegun.2.symm⟩, h.1, of_decide_eq_true h.2.symm⟩
  · rintro ⟨hbegun, h⟩
    refine ⟨true, DateTime.notAfter_eq_ok.2 ⟨hbegun.1, by simp [hbegun.2]⟩, ?_⟩
    rw [if_pos rfl]
    exact DateTime.before_eq_ok.2 ⟨h.1, by simp [h.2]⟩

theorem approvalFailures_some {policy : WriteBackPolicy} {approval : ApprovalRecord}
    (reasons : List String) :
    approvalFailures command context ⟨some policy, some approval⟩ reading = .ok reasons ↔
      ∃ proposed valid, proposedScope command context policy.val.scope.val.validFrom
          policy.val.scope.val.validUntil = .ok proposed ∧
        IntervalCheck proposed.val.validFrom proposed.val.validUntil reading valid ∧
        List.eraseDups (
          (if policy.val.active then [] else ["policy_inactive"]) ++
          (if approval.val.revoked then ["approval_revoked"] else []) ++
          (if approval.val.policyVersion ≠ policy.val.version ∨
              policy.val.version ≠ command.val.policyVersion then ["policy_version_mismatch"]
            else []) ++
          (scopeMismatches policy.val.scope proposed).map
            (fun field => "policy_" ++ field ++ "_mismatch") ++
          (scopeMismatches approval.val.scope proposed).map
            (fun field => "approval_" ++ field ++ "_mismatch") ++
          (if valid then [] else ["approval_outside_validity_interval"])) = reasons := by
  simp only [approvalFailures]
  rw [except_bind_eq_ok]
  refine exists_congr fun proposed => ?_
  rw [except_bind_eq_ok]
  constructor
  · rintro ⟨hproposed, begun, hbegun, h⟩
    cases begun with
    | true =>
      obtain ⟨valid, hvalid, h⟩ := except_bind_eq_ok.1 h
      exact ⟨valid, hproposed, ⟨true, hbegun, hvalid⟩, Except.ok.inj h⟩
    | false => exact ⟨false, hproposed, ⟨false, hbegun, rfl⟩, Except.ok.inj h⟩
  · rintro ⟨valid, hproposed, ⟨begun, hbegun, hvalid⟩, rfl⟩
    refine ⟨hproposed, begun, hbegun, ?_⟩
    cases begun with
    | true => exact except_bind_eq_ok.2 ⟨valid, hvalid, rfl⟩
    | false =>
      cases hvalid
      rfl

theorem approvalFailures_eq_nil_iff (snapshot : AuthorizationSnapshot) :
    approvalFailures command context snapshot reading = .ok [] ↔
      Authorized snapshot command context reading := by
  rcases snapshot with ⟨_ | policy, _ | approval⟩
  case some.some =>
    rw [approvalFailures_some]
    constructor
    · rintro ⟨proposed, valid, hproposed, hvalid, h⟩
      simp only [eraseDups_eq_nil_iff, List.append_eq_nil_iff, ite_eq_left_iff,
        List.map_eq_nil_iff, scopeMismatches_eq_nil_iff, reduceCtorEq, imp_false, not_not,
        ite_eq_right_iff, not_or, Bool.not_eq_true, Bool.not_eq_false] at h
      obtain ⟨⟨⟨⟨⟨hactive, hrevoked⟩, hversion⟩, rfl⟩, happroval⟩, rfl⟩ := h
      rw [intervalCheck_iff] at hvalid
      exact ⟨policy, approval, rfl, rfl, hactive, hrevoked, hversion.1, hversion.2,
        happroval.symm, proposedScope_eq_iff.1 hproposed, hvalid.1, hvalid.2⟩
    · rintro ⟨_, _, hpolicy, happroval, h⟩
      cases hpolicy
      cases happroval
      refine ⟨policy.val.scope, true, proposedScope_eq_iff.2 h.covers,
        intervalCheck_iff.2 ⟨h.begun, h.unended⟩, ?_⟩
      simp [h.active, h.standing, h.approved, h.versioned, ← h.scopes,
        (scopeMismatches_eq_nil_iff policy.val.scope policy.val.scope).2 rfl]
  all_goals
    constructor
    · intro h
      cases h
    · rintro ⟨_, _, hpolicy, happroval, -⟩
      first | (cases hpolicy; done) | cases happroval

end Failures

def Bound (command : WriteBackCommand) (context : ExecutionContext) : Prop :=
  command.val.claim.item.val.configuration = context.configuration.reference

/-- Everything the gate compares before the recovery. -/
structure Approved (snapshot : AuthorizationSnapshot) (command : WriteBackCommand)
    (context : ExecutionContext) (reading : DateTime) : Prop where
  accepted : command.val.validation.val.outcome.accepted = true
  rules : context.configuration.validationRulesVersion =
    some command.val.validation.val.outcome.rulesVersion
  enabled : writeBackEnabled context = some (.bool true)
  authorized : Authorized snapshot command context reading

section Outcome

variable {env : Environment} {command : WriteBackCommand} {context : ExecutionContext}
  {snapshot : AuthorizationSnapshot} {reading : DateTime} {w : World}

/-- A run of the program returns a request for the effect recovery. -/
def Hands (x : Action Decision) (w : World) : Prop :=
  ∃ request snapshot reference t, x.exec w = (.ok (.handed request snapshot reference), t)

theorem hands_bind_of_ok {α : Type} {x : Action α} {f : α → Action Decision} {a : α} {t : World}
    (h : x.exec w = (.ok a, t)) : Hands (x >>= f) w ↔ Hands (f a) t := by
  unfold Hands
  rw [exec_bind_of_ok h]

theorem hands_lift_iff {α : Type} {x : Except PyError α} {f : α → Action Decision} :
    Hands (liftM x >>= f) w ↔ ∃ a, x = .ok a ∧ Hands (f a) w := by
  cases x with
  | ok a =>
    rw [hands_bind_of_ok (exec_liftExcept _ _)]
    exact ⟨fun h => ⟨a, rfl, h⟩, fun ⟨b, hb, h⟩ => by cases hb; exact h⟩
  | error e =>
    constructor
    · rintro ⟨_, _, _, _, h⟩
      rw [exec_bind_of_error (exec_liftExcept _ _)] at h
      cases h
    · rintro ⟨_, h, -⟩
      cases h

theorem hands_lift {x : Except PyError Unit} {f : Unit → Action Decision} :
    Hands (liftM x >>= f) w ↔ x = .ok () ∧ Hands (f ()) w :=
  hands_lift_iff.trans ⟨fun ⟨_, h⟩ => h, fun h => ⟨(), h⟩⟩

theorem not_hands_withheld (snapshot : Option AuthorizationSnapshot)
    (request : Option EffectRequest) (result : WriteBackExecutionResult) :
    ¬Hands (pure (.withheld snapshot request result)) w := by
  rintro ⟨_, _, _, _, h⟩
  cases h

/-- The hexadecimal digest of anything is a text that is not blank. -/
def Hexadecimal (env : Environment) : Prop := ∀ data, blank (env.sha256 data) = false

theorem textDigest_returns_iff {value : String} :
    (∃ digest, textDigest env value = .ok digest) ↔
      ((env.points value).string?).isSome = true := by
  unfold textDigest encodeText
  cases (env.points value).string? with
  | none => exact iff_of_false (fun ⟨_, h⟩ => by cases h) (fun h => by cases h)
  | some s => exact iff_of_true ⟨_, rfl⟩ rfl

theorem textDigest_named (hhex : Hexadecimal env) {value digest : String}
    (h : textDigest env value = .ok digest) : blank digest = false := by
  obtain ⟨data, -, h⟩ := except_bind_eq_ok.1 h
  cases h
  exact hhex data

theorem mutationDigest_returns_iff {payload : Bytes} :
    (∃ digest, mutationDigest env command payload = .ok digest) ↔
      ∀ item ∈ command.val.parameters, ∃ text, env.repr item.2.object = .ok text := by
  have hreprs : (∃ parameters, CommandMutation.reprsOf
      (fun value => CodeText.ofString <$> env.repr value)
      (command.val.parameters.map fun item => (env.points item.1, item.2.object)) =
        .ok parameters) ↔
      ∀ item ∈ command.val.parameters, ∃ text, env.repr item.2.object = .ok text := by
    unfold CommandMutation.reprsOf
    rw [except_mapM_returns_iff, List.forall_mem_map]
    refine forall₂_congr fun item _ => ?_
    dsimp only
    cases env.repr item.2.object with
    | error e => exact iff_of_false (fun ⟨_, h⟩ => by cases h) (fun ⟨_, h⟩ => by cases h)
    | ok text => exact iff_of_true ⟨_, rfl⟩ ⟨text, rfl⟩
  rw [← hreprs]
  constructor
  · rintro ⟨digest, h⟩
    obtain ⟨parameters, hparameters, -⟩ := except_bind_eq_ok.1 h
    exact ⟨parameters, hparameters⟩
  · rintro ⟨parameters, hparameters⟩
    obtain ⟨digest, hdigest⟩ := CommandMutation.digestOf_returns env.sha256 _
    exact ⟨digest, except_bind_eq_ok.2 ⟨parameters, hparameters, hdigest⟩⟩

theorem mutationDigest_named (hhex : Hexadecimal env) {payload : Bytes} {digest : String}
    (h : mutationDigest env command payload = .ok digest) : blank digest = false := by
  obtain ⟨parameters, -, h⟩ := except_bind_eq_ok.1 h
  obtain ⟨data, -, h⟩ := except_bind_eq_ok.1 h
  cases h
  exact hhex data

theorem effectRequest_returns_iff (hhex : Hexadecimal env) {payload : Bytes} :
    (∃ request, effectRequest env command payload = .ok request) ↔
      ((env.points command.val.rowScope).string?).isSome = true ∧
        ∀ item ∈ command.val.parameters, ∃ text, env.repr item.2.object = .ok text := by
  have hmutation : (∃ digest, mutationDigest env command payload = .ok digest) ↔ _ :=
    mutationDigest_returns_iff
  rw [← textDigest_returns_iff, ← hmutation]
  constructor
  · rintro ⟨request, h⟩
    obtain ⟨rowScopeDigest, hrow, h⟩ := except_bind_eq_ok.1 h
    obtain ⟨mutationDigest, hmutation, h⟩ := except_bind_eq_ok.1 h
    exact ⟨⟨rowScopeDigest, hrow⟩, mutationDigest, hmutation⟩
  · rintro ⟨⟨rowScopeDigest, hrow⟩, mutationDigest, hmutation⟩
    have hcommand := command.passed
    simp only [WriteBackCommand.postInit, except_seq_eq_ok, require_eq_ok, requireTexts_eq_ok]
      at hcommand
    obtain ⟨hacquired, htexts, -⟩ := hcommand
    refine ⟨_, except_bind_eq_ok.2 ⟨rowScopeDigest, hrow, except_bind_eq_ok.2
      ⟨mutationDigest, hmutation, Checked.make_of_passed ?_⟩⟩⟩
    simp only [EffectRequest.postInit, except_seq_eq_ok, require_eq_ok, requireTexts_eq_ok,
      List.forall_mem_cons]
    exact ⟨⟨htexts ("target_dataset", command.val.targetDataset) (by simp),
      textDigest_named hhex hrow, mutationDigest_named hhex hmutation, by simp⟩, hacquired, trivial⟩

theorem putResult_returns (hhex : Hexadecimal env) (data : Bytes) (objects : ObjectResultStore) :
    ∃ reference stored,
      (ObjectResultStore.putResult env.sha256 data).exec objects = (.ok reference, stored) := by
  have hpassed : ObjectReference.postInit
      ⟨"memory://" ++ ArtifactKind.result.value ++ "/" ++ env.sha256 data, env.sha256 data, .result,
        data.length⟩ = .ok () := by
    rw [ObjectReference.postInit, except_seq_eq_ok, requireText_eq_ok, requireText_eq_ok]
    exact ⟨blank_append_left _ (by decide +kernel), hhex data⟩
  refine ⟨⟨_, hpassed⟩, (ObjectResultStore.putResult env.sha256 data).after objects, ?_⟩
  refine Prod.ext ?_ rfl
  simp only [ObjectResultStore.putResult, ObjectResultStore.put]
  rw [exec_bind_of_ok (exec_modify _ _), Checked.make_of_passed hpassed]
  rfl

theorem requireBulkClaim_ok_iff :
    requireBulkClaim command context = .ok () ↔ context.path = .bulk ∧ Bound command context := by
  simp only [requireBulkClaim, except_seq_eq_ok, require_eq_ok, Bound]

theorem exec_authorization (h : env.authorization w.moment command.val.policyVersion
    command.val.approvalReference = .ok snapshot) :
    (ask fun n => env.authorization n command.val.policyVersion
      command.val.approvalReference).exec w = (.ok snapshot, { w with moment := w.moment + 1 }) := by
  rw [exec_ask, h]

theorem exec_clock (h : env.clock w.moment = .ok reading) :
    (ask env.clock).exec w = (.ok reading, { w with moment := w.moment + 1 }) := by
  rw [exec_ask, h]

theorem gateApproved_hands_iff
    (hsnapshot : env.authorization w.moment command.val.policyVersion
      command.val.approvalReference = .ok snapshot)
    (hclock : env.clock (w.moment + 1) = .ok reading) (payload : Bytes)
    (outputReference : ObjectReference) :
    Hands (gateApproved env command context payload outputReference) w ↔
      (∃ request, effectRequest env command payload = .ok request) ∧
        Authorized snapshot command context reading := by
  have hread := exec_clock (w := { w with moment := w.moment + 1 }) hclock
  rw [gateApproved, hands_lift_iff, ← exists_and_right]
  refine exists_congr fun request => and_congr_right fun _ => ?_
  rw [hands_bind_of_ok (exec_authorization hsnapshot), hands_bind_of_ok hread,
    ← approvalFailures_eq_nil_iff]
  cases hfailures : approvalFailures command context snapshot reading with
  | error e =>
    constructor
    · rintro ⟨_, _, _, _, h⟩
      rw [exec_bind_of_error (exec_liftExcept _ _)] at h
      cases h
    · intro h
      cases h
  | ok reasons =>
    rw [hands_bind_of_ok (exec_liftExcept _ _)]
    by_cases hnil : reasons = []
    · subst hnil
      exact ⟨fun _ => rfl, fun _ => ⟨request, snapshot, outputReference, _, rfl⟩⟩
    · rw [if_pos hnil]
      exact ⟨fun h => absurd h (not_hands_withheld _ _ _), fun h => absurd (Except.ok.inj h) hnil⟩

/-- The output and the request of a command have texts that can be encoded. -/
structure Expressible (env : Environment) (command : WriteBackCommand) : Prop where
  output : ∃ payload, canonicalOutput env command.val.validation = .ok payload
  rowScope : ((env.points command.val.rowScope).string?).isSome = true
  parameters : ∀ item ∈ command.val.parameters, ∃ text, env.repr item.2.object = .ok text

theorem gate_hands_iff (hhex : Hexadecimal env) (hbulk : context.path = .bulk)
    (hsnapshot : env.authorization w.moment command.val.policyVersion
      command.val.approvalReference = .ok snapshot)
    (hclock : env.clock (w.moment + 1) = .ok reading) :
    Hands (gate env command context) w ↔ Bound command context ∧ Expressible env command ∧
      Approved snapshot command context reading := by
  rw [gate, hands_lift, requireBulkClaim_ok_iff, and_assoc, and_iff_right hbulk]
  refine and_congr_right fun _ => ?_
  dsimp only
  by_cases haccepted : command.val.validation.val.outcome.accepted = false
  · rw [if_pos haccepted]
    refine ⟨fun h => absurd h (not_hands_withheld _ _ _), fun h => ?_⟩
    rw [h.2.accepted] at haccepted
    cases haccepted
  rw [if_neg haccepted]
  by_cases hrules : some command.val.validation.val.outcome.rulesVersion ≠
      context.configuration.validationRulesVersion
  · rw [if_pos hrules]
    exact ⟨fun h => absurd h (not_hands_withheld _ _ _), fun h => absurd h.2.rules.symm hrules⟩
  rw [if_neg hrules, hands_lift_iff]
  have hstored (payload : Bytes) : ∃ outputReference stored,
      (onObjects (ObjectResultStore.putResult env.sha256 payload)).exec w =
        (.ok outputReference, { w with objects := stored }) := by
    obtain ⟨outputReference, stored, hput⟩ := putResult_returns hhex payload w.objects
    exact ⟨outputReference, stored, by rw [exec_onObjects, hput]⟩
  by_cases henabled : writeBackEnabled context = some (.bool true)
  · rw [henabled]
    constructor
    · rintro ⟨payload, hpayload, h⟩
      obtain ⟨outputReference, stored, hobjects⟩ := hstored payload
      rw [hands_bind_of_ok hobjects] at h
      dsimp only at h
      rw [gateApproved_hands_iff (w := { w with objects := stored }) hsnapshot hclock,
        effectRequest_returns_iff hhex] at h
      obtain ⟨⟨hrow, hparameters⟩, hauthorized⟩ := h
      exact ⟨⟨⟨payload, hpayload⟩, hrow, hparameters⟩, Bool.eq_true_of_not_eq_false haccepted,
        (not_not.1 hrules).symm, henabled, hauthorized⟩
    · rintro ⟨⟨⟨payload, hpayload⟩, hrow, hparameters⟩, happroved⟩
      obtain ⟨outputReference, stored, hobjects⟩ := hstored payload
      refine ⟨payload, hpayload, ?_⟩
      rw [hands_bind_of_ok hobjects]
      dsimp only
      rw [gateApproved_hands_iff (w := { w with objects := stored }) hsnapshot hclock,
        effectRequest_returns_iff hhex]
      exact ⟨⟨hrow, hparameters⟩, happroved.authorized⟩
  · refine ⟨fun ⟨payload, _, h⟩ => ?_, fun h => absurd h.2.enabled henabled⟩
    obtain ⟨outputReference, stored, hobjects⟩ := hstored payload
    rw [hands_bind_of_ok hobjects] at h
    split at h
    · next he => exact absurd he henabled
    · exact absurd h (not_hands_withheld _ _ _)
    · exact absurd h (not_hands_withheld _ _ _)

/-- What a decision of the gate stands for: a withheld result rejects or persists, and a
request that is handed on is the command's, under an authorizing snapshot. -/
def Decided (env : Environment) (command : WriteBackCommand) (context : ExecutionContext) :
    Decision → Prop
  | .withheld _ _ result => result.status ∈ [.validationRejected, .persisted, .approvalRejected]
  | .handed request snapshot _ =>
    (∃ payload, effectRequest env command payload = .ok request) ∧
      ∃ reading, Authorized snapshot command context reading

theorem gateApproved_decides (payload : Bytes) (outputReference : ObjectReference) :
    Yields (fun _ decision _ => Decided env command context decision)
      (gateApproved env command context payload outputReference) := by
  unfold gateApproved
  refine yields_bind (yields_lift _) fun request => yields_after (ask_quiet _) (fun snapshot => ?_)
    fun _ _ _ _ _ h => h
  refine yields_after (ask_quiet _) (fun reading => ?_) fun _ _ _ _ _ h => h
  refine yields_bind (yields_lift _) fun reasons => ?_
  by_cases hnil : reasons = []
  · rw [if_neg (not_not.2 hnil)]
    refine yields_pure fun t s hfailures r hrequest => ⟨⟨payload, hrequest⟩, reading, ?_⟩
    rwa [hnil, approvalFailures_eq_nil_iff] at hfailures
  · rw [if_pos hnil]
    exact yields_pure fun _ _ _ _ _ => by simp [Decided]

theorem gate_decides : Yields (fun _ decision _ => Decided env command context decision)
    (gate env command context) := by
  have hpersisted : ∀ result : WriteBackExecutionResult,
      result.status ∈ [.validationRejected, .persisted, .approvalRejected] →
      Yields (fun _ decision _ => Decided env command context decision)
        (pure (.withheld none none result) : Action Decision) :=
    fun result h => yields_pure fun _ => h
  unfold gate
  refine yields_after (moves_lift (R := Quiet) _) (fun _ => ?_) fun _ _ _ _ _ h => h
  refine yields_ite (hpersisted _ (by simp)) (yields_ite (hpersisted _ (by simp)) ?_)
  refine yields_after (moves_lift (R := Quiet) _) (fun payload => ?_) fun _ _ _ _ _ h => h
  refine yields_after (onObjects_quiet _) (fun outputReference => ?_) fun _ _ _ _ _ h => h
  split
  · exact gateApproved_decides _ _
  · exact hpersisted _ (by simp)
  · exact hpersisted _ (by simp)

theorem gateApproved_quiet (payload : Bytes) (outputReference : ObjectReference) :
    Moves Quiet (gateApproved env command context payload outputReference) := by
  unfold gateApproved
  exact moves_bind (moves_lift _) fun _ => moves_bind (ask_quiet _) fun _ =>
    moves_bind (ask_quiet _) fun _ => moves_bind (moves_lift _) fun _ =>
      moves_ite (moves_pure _) (moves_pure _)

theorem gate_quiet : Moves Quiet (gate env command context) := by
  unfold gate
  refine moves_bind (moves_lift _) fun _ => moves_ite (moves_pure _) (moves_ite (moves_pure _) ?_)
  refine moves_bind (moves_lift _) fun payload => moves_bind (onObjects_quiet _) fun _ => ?_
  split
  · exact gateApproved_quiet _ _
  · exact moves_pure _
  · exact moves_pure _

theorem finish_result {snapshot : Option AuthorizationSnapshot} {request : Option EffectRequest}
    {result returned : WriteBackExecutionResult} {t : World}
    (h : (finish env command context snapshot request result).exec w = (.ok returned, t)) :
    returned = result := by
  obtain ⟨_, s, -, h⟩ := bind_returns h
  cases h
  rfl

theorem perform_withheld (h : ¬Hands (gate env command context) w) :
    ((perform env command context).after w).adapterCalls = w.adapterCalls ∧
    ∀ result t, (perform env command context).exec w = (.ok result, t) →
      result.status ∈ [.validationRejected, .persisted, .approvalRejected] := by
  have hquiet : Quiet w ((gate env command context).after w) := gate_quiet w
  rw [perform_eq, after]
  rw [after] at hquiet
  rcases hgate : (gate env command context).exec w with ⟨e | decision, s⟩
  · rw [hgate] at hquiet
    rw [exec_bind_of_error hgate]
    refine ⟨by rw [hquiet], fun result t hresult => ?_⟩
    cases hresult
  rw [hgate] at hquiet
  rw [exec_bind_of_ok hgate]
  cases decision with
  | handed request snapshot reference => exact absurd ⟨_, _, _, _, hgate⟩ h
  | withheld snapshot request withheldResult =>
    have hfinish : Quiet s ((finish env command context snapshot request withheldResult).after s) :=
      finish_quiet snapshot request withheldResult s
    constructor
    · have hcalls := trans_of Quiet hquiet hfinish
      rw [conclude]
      change ((finish env command context snapshot request withheldResult).after s).adapterCalls = _
      rw [hcalls]
    · intro result t hresult
      rw [finish_result hresult]
      exact gate_decides w _ _ hgate

/-- An execution whose gate hands on no request calls no adapter, and what it reports, if
it returns, is that the output was rejected or only persisted. -/
theorem execute_withheld (h : ¬Hands (gate env command context) w) :
    ((execute env command context).after w).adapterCalls = w.adapterCalls ∧
    ∀ result t, (execute env command context).exec w = (.ok result, t) →
      result.status ∈ [.validationRejected, .persisted, .approvalRejected] := by
  obtain ⟨hcalls, hstatus⟩ := perform_withheld h
  rw [after] at hcalls ⊢
  rw [execute, exec_bind_of_ok (exec_get _)]
  rcases hperform : (perform env command context).exec w with ⟨e | returned, s⟩
  · rw [hperform] at hcalls
    rw [exec_bind_of_error hperform]
    refine ⟨hcalls, fun result t hresult => ?_⟩
    cases hresult
  · rw [hperform] at hcalls
    rw [exec_bind_of_ok hperform, exec_bind_of_ok (exec_modify _ _)]
    refine ⟨hcalls, fun result t hresult => ?_⟩
    cases hresult
    exact hstatus _ _ hperform

end Outcome

end AiRetrieval.BatchWriteBackExecutor
