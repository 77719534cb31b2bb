import AiRetrieval.Sanity.WithheldResults
import AiRetrieval.Proofs.EffectRecovery

/-! The approval gate of the write-back executor is exact, and which columns the effect
it hands on writes. -/

namespace AiRetrieval

open BatchWriteBackExecutor

namespace InMemoryWriteBackAuthorization

theorem revoked_revokeAll (authority : InMemoryWriteBackAuthorization) (revocations : List String)
    (reference : String) : reference ∈ (authority.revokeAll revocations).revoked ↔
      reference ∈ authority.revoked ∨ reference ∈ revocations := by
  unfold revokeAll
  induction revocations generalizing authority with
  | nil => simp
  | cons first rest ih =>
    rw [List.foldl_cons, ih, revoke, List.mem_insert_iff, List.mem_cons]
    exact ⟨fun h => h.elim (fun h => h.elim (.inr ∘ .inl) .inl) (.inr ∘ .inr),
      fun h => h.elim (.inl ∘ .inr) fun h => h.elim (.inl ∘ .inl) .inr⟩

theorem approvals_revokeAll (authority : InMemoryWriteBackAuthorization)
    (revocations : List String) :
    (authority.revokeAll revocations).approvals = authority.approvals := by
  unfold revokeAll
  induction revocations generalizing authority with
  | nil => rfl
  | cons first rest ih => rw [List.foldl_cons, ih, revoke]

theorem of_keyed (policies : List WriteBackPolicy) (approvals : List ApprovalRecord) :
    ∀ reference approval, (of policies approvals).approvals.get? reference = some approval →
      approval.val.reference = reference := by
  have hfold : ∀ d : Dict String ApprovalRecord,
      (∀ reference approval, d.get? reference = some approval →
        approval.val.reference = reference) →
      ∀ reference approval, (approvals.foldl
        (fun d approval => d.insert approval.val.reference approval) d).get? reference =
          some approval → approval.val.reference = reference := by
    induction approvals with
    | nil => exact fun d h => h
    | cons first rest ih =>
      intro d h
      apply ih
      intro reference approval hget
      rw [Dict.get?_insert] at hget
      split at hget
      · next hkey => rw [← Option.some.inj hget, hkey]
      · exact h reference approval hget
  exact hfold .empty fun _ _ h => by cases h

theorem resolve_standing {policies : List WriteBackPolicy} {approvals : List ApprovalRecord}
    {revocations : List String} {policyVersion approvalReference : String}
    {approval : ApprovalRecord}
    (h : (((of policies approvals).revokeAll revocations).resolve policyVersion
      approvalReference).approval = some approval) (hstanding : approval.val.revoked = false) :
    approvalReference ∉ revocations := by
  intro hrevoked
  obtain ⟨recorded, hget, hrecorded⟩ := Option.map_eq_some_iff.1 h
  rw [approvals_revokeAll] at hget
  have hreference := of_keyed policies approvals approvalReference recorded hget
  have hmem : recorded.val.reference ∈ ((of policies approvals).revokeAll revocations).revoked := by
    rw [revoked_revokeAll, hreference]
    exact .inr hrevoked
  by_cases hflag : recorded.val.revoked = false
  · rw [if_pos ⟨hmem, hflag⟩] at hrecorded
    rw [← hrecorded] at hstanding
    cases hstanding
  · rw [if_neg fun h => hflag h.2] at hrecorded
    rw [← hrecorded] at hstanding
    exact hflag hstanding

end InMemoryWriteBackAuthorization

section Gate

variable (env : Environment) (command : WriteBackCommand) (context : ExecutionContext)
  (policies : List WriteBackPolicy) (approvals : List ApprovalRecord) (revocations : List String)

def currentSnapshot : AuthorizationSnapshot :=
  ((InMemoryWriteBackAuthorization.of policies approvals).revokeAll revocations).resolve
    command.val.policyVersion command.val.approvalReference

/-- An execution is its gate and what follows it. The gate hands a request to the effect
recovery exactly when the item is bound to the context's configuration, the command can be
written as text and every value it compares is approved at the reading; a revoked approval
never is. Otherwise no adapter is called, an execution that returns reports a rejection or a
persisted output, and it does return unless something it needs raises. -/
theorem approval_gate_exact (w : World) (reading : DateTime) (hhex : Hexadecimal env)
    (hbulk : context.path = .bulk)
    (hauthority : env.authorization w.moment command.val.policyVersion
      command.val.approvalReference = .ok (currentSnapshot command policies approvals revocations))
    (hclock : env.clock (w.moment + 1) = .ok reading) :
    perform env command context = gate env command context >>= conclude env command context ∧
    (Hands (gate env command context) w ↔ Bound command context ∧ Expressible env command ∧
      Approved (currentSnapshot command policies approvals revocations) command context reading) ∧
    (Hands (gate env command context) w → command.val.approvalReference ∉ revocations) ∧
    (¬(Bound command context ∧ Expressible env command ∧
        Approved (currentSnapshot command policies approvals revocations) command context
          reading) →
      ((execute env command context).after w).adapterCalls = w.adapterCalls ∧
      (∀ result t, (execute env command context).exec w = (.ok result, t) →
        result.status ∈ [.validationRejected, .persisted, .approvalRejected]) ∧
      (Undisturbed env command context (currentSnapshot command policies approvals revocations)
          reading w →
        ∃ result t, (execute env command context).exec w = (.ok result, t))) := by
  have hands := gate_hands_iff hhex hbulk hauthority hclock
  refine ⟨perform_eq env command context, hands, fun h => ?_, fun h => ?_⟩
  · obtain ⟨policy, approval, -, happroval, hgrants⟩ := (hands.1 h).2.2.authorized
    exact InMemoryWriteBackAuthorization.resolve_standing happroval hgrants.standing
  · have hwithheld : ¬Hands (gate env command context) w := fun hhands => h (hands.1 hhands)
    obtain ⟨hcalls, hstatus⟩ := execute_withheld hwithheld
    exact ⟨hcalls, hstatus, fun hundisturbed =>
      execute_returns hhex hbulk hauthority hclock hundisturbed hwithheld⟩

end Gate

namespace Sample

def enabledContext (reference : ConfigurationReference) : ExecutionContext :=
  { context with
    configuration :=
      ⟨reference, [("write_back", .mapping [("enabled", .bool true)])], none, some "rules-1"⟩ }

def scope : WriteBackScope := ⟨{
  jobId := "bulk-job"
  itemScope := .singleton "item-1"
  dataScope := "tenant-1"
  targetDataset := "results"
  rowScope := "id=item-1"
  columns := .singleton "label"
  mutationType := .update
  validationRulesVersion := "rules-1"
  configurationVersion := "1"
  validFrom := time 0
  validUntil := time 10 }, by decide +kernel⟩

def policy : WriteBackPolicy := ⟨{ version := "policy-1", scope := scope }, by decide +kernel⟩

def approval : ApprovalRecord := ⟨{
  reference := "approval-1"
  authority := "owner"
  policyVersion := "policy-1"
  scope := scope }, by decide +kernel⟩

/-- The command for the sample item that writes the given columns. -/
def writeBack (parameters : List (String × FrozenValue))
    (h : (∀ name ∈ parameters.map Prod.fst, blank name = false) ∧
      (parameters.map Prod.fst).Nodup) : WriteBackCommand := ⟨{
  claim := claimOf 1 10
  validation := ⟨{ outcome := ⟨true, [], [], "rules-1"⟩ }, rfl⟩
  policyVersion := "policy-1"
  approvalReference := "approval-1"
  dataScope := "tenant-1"
  targetDataset := "results"
  rowScope := "id=item-1"
  columns := .singleton "label"
  mutationType := .update
  parameters := parameters
  boundary := .shared }, by
    simp only [WriteBackCommand.postInit, except_seq_eq_ok, require_eq_ok]
    exact ⟨by decide +kernel, by decide +kernel, by decide +kernel, by decide +kernel, h⟩⟩

def labelled : WriteBackCommand := writeBack [("label", .str "ok")] (by decide +kernel)

/-- The application whose authority holds the sample policy and approval, after the
revocations. -/
def authorizing (revocations : List String) : Environment :=
  { environment 5 with
    authorization := fun _ version reference =>
      .ok (((InMemoryWriteBackAuthorization.of [policy] [approval]).revokeAll revocations).resolve
        version reference) }

theorem hexadecimal (revocations : List String) : Hexadecimal (authorizing revocations) :=
  fun _ => (by decide +kernel : blank digest = false)

theorem points_encoded (revocations : List String) (value : String) :
    ((authorizing revocations).points value).string?.isSome = true := by
  change (CodeText.ofString value).string?.isSome = true
  rw [CodeText.string?_ofString]
  rfl

section Commands

variable (parameters : List (String × FrozenValue))
  (h : (∀ name ∈ parameters.map Prod.fst, blank name = false) ∧ (parameters.map Prod.fst).Nodup)

theorem expressible (revocations : List String) :
    Expressible (authorizing revocations) (writeBack parameters h) where
  output := ⟨_, rfl⟩
  rowScope := points_encoded revocations _
  parameters _ _ := ⟨_, rfl⟩

theorem approved (reference : ConfigurationReference) (hversion : reference.val.version = "1") :
    Approved (currentSnapshot (writeBack parameters h) [policy] [approval] [])
      (writeBack parameters h) (enabledContext reference) (time 5) where
  accepted := rfl
  rules := rfl
  enabled := rfl
  authorized := ⟨policy, approval, by rfl, by rfl, rfl, rfl, rfl, rfl, rfl,
    ⟨rfl, rfl, rfl, rfl, rfl, rfl, rfl, rfl, hversion.symm⟩, by decide, by decide⟩

theorem undisturbed (revocations : List String) :
    Undisturbed (authorizing revocations) (writeBack parameters h) (enabledContext configuration)
      (currentSnapshot (writeBack parameters h) [policy] [approval] revocations) (time 5)
      .empty where
  bound := rfl
  output _ _ := ⟨_, rfl⟩
  rowScope := points_encoded revocations _
  parameters _ _ _ := ⟨_, rfl⟩
  reading _ _ _ := rfl
  rulesVersion := by
    change blank "rules-1" = false
    decide +kernel
  reasonCodes haccepted := by cases haccepted
  audited _ := ⟨time 5, rfl, rfl⟩
  auditedGated _ := ⟨time 5, rfl, rfl⟩
  sink _ _ happended := by cases happended

end Commands

end Sample

/-- The approved command of the item's own configuration reaches the recovery; once its
approval is revoked, the execution reports a result and calls no adapter. -/
theorem approval_gate_exact_sample :
    Hands (gate (Sample.authorizing []) Sample.labelled
      (Sample.enabledContext Sample.configuration)) .empty ∧
    ∃ result t, (execute (Sample.authorizing ["approval-1"]) Sample.labelled
        (Sample.enabledContext Sample.configuration)).exec .empty = (.ok result, t) ∧
      result.status ∈ [.validationRejected, .persisted, .approvalRejected] ∧
      t.adapterCalls = [] := by
  constructor
  · exact (approval_gate_exact (Sample.authorizing []) Sample.labelled
      (Sample.enabledContext Sample.configuration) [Sample.policy] [Sample.approval] [] .empty
      (Sample.time 5) (Sample.hexadecimal []) rfl rfl rfl).2.1.2
      ⟨rfl, Sample.expressible _ _ [], Sample.approved _ _ Sample.configuration rfl⟩
  · obtain ⟨-, hands, hstanding, hwithheld⟩ :=
      approval_gate_exact (Sample.authorizing ["approval-1"])
      Sample.labelled (Sample.enabledContext Sample.configuration) [Sample.policy] [Sample.approval]
      ["approval-1"] .empty (Sample.time 5) (Sample.hexadecimal ["approval-1"]) rfl rfl rfl
    obtain ⟨hcalls, hstatus, hreturns⟩ := hwithheld fun h =>
      hstanding (hands.2 h) (List.mem_singleton.2 rfl)
    obtain ⟨result, t, hexecuted⟩ := hreturns (Sample.undisturbed _ _ ["approval-1"])
    refine ⟨result, t, hexecuted, hstatus _ _ hexecuted, ?_⟩
    generalize execute (Sample.authorizing ["approval-1"]) Sample.labelled
      (Sample.enabledContext Sample.configuration) = x at hexecuted hcalls
    rw [Program.after, hexecuted] at hcalls
    exact hcalls

namespace Sample

/-- The application where `repr` raises for an integer of too many digits. -/
def digitBound : Environment :=
  { authorizing [] with
    repr := fun
      | .int value =>
        if value.natAbs < 10 ^ CanonicalPayload.maxStrDigits then
          .ok (toString value)
        else .error CanonicalPayload.tooManyDigits
      | _ => .ok "'ok'" }

def widened (value : Int) : WriteBackCommand :=
  writeBack [("label", .int value)]
    (by decide +kernel : (∀ name ∈ ["label"], blank name = false) ∧ ["label"].Nodup)

theorem widened_inexpressible {value : Int}
    (h : 10 ^ CanonicalPayload.maxStrDigits ≤ value.natAbs) :
    ¬Expressible digitBound (widened value) := by
  intro hexpressible
  obtain ⟨text, htext⟩ := hexpressible.parameters ("label", .int value) (List.mem_singleton.2 rfl)
  dsimp only [digitBound, FrozenValue.object] at htext
  rw [if_neg (not_lt.2 h)] at htext
  cases htext

end Sample

/-- A command that meets every condition the gate compares is refused with an exception when
the context is of another profile than the item; and so is one of the item's own profile
whose parameter has too many digits. -/
theorem approved_commands_refused :
    (¬∀ (env : Environment) (command : WriteBackCommand) (context : ExecutionContext)
      (policies : List WriteBackPolicy) (approvals : List ApprovalRecord)
      (revocations : List String) (w : World) (reading : DateTime), Hexadecimal env →
      context.path = .bulk →
      env.authorization w.moment command.val.policyVersion command.val.approvalReference =
        .ok (currentSnapshot command policies approvals revocations) →
      env.clock (w.moment + 1) = .ok reading →
      (Hands (gate env command context) w ↔
        Approved (currentSnapshot command policies approvals revocations) command context
          reading)) ∧
    ¬∀ (env : Environment) (command : WriteBackCommand) (context : ExecutionContext)
      (policies : List WriteBackPolicy) (approvals : List ApprovalRecord)
      (revocations : List String) (w : World) (reading : DateTime), Hexadecimal env →
      context.path = .bulk →
      env.authorization w.moment command.val.policyVersion command.val.approvalReference =
        .ok (currentSnapshot command policies approvals revocations) →
      env.clock (w.moment + 1) = .ok reading → Bound command context →
      (Hands (gate env command context) w ↔
        Approved (currentSnapshot command policies approvals revocations) command context
          reading) := by
  constructor
  · intro h
    have hands := (h (Sample.authorizing []) Sample.labelled
      (Sample.enabledContext ⟨⟨"other", "1"⟩, by decide +kernel⟩) [Sample.policy] [Sample.approval]
      [] .empty (Sample.time 5) (Sample.hexadecimal []) rfl rfl rfl).2 (Sample.approved _ _ _ rfl)
    have hbound := ((gate_hands_iff (Sample.hexadecimal []) rfl rfl rfl).1 hands).1
    exact absurd (congrArg (·.val.profileId) hbound) (by decide +kernel)
  · intro h
    obtain ⟨value, hvalue⟩ : ∃ value : Int, 10 ^ CanonicalPayload.maxStrDigits ≤ value.natAbs := by
      generalize 10 ^ CanonicalPayload.maxStrDigits = digits
      exact ⟨digits, (Int.natAbs_natCast digits).ge⟩
    have hhex : Hexadecimal Sample.digitBound := Sample.hexadecimal []
    have hands := (h Sample.digitBound (Sample.widened value)
      (Sample.enabledContext Sample.configuration) [Sample.policy] [Sample.approval] [] .empty
      (Sample.time 5) hhex rfl rfl rfl rfl).2 (Sample.approved _ _ Sample.configuration rfl)
    exact Sample.widened_inexpressible hvalue
      ((gate_hands_iff hhex rfl rfl rfl).1 hands).2.1

section Columns

def ApprovedColumn (snapshot : AuthorizationSnapshot) (name : String) : Prop :=
  ∃ policy approval, snapshot.policy = some policy ∧ snapshot.approval = some approval ∧
    name ∈ policy.val.scope.val.columns.items ∧ name ∈ approval.val.scope.val.columns.items

/-- The effect of a request that passes the gate writes approved columns only, exactly
when the command's parameters are named after its columns. -/
theorem approved_columns_iff {env : Environment} {command : WriteBackCommand}
    {context : ExecutionContext} {request : EffectRequest} {snapshot : AuthorizationSnapshot}
    {reference : ObjectReference} {w t : World}
    (h : (gate env command context).exec w = (.ok (.handed request snapshot reference), t)) :
    (∀ name ∈ request.val.effect.parameters.map Prod.fst, ApprovedColumn snapshot name) ↔
      ∀ name ∈ command.val.parameters.map Prod.fst, name ∈ command.val.columns.items := by
  obtain ⟨⟨payload, hrequest⟩, reading, policy, approval, hpolicy, happroval, hgrants⟩ :=
    gate_decides w _ _ h
  have hparameters := (effectRequest_made hrequest).2
  have hcolumn : ∀ name, ApprovedColumn snapshot name ↔ name ∈ command.val.columns.items := by
    intro name
    rw [← hgrants.covers.columns]
    constructor
    · rintro ⟨policy', approval', hpolicy', -, hname, -⟩
      rw [hpolicy] at hpolicy'
      cases hpolicy'
      exact hname
    · intro hname
      exact ⟨policy, approval, hpolicy, happroval, hname, hgrants.scopes ▸ hname⟩
  rw [hparameters]
  exact forall₂_congr fun name _ => hcolumn name

end Columns

namespace Sample

theorem handed (parameters : List (String × FrozenValue))
    (h : (∀ name ∈ parameters.map Prod.fst, blank name = false) ∧
      (parameters.map Prod.fst).Nodup) :
    Hands (gate (authorizing []) (writeBack parameters h) (enabledContext configuration)) .empty :=
  (gate_hands_iff (hexadecimal []) rfl rfl rfl).2
    ⟨rfl, expressible parameters h [], approved parameters h configuration rfl⟩

end Sample

/-- An approved request writes the column `other`, approved by nobody. -/
theorem stray_column_written :
    ¬∀ (env : Environment) (command : WriteBackCommand) (context : ExecutionContext)
      (request : EffectRequest) (snapshot : AuthorizationSnapshot) (reference : ObjectReference)
      (w t : World),
      (gate env command context).exec w = (.ok (.handed request snapshot reference), t) →
      ∀ name ∈ request.val.effect.parameters.map Prod.fst, ApprovedColumn snapshot name := by
  intro h
  obtain ⟨request, snapshot, reference, t, hands⟩ := Sample.handed [("other", .str "ok")]
    (by decide +kernel)
  obtain ⟨⟨payload, hrequest⟩, reading, policy, approval, hpolicy, happroval, hgrants⟩ :=
    gate_decides _ _ _ hands
  have hname : "other" ∈ request.val.effect.parameters.map Prod.fst := by
    rw [(effectRequest_made hrequest).2]
    exact List.mem_singleton.2 rfl
  obtain ⟨policy', -, hpolicy', -, hcolumn, -⟩ := h _ _ _ _ _ _ _ _ hands "other" hname
  rw [hpolicy] at hpolicy'
  cases hpolicy'
  rw [hgrants.covers.columns] at hcolumn
  exact absurd hcolumn (by decide +kernel)

/-- The request for the sample command writes `label`. -/
theorem approved_columns_iff_sample : ∃ request snapshot reference t,
    (gate (Sample.authorizing []) Sample.labelled
      (Sample.enabledContext Sample.configuration)).exec .empty =
        (.ok (.handed request snapshot reference), t) ∧
    ∀ name ∈ (request : EffectRequest).val.effect.parameters.map Prod.fst,
      ApprovedColumn snapshot name := by
  obtain ⟨request, snapshot, reference, t, hands⟩ := Sample.handed [("label", .str "ok")]
    (by decide +kernel)
  exact ⟨request, snapshot, reference, t, hands, (approved_columns_iff hands).2 (by decide +kernel)⟩

end AiRetrieval
