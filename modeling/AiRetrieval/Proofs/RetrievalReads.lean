import AiRetrieval.Proofs.LeaseExclusion
import AiRetrieval.Proofs.OrderedResults
import AiRetrieval.Sanity.SubmittedReads

/-! What the read path lets through: after any run of registrations and reads, which plans are
submitted to the adapter, which results are returned, which rejections are audited, and which
of a plan's bounds are kept. -/

namespace AiRetrieval

open Program Normalization

section Registrations

variable (ports : DataAccessPorts)

theorem exec_register (plan : QueryPlan) (s : DataAccessState) :
    dataAccessMachine ports (.register plan) s = match s.plans.register plan with
      | .ok plans => (.ok .registered, { s with plans := plans })
      | .error e => (.error (.raised e), s) := by
  unfold dataAccessMachine DataAccessCall.program
  simp only
  rw [exec_bind, exec_get]
  simp only
  rw [exec_bind, exec_liftExcept]
  cases s.plans.register plan with
  | error e => rfl
  | ok plans => rfl

theorem exec_read (reference : QueryPlanReference) (parameters : Parameters)
    (context : ExecutionContext) (s : DataAccessState) :
    dataAccessMachine ports (.executeRead reference parameters context) s =
      (((DataAccessLayer.executeRead ports reference parameters context).exec s).1.map .result,
        ((DataAccessLayer.executeRead ports reference parameters context).exec s).2) := by
  unfold dataAccessMachine DataAccessCall.program
  exact exec_map _ _ _

theorem read_plans (reference : QueryPlanReference) (parameters : Parameters)
    (context : ExecutionContext) (s : DataAccessState) :
    ((DataAccessLayer.executeRead ports reference parameters context).exec s).2.plans =
      s.plans := by
  have h := DataAccessLayer.executeRead_outcome ports context s reference parameters
  generalize (DataAccessLayer.executeRead ports reference parameters context).exec s = outcome at h
  cases h with
  | refused => rfl
  | secured => rfl
  | submitted => rfl

theorem firstRegistered_register (plan : QueryPlan) (calls : List DataAccessCall)
    (reference : QueryPlanReference) : firstRegistered (.register plan :: calls) reference =
      (if plan.val.reference = reference then some plan else none).or
        (firstRegistered calls reference) := by
  unfold firstRegistered
  simp only [List.filterMap_cons, List.find?_cons]
  by_cases h : plan.val.reference = reference <;> simp [h]

theorem plans_step (call : DataAccessCall) (s : DataAccessState) (reference : QueryPlanReference) :
    ((dataAccessMachine ports call s).2.plans.get? reference) =
      (s.plans.get? reference).or (firstRegistered [call] reference) := by
  cases call with
  | executeRead other parameters context =>
    rw [exec_read, read_plans]
    exact (Option.or_none).symm
  | register plan =>
    rw [exec_register, firstRegistered_register]
    simp only [show firstRegistered [] reference = none from rfl, Option.or_none]
    rcases hregister : s.plans.register plan with e | after
    · have hsome := register_refused hregister
      by_cases href : plan.val.reference = reference
      · subst href
        obtain ⟨existing, hexisting⟩ := Option.isSome_iff_exists.1 hsome
        simp [hexisting]
      · simp [href]
    · exact register_get? hregister reference

theorem run_plans (calls : List DataAccessCall) (reference : QueryPlanReference) :
    ((dataAccessMachine ports).run .empty calls).plans.get? reference =
      firstRegistered calls reference := by
  have hrun : ∀ s : DataAccessState, ((dataAccessMachine ports).run s calls).plans.get? reference =
      (s.plans.get? reference).or (firstRegistered calls reference) := by
    induction calls with
    | nil =>
      intro s
      exact (Option.or_none).symm
    | cons call rest ih =>
      intro s
      rw [Machine.run_cons, ih, plans_step, Option.or_assoc]
      congr 1
      cases call with
      | register plan =>
        rw [firstRegistered_register, firstRegistered_register plan rest]
        simp [show firstRegistered [] reference = none from rfl]
      | executeRead => rfl
  rw [hrun]
  rfl

theorem firstRegistered_reference {calls : List DataAccessCall} {reference : QueryPlanReference}
    {plan : QueryPlan} (h : firstRegistered calls reference = some plan) :
    plan.val.reference = reference := by
  simpa using List.find?_some h

end Registrations

section Allowed

/-- A capability the plan declares, or one a node of its tree needs. -/
inductive Needs (plan : QueryPlan) : String → Prop where
  | declared {capability : String} (h : capability ∈ plan.val.requiredCapabilities.items) :
      Needs plan capability
  | operation {node : OperationNode} (h : node.Within plan.val.operation) :
      Needs plan ("operation:" ++ node.kind.value)

theorem mem_requiredCapabilities {plan : QueryPlan} {capability : String} :
    capability ∈ DataAccessLayer.requiredCapabilities plan ↔ Needs plan capability := by
  unfold DataAccessLayer.requiredCapabilities
  rw [List.mem_append, List.mem_map]
  constructor
  · rintro (h | ⟨kind, hkind, rfl⟩)
    · exact .declared h
    · obtain ⟨node, hnode, rfl⟩ := OperationNode.mem_kinds hkind
      exact .operation hnode
  · intro h
    cases h with
    | declared h => exact .inl h
    | operation h => exact .inr ⟨_, OperationNode.kind_mem_kinds h, rfl⟩

/-- What is submitted by a read after `calls`, for the answers given from `moment` on. -/
structure MaySubmit (ports : DataAccessPorts) (calls : List DataAccessCall) (moment : Nat)
    (reference : QueryPlanReference) (parameters : Parameters) (context : ExecutionContext)
    (submission : Submission) : Prop where
  registered : firstRegistered calls reference = some submission.plan
  referenced : submission.plan.val.reference = reference
  retrieval : ∀ node : OperationNode, node.Within submission.plan.val.operation →
    node.kind ∈ retrievalOperations
  contract : ∀ capability, Needs submission.plan capability → capability ∈ ports.contract.items
  adapter : ∃ available, ports.capabilities moment = .ok available ∧
    ∀ capability, Needs submission.plan capability → capability ∈ available.items
  ordered : submission.plan.val.intrinsicallyOrdered = true ∨
    submission.plan.val.deterministicOrder ≠ []
  interactive : submission.context = context ∧ context.path = .interactive
  binds : submission.parameters = parameters ∧ Binds submission.plan parameters
  granted : ∃ credential, DataAccessLayer.credential? context = some credential ∧
    ports.authorizeRead (moment + 1) credential submission.plan context = .ok submission.access ∧
    submission.access.allowed = true ∧ submission.access.credentialId = credential

/-- A read after `calls` submits at most one plan, which may be submitted; of a plan with a
mutation in it, it submits nothing and raises the rejection. -/
structure ReadAllowed (ports : DataAccessPorts) (calls : List DataAccessCall)
    (reference : QueryPlanReference) (parameters : Parameters) (context : ExecutionContext)
    (before : DataAccessState) (reply : Except DataAccessError DataAccessReply)
    (after : DataAccessState) : Prop where
  submits : after.submissions = before.submissions ∨ ∃ submission,
    after.submissions = before.submissions ++ [submission] ∧
    MaySubmit ports calls before.moment reference parameters context submission
  blocks : ∀ plan, firstRegistered calls reference = some plan →
    ∀ node : OperationNode, node.Within plan.val.operation → node.kind ∈ mutationOperations →
      after.submissions = before.submissions ∧
      reply = .error (.rejection { code := .mutationBlocked, message := "mutation_operation" })

/-- Only retrieval plans reach the adapter, whatever was registered and read before, and whatever
the adapter, the access policy and the audit sink answer. -/
theorem only_retrieval_plans_submitted (ports : DataAccessPorts) (calls : List DataAccessCall)
    (reference : QueryPlanReference) (parameters : Parameters) (context : ExecutionContext) :
    ReadAllowed ports calls reference parameters context
      ((dataAccessMachine ports).run .empty calls)
      (dataAccessMachine ports (.executeRead reference parameters context)
        ((dataAccessMachine ports).run .empty calls)).1
      (dataAccessMachine ports (.executeRead reference parameters context)
        ((dataAccessMachine ports).run .empty calls)).2 := by
  have hplans := run_plans ports calls reference
  generalize (dataAccessMachine ports).run .empty calls = s at hplans
  rw [exec_read]
  have h := DataAccessLayer.executeRead_outcome ports context s reference parameters
  generalize (DataAccessLayer.executeRead ports reference parameters context).exec s = outcome at h
  have hmutation : ∀ plan, firstRegistered calls reference = some plan →
      ∀ node : OperationNode, node.Within plan.val.operation → node.kind ∈ mutationOperations →
        s.plans.get? reference = some plan ∧
          classifyOperation plan.val.operation = .mutation := by
    intro plan hplan node hnode hkind
    exact ⟨hplans.trans hplan, classifyOperation_mutation.2 ⟨node, hnode, hkind⟩⟩
  cases h with
  | refused error moment plain inadmissible safe =>
    refine ⟨.inl rfl, fun plan hplan node hnode hkind => ?_⟩
    obtain ⟨hresolved, hclass⟩ := hmutation plan hplan node hnode hkind
    exact absurd hclass (safe plan hresolved)
  | secured plan code reason access moment clock resolved security mutation inadmissible =>
    refine ⟨.inl rfl, fun other hother node hnode hkind => ?_⟩
    obtain ⟨hresolved, hclass⟩ := hmutation other hother node hnode hkind
    obtain rfl := Option.some.inj (resolved.symm.trans hresolved)
    obtain ⟨rfl, rfl⟩ := mutation hclass
    exact ⟨rfl, rfl⟩
  | submitted plan access admissible =>
    have hregistered := hplans.symm.trans admissible.resolved
    obtain ⟨available, havailable, hadapter⟩ := admissible.adapter
    refine ⟨.inr ⟨_, rfl, ?_⟩, fun other hother node hnode hkind => ?_⟩
    · exact {
        registered := hregistered
        referenced := firstRegistered_reference hregistered
        retrieval := admissible.retrieval
        contract := fun capability h =>
          admissible.contract capability (mem_requiredCapabilities.2 h)
        adapter := ⟨available, havailable, fun capability h =>
          hadapter capability (mem_requiredCapabilities.2 h)⟩
        ordered := admissible.ordered
        interactive := ⟨rfl, admissible.interactive⟩
        binds := ⟨rfl, admissible.binds⟩
        granted := admissible.granted }
    · obtain ⟨hresolved, hclass⟩ := hmutation other hother node hnode hkind
      obtain rfl := Option.some.inj (admissible.resolved.symm.trans hresolved)
      rw [classifyOperation_retrieval.2 admissible.retrieval] at hclass
      cases hclass

end Allowed

section Returned

theorem DataAccessLayer.admissible_unique {ports : DataAccessPorts} {context : ExecutionContext}
    {s : DataAccessState} {reference : QueryPlanReference} {parameters : Parameters}
    {plan other : QueryPlan} {access decision : DatabaseAccessDecision}
    (h : Admissible ports context s reference parameters plan access)
    (h' : Admissible ports context s reference parameters other decision) :
    plan = other ∧ access = decision := by
  obtain rfl := Option.some.inj (h.resolved.symm.trans h'.resolved)
  obtain ⟨credential, hcredential, hgranted, -⟩ := h.granted
  obtain ⟨credential', hcredential', hgranted', -⟩ := h'.granted
  obtain rfl := Option.some.inj (hcredential.symm.trans hcredential')
  exact ⟨rfl, Except.ok.inj (hgranted.symm.trans hgranted')⟩

theorem answered_eq_ok {ports : DataAccessPorts} {submission : Submission} {moment : Nat}
    {result : NormalizedResult} :
    DataAccessLayer.answered ports submission moment = .ok result ↔
      ∃ raw, ports.executeRead moment submission = .ok raw ∧
        normalizeResult ports.runtime raw submission.plan
          (DataAccessLayer.protectionOf submission.access) ports.adapterVersion = .ok result := by
  unfold DataAccessLayer.answered
  cases ports.executeRead moment submission with
  | error e => simp
  | ok raw =>
    simp only [Except.ok.injEq, exists_eq_left']
    cases normalizeResult ports.runtime raw submission.plan _ ports.adapterVersion with
    | ok other => simp
    | error failure => cases failure <;> simp

/-- A result that is returned: of a plan that was admissible, made of the rows the adapter
answered, each with the cells of its columns, and with the protection that was granted. -/
structure Returned (ports : DataAccessPorts) (s : DataAccessState)
    (reference : QueryPlanReference) (parameters : Parameters) (context : ExecutionContext)
    (result : NormalizedResult) (plan : QueryPlan) (access : DatabaseAccessDecision)
    (raw : RawRelationalResult) : Prop where
  admissible : DataAccessLayer.Admissible ports context s reference parameters plan access
  answered : ports.executeRead (s.moment + 2) ⟨plan, parameters, access, context⟩ = .ok raw
  normalized : normalizeResult ports.runtime raw plan (DataAccessLayer.protectionOf access)
    ports.adapterVersion = .ok result

theorem normalizeResult_rows {runtime : RelationalRuntime} {raw : RawRelationalResult}
    {plan : QueryPlan} {protection : ProtectionMetadata} {adapterVersion : String}
    {result : NormalizedResult}
    (h : normalizeResult runtime raw plan protection adapterVersion = .ok result) :
    result.rows.length = raw.rows.length ∧
      ∀ row ∈ result.rows, FitsColumns raw.columns row.values := by
  obtain ⟨rows, indexes, hrows, -, -, hordered⟩ :=
    rows_ordered runtime raw plan protection adapterVersion result h
  obtain ⟨normal, hnormal, -⟩ := normalizeResult_eq_ok h
  have hsame : normal = rows := by
    unfold normalizeRows at hnormal
    split at hnormal
    · rw [hrows] at hnormal
      exact (Except.ok.inj hnormal).symm
    · cases hnormal
  subst hsame
  refine ⟨?_, fun row hrow => normalizeRows_fits hnormal row (hordered.perm.mem_iff.1 hrow)⟩
  rw [hordered.perm.length_eq]
  exact (except_mapM_ok_iff.1 hrows).length_eq.symm

/-- A read returns a result exactly where every check admits its plan and the adapter answers
rows that normalize; the result has the adapter's rows, each fitting the columns, and names
protection of both kinds. -/
theorem read_returned (ports : DataAccessPorts) (s : DataAccessState)
    (reference : QueryPlanReference) (parameters : Parameters) (context : ExecutionContext)
    (result : NormalizedResult) :
    ((dataAccessMachine ports (.executeRead reference parameters context) s).1 =
        .ok (.result result) ↔
      ∃ plan access raw, Returned ports s reference parameters context result plan access raw) ∧
    ∀ plan access raw, Returned ports s reference parameters context result plan access raw →
      result.rows.length = raw.rows.length ∧
      (∀ row ∈ result.rows, FitsColumns raw.columns row.values) ∧
      result.protection.transportEncryption ≠ "" ∧ result.protection.persistenceEncryption ≠ "" ∧
      blank result.protection.serviceIdentity = false := by
  constructor
  · rw [exec_read]
    have h := DataAccessLayer.executeRead_outcome ports context s reference parameters
    generalize (DataAccessLayer.executeRead ports reference parameters context).exec s = outcome
      at h
    cases h with
    | refused error moment plain inadmissible safe =>
      simp only [Except.map, reduceCtorEq, false_iff, not_exists]
      intro plan access raw hreturned
      exact inadmissible plan access hreturned.admissible
    | secured plan code reason access moment clock resolved security mutation inadmissible =>
      simp only [Except.map, reduceCtorEq, false_iff, not_exists]
      intro other access raw hreturned
      exact inadmissible other access hreturned.admissible
    | submitted plan access admissible =>
      have hmap : ∀ answer : Except DataAccessError NormalizedResult,
          answer.map DataAccessReply.result = .ok (.result result) ↔ answer = .ok result := by
        intro answer
        cases answer <;> simp [Except.map]
      rw [hmap, answered_eq_ok]
      constructor
      · rintro ⟨raw, hraw, hresult⟩
        exact ⟨plan, access, raw, admissible, hraw, hresult⟩
      · rintro ⟨other, decision, raw, hadmissible, hraw, hresult⟩
        obtain ⟨rfl, rfl⟩ := DataAccessLayer.admissible_unique admissible hadmissible
        exact ⟨raw, hraw, hresult⟩
  · intro plan access raw hreturned
    obtain ⟨hlength, hfits⟩ := normalizeResult_rows hreturned.normalized
    have hprotection : result.protection = DataAccessLayer.protectionOf access := by
      obtain ⟨rows, -, h⟩ := except_bind_eq_ok.1 hreturned.normalized
      obtain ⟨ordered, -, h⟩ := except_bind_eq_ok.1 h
      cases h
      rfl
    obtain ⟨htransport, hpersistence⟩ := hreturned.admissible.protectedBy
    rw [hprotection]
    refine ⟨hlength, hfits, ?_, ?_, hreturned.admissible.identified⟩
    · exact of_decide_eq_false htransport
    · exact of_decide_eq_false hpersistence

end Returned

section Audits

/-- What the audit is told of a security rejection: whose request it was, the plan it named and
the reason it was rejected for. -/
def rejectionAudited :
    Transition DataAccessCall (Except DataAccessError DataAccessReply) DataAccessState →
      List (String × QueryPlanReference × String)
  | ⟨_, .executeRead reference _ context, .error (.rejection failure), _⟩ =>
    if failure.code ∈ DataAccessLayer.audited then
      [(context.correlationId.val, reference, failure.message)]
    else []
  | _ => []

def PlansReferenced (plans : QueryPlanRegistry) : Prop :=
  ∀ reference plan, plans.get? reference = some plan → plan.val.reference = reference

def SecurityAuditEvent.rejection (event : SecurityAuditEvent) :
    String × QueryPlanReference × String :=
  (event.correlationId, event.planReference, event.reasonCode)

/-- The events are the rejections in `log`, and nothing in them tells of an accepted read. -/
structure AuditsKept (s : DataAccessState) (log : List (String × QueryPlanReference × String)) :
    Prop where
  referenced : PlansReferenced s.plans
  events : s.events.map (·.rejection) = log
  rejected : ∀ event ∈ s.events, event.decision = "rejected" ∧ event.redactedDetails = "[REDACTED]"

theorem register_referenced {registry after : QueryPlanRegistry} {plan : QueryPlan}
    (h : registry.register plan = .ok after) (hkept : PlansReferenced registry) :
    PlansReferenced after := by
  intro reference other hother
  rw [register_get? h] at hother
  rcases hfound : registry.get? reference with _ | found
  · rw [hfound, Option.none_or] at hother
    split at hother
    · next href =>
      cases hother
      exact href
    · cases hother
  · rw [hfound, Option.some_or, Option.some.injEq] at hother
    subst hother
    exact hkept reference found hfound

theorem audits_step (ports : DataAccessPorts) (call : DataAccessCall) (s : DataAccessState)
    (log : List (String × QueryPlanReference × String)) (h : AuditsKept s log) :
    AuditsKept (dataAccessMachine ports call s).2
      (log ++ rejectionAudited ((dataAccessMachine ports).transition s call)) := by
  unfold Machine.transition
  cases call with
  | register plan =>
    rw [exec_register]
    rcases hregister : s.plans.register plan with e | after
    · simpa [rejectionAudited] using h
    · simp only [rejectionAudited, List.append_nil]
      exact ⟨register_referenced hregister h.referenced, h.events, h.rejected⟩
  | executeRead reference parameters context =>
    rw [exec_read]
    have houtcome := DataAccessLayer.executeRead_outcome ports context s reference parameters
    generalize (DataAccessLayer.executeRead ports reference parameters context).exec s = outcome
      at houtcome
    cases houtcome with
    | refused error moment plain inadmissible safe =>
      have hnone : rejectionAudited ⟨s, .executeRead reference parameters context,
          .error error, { s with moment := moment }⟩ = [] := by
        cases error with
        | raised e => rfl
        | rejection failure => exact if_neg (plain failure rfl)
      simp only [Except.map, hnone, List.append_nil]
      exact ⟨h.referenced, h.events, h.rejected⟩
    | secured plan code reason access moment clock resolved security mutation inadmissible =>
      simp only [Except.map, rejectionAudited, if_pos security]
      refine ⟨h.referenced, ?_, ?_⟩
      · rw [List.map_append, h.events]
        simp [SecurityAuditEvent.rejection, DataAccessLayer.rejectionEvent,
          h.referenced reference plan resolved]
      · intro event hevent
        rcases List.mem_append.1 hevent with hevent | hevent
        · exact h.rejected event hevent
        · obtain rfl := List.mem_singleton.1 hevent
          exact ⟨rfl, rfl⟩
    | submitted plan access admissible =>
      have hnone : rejectionAudited ⟨s, .executeRead reference parameters context,
          (DataAccessLayer.answered ports ⟨plan, parameters, access, context⟩ (s.moment + 2)).map
            .result, { s with
          moment := s.moment + 3
          submissions := s.submissions ++ [⟨plan, parameters, access, context⟩] }⟩ = [] := by
        unfold DataAccessLayer.answered
        cases ports.executeRead (s.moment + 2) ⟨plan, parameters, access, context⟩ with
        | error e => rfl
        | ok raw =>
          simp only
          cases normalizeResult ports.runtime raw plan (DataAccessLayer.protectionOf access)
            ports.adapterVersion with
          | ok result => rfl
          | error failure => cases failure <;> rfl
      rw [hnone, List.append_nil]
      exact ⟨h.referenced, h.events, h.rejected⟩

/-- Over any run, the events handed to the audit sink are the security rejections of the run, in
order and each once, whether the sink took them or not. -/
theorem security_rejections_audited (ports : DataAccessPorts) (calls : List DataAccessCall) :
    ((dataAccessMachine ports).run .empty calls).events.map (·.rejection) =
      ((dataAccessMachine ports).history .empty calls).flatMap rejectionAudited ∧
    ∀ event ∈ ((dataAccessMachine ports).run .empty calls).events,
      event.decision = "rejected" ∧ event.redactedDetails = "[REDACTED]" := by
  have hstart : AuditsKept .empty [] := by
    refine ⟨fun reference plan hplan => ?_, rfl, fun event hevent => ?_⟩
    · cases hplan
    · cases hevent
  have hrun := Machine.run_logged (m := dataAccessMachine ports)
    (P := fun s log _ => AuditsKept s log) rejectionAudited (fun _ => false)
    (fun call s log _ h => audits_step ports call s log h) (n := 0) hstart calls
  exact ⟨hrun.events, hrun.rejected⟩

end Audits

section Bounds

/-- Every dataset a node names, at any depth, is authorized by the plan. -/
def DatasetsAuthorized (plan : QueryPlan) : Prop :=
  ∀ node : OperationNode, node.Within plan.val.operation → ∀ dataset, node.dataset = some dataset →
    dataset ∈ plan.val.authorizedDatasets.items

/-- A read submits nothing outside the datasets of its plan and returns no more than its rows. -/
structure BoundsKept (before : DataAccessState) (reference : QueryPlanReference)
    (reply : Except DataAccessError DataAccessReply) (after : DataAccessState) : Prop where
  datasets : ∀ submission, after.submissions = before.submissions ++ [submission] →
    DatasetsAuthorized submission.plan
  rows : ∀ plan result, before.plans.get? reference = some plan → reply = .ok (.result result) →
    (result.rows.length : Int) ≤ plan.val.maxRows

/-- The bounds are kept exactly where they hold of themselves: the layer compares nothing with
them, so of a plan that passes the other checks the tree must name only its own datasets, and
the adapter must not answer more rows. -/
theorem bounds_kept_iff (ports : DataAccessPorts) (s : DataAccessState)
    (reference : QueryPlanReference) (parameters : Parameters) (context : ExecutionContext) :
    BoundsKept s reference
        (dataAccessMachine ports (.executeRead reference parameters context) s).1
        (dataAccessMachine ports (.executeRead reference parameters context) s).2 ↔
      ∀ plan access, DataAccessLayer.Admissible ports context s reference parameters plan access →
        DatasetsAuthorized plan ∧
        ∀ raw, ports.executeRead (s.moment + 2) ⟨plan, parameters, access, context⟩ = .ok raw →
          (∃ result, normalizeResult ports.runtime raw plan (DataAccessLayer.protectionOf access)
            ports.adapterVersion = .ok result) →
          (raw.rows.length : Int) ≤ plan.val.maxRows := by
  rw [exec_read]
  have h := DataAccessLayer.executeRead_outcome ports context s reference parameters
  generalize (DataAccessLayer.executeRead ports reference parameters context).exec s = outcome at h
  have hunchanged : ∀ (submission : Submission), s.submissions ≠ s.submissions ++ [submission] := by
    intro submission hsame
    exact absurd (congrArg List.length hsame) (by simp)
  cases h with
  | refused error moment plain inadmissible safe =>
    refine ⟨fun _ plan access hadmissible => absurd hadmissible (inadmissible plan access),
      fun _ => ⟨fun submission hsame => absurd hsame (hunchanged submission), ?_⟩⟩
    intro plan result _ hreply
    cases hreply
  | secured plan code reason access moment clock resolved security mutation inadmissible =>
    refine ⟨fun _ plan access hadmissible => absurd hadmissible (inadmissible plan access),
      fun _ => ⟨fun submission hsame => absurd hsame (hunchanged submission), ?_⟩⟩
    intro plan result _ hreply
    cases hreply
  | submitted plan access admissible =>
    constructor
    · intro hkept other decision hadmissible
      obtain ⟨rfl, rfl⟩ := DataAccessLayer.admissible_unique admissible hadmissible
      refine ⟨hkept.datasets _ rfl, fun raw hraw hresult => ?_⟩
      obtain ⟨result, hresult⟩ := hresult
      rw [← (normalizeResult_rows hresult).1]
      refine hkept.rows plan result admissible.resolved ?_
      rw [answered_eq_ok.2 ⟨raw, hraw, hresult⟩]
      rfl
    · intro hbounds
      obtain ⟨hdatasets, hrows⟩ := hbounds plan access admissible
      refine ⟨fun submission hsame => ?_, fun other result hresolved hreply => ?_⟩
      · obtain rfl := List.singleton_inj.1 (List.append_cancel_left hsame)
        exact hdatasets
      · obtain rfl := Option.some.inj (admissible.resolved.symm.trans hresolved)
        rcases hanswered : DataAccessLayer.answered ports ⟨plan, parameters, access, context⟩
          (s.moment + 2) with e | answer
        · rw [hanswered] at hreply
          cases hreply
        · rw [hanswered] at hreply
          cases hreply
          obtain ⟨raw, hraw, hresult⟩ := answered_eq_ok.1 hanswered
          rw [(normalizeResult_rows hresult).1]
          exact hrows raw hraw ⟨_, hresult⟩

namespace Sample

/-- A plan that names no datasets it may read, but whose tree names one, and allows one row. -/
def payrollPlan : QueryPlan := ⟨{ queryPlan.val with
  operation := .node .sort [.node .select [] (some "payroll")] none
  maxRows := 1 }, by decide +kernel⟩

def readerContext : ExecutionContext := { context with
  path := .interactive
  configuration := ⟨configuration,
    [("database", .mapping [("read_only_credential_id", .str "reader")])], none, none⟩ }

def readerAccess : DatabaseAccessDecision :=
  ⟨true, "reader", "service", "policy-1", "", some "tls", some "encrypted"⟩

/-- An adapter that answers two customers to any plan. -/
def customerPorts : DataAccessPorts where
  runtime := relational
  contract := ⟨["operation:select", "operation:sort"], by decide⟩
  adapterVersion := "1"
  clock _ := time 0
  capabilities _ := .ok ⟨["operation:select", "operation:sort"], by decide⟩
  authorizeRead _ _ _ _ := .ok readerAccess
  executeRead _ _ := .ok (customers [(2, "b"), (1, "a")])
  emit _ _ := .ok ()

def payrollRegistered : DataAccessState :=
  (dataAccessMachine customerPorts).run .empty [.register payrollPlan]

def payrollRead : Except DataAccessError DataAccessReply × DataAccessState :=
  dataAccessMachine customerPorts
    (.executeRead payrollPlan.val.reference .empty readerContext) payrollRegistered

end Sample

/-- The read of the payroll plan is submitted, though a node below the root names a dataset the
plan may not read, and returns two rows where one is allowed. -/
theorem payroll_overruns :
    ¬(∀ submission, Sample.payrollRead.2.submissions =
        Sample.payrollRegistered.submissions ++ [submission] → DatasetsAuthorized submission.plan) ∧
    ¬(∀ result, Sample.payrollRead.1 = .ok (.result result) →
        (result.rows.length : Int) ≤ Sample.payrollPlan.val.maxRows) ∧
    ¬BoundsKept Sample.payrollRegistered Sample.payrollPlan.val.reference Sample.payrollRead.1
      Sample.payrollRead.2 := by
  have hdatasets : ¬∀ submission, Sample.payrollRead.2.submissions =
      Sample.payrollRegistered.submissions ++ [submission] →
        DatasetsAuthorized submission.plan := by
    intro h
    have hauthorized := h
      ⟨Sample.payrollPlan, .empty, Sample.readerAccess, Sample.readerContext⟩ rfl
    exact absurd (hauthorized _ (.under (List.mem_cons_self ..) .here) "payroll" rfl)
      List.not_mem_nil
  refine ⟨hdatasets, fun h => ?_, fun h => hdatasets h.datasets⟩
  exact absurd (h Sample.orderedCustomers rfl) (by decide)

end Bounds

end AiRetrieval
