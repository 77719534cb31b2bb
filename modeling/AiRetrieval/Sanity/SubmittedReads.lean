import AiRetrieval.Spec.DataAccess

/-! When a read is submitted: the trees of its plan, the parameters the binder accepts, the
plans the registry answers with, and what `execute_read` does case by case. -/

namespace AiRetrieval

open Program

/-- `node` is a node of the tree, at some depth. -/
inductive OperationNode.Within (node : OperationNode) : OperationNode → Prop where
  | here : Within node node
  | under {kind : OperationKind} {children : List OperationNode} {dataset : Option String}
      {child : OperationNode} (mem : child ∈ children) (h : Within node child) :
      Within node (.node kind children dataset)

def OperationNode.kind : OperationNode → OperationKind
  | .node kind _ _ => kind

def OperationNode.dataset : OperationNode → Option String
  | .node _ _ dataset => dataset

mutual

theorem OperationNode.mem_kinds {kind : OperationKind} : ∀ {tree : OperationNode},
    kind ∈ tree.kinds → ∃ node : OperationNode, node.Within tree ∧ node.kind = kind
  | .node kind' children dataset, h => by
    rw [OperationNode.kinds, List.mem_cons] at h
    rcases h with rfl | h
    · exact ⟨_, .here, rfl⟩
    · obtain ⟨child, hchild, node, hnode, hkind⟩ := OperationNode.mem_kindsAll h
      exact ⟨node, .under hchild hnode, hkind⟩

theorem OperationNode.mem_kindsAll {kind : OperationKind} : ∀ {trees : List OperationNode},
    kind ∈ OperationNode.kindsAll trees → ∃ tree ∈ trees,
      ∃ node : OperationNode, node.Within tree ∧ node.kind = kind
  | [], h => by simp [OperationNode.kindsAll] at h
  | tree :: rest, h => by
    rw [OperationNode.kindsAll, List.mem_append] at h
    rcases h with h | h
    · obtain ⟨node, hnode, hkind⟩ := OperationNode.mem_kinds h
      exact ⟨tree, List.mem_cons_self .., node, hnode, hkind⟩
    · obtain ⟨tree', htree, hrest⟩ := OperationNode.mem_kindsAll h
      exact ⟨tree', List.mem_cons_of_mem _ htree, hrest⟩

end

theorem OperationNode.kinds_of_child {trees : List OperationNode} {tree : OperationNode}
    (h : tree ∈ trees) : tree.kinds ⊆ OperationNode.kindsAll trees := by
  induction trees with
  | nil => cases h
  | cons head rest ih =>
    rw [OperationNode.kindsAll]
    rcases List.mem_cons.1 h with rfl | h
    · exact List.subset_append_left _ _
    · exact List.Subset.trans (ih h) (List.subset_append_right _ _)

theorem OperationNode.kind_mem_kinds {node tree : OperationNode} (h : node.Within tree) :
    node.kind ∈ tree.kinds := by
  induction h with
  | here =>
    cases node
    exact List.mem_cons_self ..
  | under mem _ ih => exact List.mem_cons_of_mem _ (kinds_of_child mem ih)

theorem classifyOperation_retrieval {tree : OperationNode} :
    classifyOperation tree = .retrieval ↔
      ∀ node : OperationNode, node.Within tree → node.kind ∈ retrievalOperations := by
  have hapart : ∀ kind ∈ retrievalOperations, kind ∉ mutationOperations := by decide
  have hall : (∀ node : OperationNode, node.Within tree → node.kind ∈ retrievalOperations) ↔
      ∀ kind ∈ tree.kinds, kind ∈ retrievalOperations := by
    refine ⟨fun h kind hk => ?_, fun h node hn => h _ (OperationNode.kind_mem_kinds hn)⟩
    obtain ⟨node, hnode, rfl⟩ := OperationNode.mem_kinds hk
    exact h node hnode
  rw [hall]
  unfold classifyOperation
  by_cases hmutation : (tree.kinds.any fun kind => kind ∈ mutationOperations) = true
  · rw [if_pos hmutation]
    obtain ⟨kind, hk, hm⟩ := List.any_eq_true.1 hmutation
    exact ⟨(fun h => by cases h), fun h => absurd (of_decide_eq_true hm) (hapart kind (h kind hk))⟩
  · rw [if_neg hmutation]
    by_cases hretrieval : (tree.kinds.all fun kind => kind ∈ retrievalOperations) = true
    · rw [if_pos hretrieval]
      simpa using hretrieval
    · rw [if_neg hretrieval]
      exact ⟨(fun h => by cases h), fun h => absurd (by simpa using h) hretrieval⟩

theorem classifyOperation_mutation {tree : OperationNode} :
    classifyOperation tree = .mutation ↔
      ∃ node : OperationNode, node.Within tree ∧ node.kind ∈ mutationOperations := by
  unfold classifyOperation
  constructor
  · intro h
    by_cases hmutation : (tree.kinds.any fun kind => kind ∈ mutationOperations) = true
    · obtain ⟨kind, hk, hm⟩ := List.any_eq_true.1 hmutation
      obtain ⟨node, hnode, rfl⟩ := OperationNode.mem_kinds hk
      exact ⟨node, hnode, of_decide_eq_true hm⟩
    · rw [if_neg hmutation] at h
      split at h <;> cases h
  · rintro ⟨node, hnode, hm⟩
    rw [if_pos (List.any_eq_true.2 ⟨_, OperationNode.kind_mem_kinds hnode, decide_eq_true hm⟩)]

mutual

theorem OperationNode.eq_of_same : ∀ {a b : OperationNode}, a.same b = true → a = b
  | .node kind children dataset, .node kind' children' dataset', h => by
    simp only [OperationNode.same, Bool.and_eq_true, decide_eq_true_eq] at h
    rw [h.1.1, OperationNode.eq_of_sameAll h.1.2, h.2]

theorem OperationNode.eq_of_sameAll : ∀ {as bs : List OperationNode},
    OperationNode.sameAll as bs = true → as = bs
  | [], [], _ => rfl
  | [], _ :: _, h => by simp [OperationNode.sameAll] at h
  | _ :: _, [], h => by simp [OperationNode.sameAll] at h
  | a :: as, b :: bs, h => by
    simp only [OperationNode.sameAll, Bool.and_eq_true] at h
    rw [OperationNode.eq_of_same h.1, OperationNode.eq_of_sameAll h.2]

end

theorem QueryPlan.eq_of_same {a b : QueryPlan} (h : a.same b) : a = b := by
  obtain ⟨h1, h2, h3, h4, h5, h6, h7, h8, h9⟩ := h
  apply Checked.ext
  obtain ⟨a, ha⟩ := a
  obtain ⟨b, hb⟩ := b
  cases a
  cases b
  simp only at *
  rw [h1, OperationNode.eq_of_same h2, h3, h4, h5, h6, h7, h8, h9]

section Registry

def firstRegistered (calls : List DataAccessCall) (reference : QueryPlanReference) :
    Option QueryPlan :=
  (calls.filterMap fun call => match call with
    | .register plan => some plan
    | .executeRead .. => none).find? fun plan => plan.val.reference = reference

/-- Registering again changes nothing. -/
theorem register_get? {registry after : QueryPlanRegistry} {plan : QueryPlan}
    (h : registry.register plan = .ok after) (reference : QueryPlanReference) :
    after.get? reference =
      (registry.get? reference).or
        (if plan.val.reference = reference then some plan else none) := by
  unfold QueryPlanRegistry.register at h
  rcases hfound : registry.get? plan.val.reference with _ | existing
  · rw [hfound] at h
    cases h
    by_cases href : plan.val.reference = reference
    · subst href
      rw [Dict.get?_insert_self, hfound, if_pos rfl]
      rfl
    · rw [Dict.get?_insert_of_ne _ _ (Ne.symm href), if_neg href, Option.or_none]
  · rw [hfound] at h
    simp only at h
    split at h
    · next hsame =>
      cases h
      obtain rfl := QueryPlan.eq_of_same hsame
      by_cases href : existing.val.reference = reference
      · subst href
        rw [Dict.get?_insert_self, hfound]
        rfl
      · rw [Dict.get?_insert_of_ne _ _ (Ne.symm href), if_neg href, Option.or_none]
    · cases h

theorem register_refused {registry : QueryPlanRegistry} {plan : QueryPlan} {e : PyError}
    (h : registry.register plan = .error e) : (registry.get? plan.val.reference).isSome = true := by
  unfold QueryPlanRegistry.register at h
  rcases hfound : registry.get? plan.val.reference with _ | existing
  · rw [hfound] at h
    cases h
  · rfl

end Registry

section Parameters

/-- The value may stand where the specification is. -/
def ParameterSpec.Allows (specification : ParameterSpec) (value : RelationalValue) : Prop :=
  match value with
  | .none => specification.val.nullable = true
  | value => value.matchesType specification.val.valueType = true

/-- Every parameter supplied is declared and of its type, and the required ones are there. -/
structure Binds (plan : QueryPlan) (supplied : Parameters) : Prop where
  declared : ∀ entry ∈ supplied.entries, ∃ specification ∈ plan.val.parameterSchema,
    specification.val.name = entry.1 ∧ specification.Allows entry.2
  required : ∀ specification ∈ plan.val.parameterSchema, specification.val.required = true →
    specification.val.name ∈ supplied.keys

theorem bindParameter_eq_ok_iff {plan : QueryPlan} {entry : String × RelationalValue} :
    bindParameter plan entry = .ok () ↔ ∃ specification ∈ plan.val.parameterSchema,
      specification.val.name = entry.1 ∧ specification.Allows entry.2 := by
  have hnodup : (plan.val.parameterSchema.map (·.val.name)).Nodup := by
    have h := plan.passed
    simp only [QueryPlan.postInit, except_seq_eq_ok, require_eq_ok] at h
    exact h.1
  unfold bindParameter
  split
  · next hfind =>
    simp only [reduceCtorEq, false_iff, not_exists, not_and]
    intro specification hmem hname
    exact absurd (List.find?_eq_none.1 hfind specification hmem) (by simp [hname])
  · next specification hfind =>
    have hmem := List.mem_of_find?_eq_some hfind
    have hname : specification.val.name = entry.1 := by simpa using List.find?_some hfind
    refine Iff.trans (b := specification.Allows entry.2) ?_
      ⟨fun h => ⟨specification, hmem, hname, h⟩, ?_⟩
    · unfold ParameterSpec.Allows
      cases entry.2 <;> exact require_eq_ok
    rintro ⟨other, hother, hothername, h⟩
    rwa [List.inj_on_of_nodup_map hnodup hmem hother (hname.trans hothername.symm)]

theorem bindParameters_eq_ok_iff {plan : QueryPlan} {supplied bound : Parameters} :
    bindParameters plan supplied = .ok bound ↔ bound = supplied ∧ Binds plan supplied := by
  unfold bindParameters
  simp only
  rw [except_seq_eq_ok, require_eq_ok, except_seq_eq_ok, require_eq_ok, except_bind_eq_ok]
  constructor
  · rintro ⟨-, hmissing, units, hunits, hbound⟩
    cases hbound
    refine ⟨rfl, fun entry hentry => ?_, fun specification hs hrequired => ?_⟩
    · obtain ⟨_, hchecked⟩ := except_mapM_returns_iff.1 ⟨units, hunits⟩ entry hentry
      exact bindParameter_eq_ok_iff.1 hchecked
    · by_contra habsent
      rw [List.map_eq_nil_iff, List.filter_eq_nil_iff] at hmissing
      exact hmissing specification hs (decide_eq_true ⟨hrequired, habsent⟩)
  · rintro ⟨rfl, h⟩
    have hchecked : ∀ entry ∈ bound.entries, ∃ checked, bindParameter plan entry = .ok checked := by
      intro entry hentry
      exact ⟨(), bindParameter_eq_ok_iff.2 (h.declared entry hentry)⟩
    obtain ⟨units, hunits⟩ := except_mapM_returns_iff.2 hchecked
    refine ⟨?_, ?_, units, hunits, rfl⟩
    · rw [List.filter_eq_nil_iff]
      intro name hname
      obtain ⟨entry, hentry, rfl⟩ := List.mem_map.1 hname
      obtain ⟨specification, hs, hspec, -⟩ := h.declared entry hentry
      rw [decide_eq_true_eq, not_not, ← hspec]
      exact List.mem_map_of_mem hs
    · rw [List.map_eq_nil_iff, List.filter_eq_nil_iff]
      intro specification hs hc
      rw [decide_eq_true_eq] at hc
      exact hc.2 (h.required specification hs hc.1)

end Parameters

namespace DataAccessLayer

section Reads

variable (ports : DataAccessPorts) (context : ExecutionContext)

@[simp] theorem exec_ask {α : Type} (answer : Nat → Except PyError α) (s : DataAccessState) :
    (ask answer).exec s =
      ((answer s.moment).mapError DataAccessError.raised, { s with moment := s.moment + 1 }) := rfl

@[simp] theorem exec_reject {α : Type} (code : FailureCode) (message : String)
    (s : DataAccessState) : (reject code message : DataAccess α).exec s =
      (.error (.rejection { code := code, message := message }), s) := rfl

/-- A security rejection is raised whatever the audit sink answers, and hands it one event. -/
theorem exec_securityReject {α : Type} (plan : QueryPlan) (code : FailureCode) (reason : String)
    (access : Option DatabaseAccessDecision) (s : DataAccessState) :
    (securityReject ports context plan code reason access : DataAccess α).exec s =
      (.error (.rejection { code := code, message := reason }), { s with
        moment := s.moment + 2
        events := s.events ++
          [rejectionEvent context plan reason access (ports.clock s.moment)] }) := by
  unfold securityReject
  rw [exec_bind, exec_ask]
  simp only [Except.mapError]
  rw [exec_bind, exec_modify]
  simp only
  rw [exec_bind, exec_attempt]
  simp only [exec_ask, exec_reject]

/-- All that must hold for a plan to be submitted, for the answers given from `s` on. -/
structure Admissible (s : DataAccessState) (reference : QueryPlanReference)
    (parameters : Parameters) (plan : QueryPlan) (access : DatabaseAccessDecision) : Prop where
  resolved : s.plans.get? reference = some plan
  retrieval : ∀ node : OperationNode, node.Within plan.val.operation →
    node.kind ∈ retrievalOperations
  contract : ∀ capability ∈ requiredCapabilities plan, capability ∈ ports.contract.items
  adapter : ∃ available, ports.capabilities s.moment = .ok available ∧
    ∀ capability ∈ requiredCapabilities plan, capability ∈ available.items
  ordered : plan.val.intrinsicallyOrdered = true ∨ plan.val.deterministicOrder ≠ []
  interactive : context.path = .interactive
  binds : Binds plan parameters
  granted : ∃ credential, credential? context = some credential ∧
    ports.authorizeRead (s.moment + 1) credential plan context = .ok access ∧
    access.allowed = true ∧ access.credentialId = credential
  identified : blank access.serviceIdentity = false
  protectedBy : absent access.transportEncryption = false ∧
    absent access.persistenceEncryption = false

/-- The protection a result is returned with. -/
def protectionOf (access : DatabaseAccessDecision) : ProtectionMetadata :=
  ⟨access.policyVersion, access.serviceIdentity, access.transportEncryption.getD "",
    access.persistenceEncryption.getD ""⟩

def answered (submission : Submission) (moment : Nat) :
    Except DataAccessError NormalizedResult :=
  match ports.executeRead moment submission with
  | .error error => .error (.raised error)
  | .ok raw =>
    match Normalization.normalizeResult ports.runtime raw submission.plan
      (protectionOf submission.access) ports.adapterVersion with
    | .ok result => .ok result
    | .error (.normalizationError message) =>
      .error (.rejection { code := .resultNormalizationFailed, message := message })
    | .error (.raised error) => .error (.raised error)

def audited : List FailureCode :=
  [.mutationBlocked, .databaseAccessDenied, .databaseAuthenticationFailed,
    .databaseProtectionRequired]

/-- What `execute_read` does from `s`: it refuses and changes nothing, refuses with one event
handed to the audit sink, or submits an admissible plan. -/
inductive ReadOutcome (s : DataAccessState) (reference : QueryPlanReference)
    (parameters : Parameters) :
    Except DataAccessError NormalizedResult × DataAccessState → Prop where
  | refused (error : DataAccessError) (moment : Nat)
      (plain : ∀ failure, error = .rejection failure → failure.code ∉ audited)
      (inadmissible : ∀ plan access, ¬Admissible ports context s reference parameters plan access)
      (safe : ∀ plan, s.plans.get? reference = some plan →
        classifyOperation plan.val.operation ≠ .mutation) :
      ReadOutcome s reference parameters (.error error, { s with moment := moment })
  | secured (plan : QueryPlan) (code : FailureCode) (reason : String)
      (access : Option DatabaseAccessDecision) (moment clock : Nat)
      (resolved : s.plans.get? reference = some plan) (security : code ∈ audited)
      (mutation : classifyOperation plan.val.operation = .mutation →
        code = .mutationBlocked ∧ reason = "mutation_operation")
      (inadmissible : ∀ plan access, ¬Admissible ports context s reference parameters plan access) :
      ReadOutcome s reference parameters
        (.error (.rejection { code := code, message := reason }), { s with
          moment := moment
          events := s.events ++
            [rejectionEvent context plan reason access (ports.clock clock)] })
  | submitted (plan : QueryPlan) (access : DatabaseAccessDecision)
      (admissible : Admissible ports context s reference parameters plan access) :
      ReadOutcome s reference parameters
        (answered ports ⟨plan, parameters, access, context⟩ (s.moment + 2), { s with
          moment := s.moment + 3
          submissions := s.submissions ++ [⟨plan, parameters, access, context⟩] })

theorem exec_submit (plan : QueryPlan) (bound : Parameters) (access : DatabaseAccessDecision)
    (s : DataAccessState) :
    (submit ports plan bound access context).exec s =
      (answered ports ⟨plan, bound, access, context⟩ s.moment, { s with
        moment := s.moment + 1
        submissions := s.submissions ++ [⟨plan, bound, access, context⟩] }) := by
  unfold submit answered
  rw [exec_bind, exec_modify]
  simp only
  rw [exec_bind, exec_ask]
  cases ports.executeRead s.moment ⟨plan, bound, access, context⟩ with
  | error e => rfl
  | ok raw =>
    simp only [Except.mapError, protectionOf]
    cases Normalization.normalizeResult ports.runtime raw plan _ ports.adapterVersion with
    | ok result => rfl
    | error failure => cases failure <;> rfl

theorem lacking_eq_nil {plan : QueryPlan} {available : FrozenSet} : lacking plan available = [] ↔
    ∀ capability ∈ requiredCapabilities plan, capability ∈ available.items := by
  simp [lacking, List.filter_eq_nil_iff]

variable {ports context} {s : DataAccessState} {reference : QueryPlanReference}
  {parameters : Parameters} {plan : QueryPlan}

theorem not_admissible (hplan : s.plans.get? reference = some plan)
    (h : ∀ access, ¬Admissible ports context s reference parameters plan access) :
    ∀ plan access, ¬Admissible ports context s reference parameters plan access := by
  intro other access hother
  have hsame : some plan = some other := hplan.symm.trans hother.resolved
  obtain rfl := Option.some.inj hsame
  exact h access hother

theorem refused_of (hplan : s.plans.get? reference = some plan)
    (hretrieval : classifyOperation plan.val.operation ≠ .mutation) (error : DataAccessError)
    (moment : Nat) (plain : ∀ failure, error = .rejection failure → failure.code ∉ audited)
    (h : ∀ access, ¬Admissible ports context s reference parameters plan access) :
    ReadOutcome ports context s reference parameters
      (.error error, { s with moment := moment }) := by
  refine .refused error moment plain (not_admissible hplan h) fun other hother => ?_
  rw [hplan, Option.some.injEq] at hother
  exact hother ▸ hretrieval

theorem plain_of_code {code : FailureCode} {message : String} (h : code ∉ audited) :
    ∀ failure, DataAccessError.rejection { code := code, message := message } =
      .rejection failure → failure.code ∉ audited := by
  intro failure hf
  cases hf
  exact h

theorem plain_of_raised (e : PyError) :
    ∀ failure, DataAccessError.raised e = .rejection failure → failure.code ∉ audited := by
  intro failure hf
  cases hf

/-- From the authorization on, where everything before it was passed. -/
theorem authorize_outcome (hplan : s.plans.get? reference = some plan)
    (hretrieval : classifyOperation plan.val.operation = .retrieval)
    (hcontract : ∀ capability ∈ requiredCapabilities plan, capability ∈ ports.contract.items)
    (hadapter : ∃ available, ports.capabilities s.moment = .ok available ∧
      ∀ capability ∈ requiredCapabilities plan, capability ∈ available.items)
    (hordered : plan.val.intrinsicallyOrdered = true ∨ plan.val.deterministicOrder ≠ [])
    (hinteractive : context.path = .interactive) (hbinds : Binds plan parameters)
    {credential : String} (hcredential : credential? context = some credential) :
    ReadOutcome ports context s reference parameters
      ((authorize ports plan parameters credential context).exec
        { s with moment := s.moment + 1 }) := by
  have hsafe : classifyOperation plan.val.operation ≠ .mutation := by
    rw [hretrieval]
    decide
  have hgranted : ∀ {access : DatabaseAccessDecision},
      Admissible ports context s reference parameters plan access →
        ports.authorizeRead (s.moment + 1) credential plan context = .ok access ∧
          access.allowed = true ∧ access.credentialId = credential := by
    intro access h
    obtain ⟨other, hother, hanswer⟩ := h.granted
    rw [hcredential, Option.some.injEq] at hother
    subst hother
    exact hanswer
  unfold authorize
  rw [exec_bind, exec_ask]
  rcases hanswer : ports.authorizeRead (s.moment + 1) credential plan context with e | access
  · refine refused_of hplan hsafe _ _ (plain_of_raised e) fun access h => ?_
    have hother := (hgranted h).1
    rw [hanswer] at hother
    cases hother
  have hsame : ∀ {other}, Admissible ports context s reference parameters plan other →
      other = access := by
    intro other h
    have hother := (hgranted h).1
    rw [hanswer] at hother
    exact (Except.ok.inj hother).symm
  -- a security rejection of this decision, whichever check it fails
  have hsecured : ∀ (code : FailureCode) (reason : String), code ∈ audited →
      (∀ other, ¬Admissible ports context s reference parameters plan other) →
      ReadOutcome ports context s reference parameters
        ((securityReject ports context plan code reason (some access) :
          DataAccess NormalizedResult).exec { s with moment := s.moment + 2 }) := by
    intro code reason hcode hinadmissible
    rw [exec_securityReject]
    exact .secured plan code reason (some access) _ (s.moment + 2) hplan hcode
      (fun h => absurd h hsafe) (not_admissible hplan hinadmissible)
  simp only [Except.mapError]
  by_cases hdenied : access.allowed = false ∨ access.credentialId ≠ credential
  · rw [if_pos hdenied]
    refine hsecured _ _ (by decide) fun other h => ?_
    obtain rfl := hsame h
    obtain ⟨-, hallowed, hid⟩ := hgranted h
    rcases hdenied with hno | hne
    · rw [hallowed] at hno
      cases hno
    · exact hne hid
  rw [if_neg hdenied]
  by_cases hblank : blank access.serviceIdentity = true
  · rw [if_pos hblank]
    refine hsecured _ _ (by decide) fun other h => ?_
    obtain rfl := hsame h
    rw [h.identified] at hblank
    cases hblank
  rw [if_neg hblank]
  by_cases habsent : absent access.transportEncryption = true ∨
      absent access.persistenceEncryption = true
  · rw [if_pos habsent]
    refine hsecured _ _ (by decide) fun other h => ?_
    obtain rfl := hsame h
    obtain ⟨htransport, hpersistence⟩ := h.protectedBy
    rcases habsent with hno | hno
    · rw [htransport] at hno
      cases hno
    · rw [hpersistence] at hno
      cases hno
  rw [if_neg habsent, exec_submit]
  rw [not_or] at hdenied habsent
  refine .submitted plan access ⟨hplan, classifyOperation_retrieval.1 hretrieval, hcontract,
    hadapter, hordered, hinteractive, hbinds, ⟨credential, hcredential, hanswer, ?_, ?_⟩, ?_,
    ?_, ?_⟩
  · simpa using hdenied.1
  · simpa using hdenied.2
  · simpa using hblank
  · simpa using habsent.1
  · simpa using habsent.2

theorem executeRead_outcome (ports : DataAccessPorts) (context : ExecutionContext)
    (s : DataAccessState) (reference : QueryPlanReference) (parameters : Parameters) :
    ReadOutcome ports context s reference parameters
      ((executeRead ports reference parameters context).exec s) := by
  unfold executeRead QueryPlanRegistry.resolve
  rw [exec_bind, exec_get]
  simp only
  rcases hplan : s.plans.get? reference with _ | plan
  · refine .refused _ s.moment (plain_of_code (by decide)) (fun plan access h => ?_)
      fun plan h => ?_
    · have hnone := h.resolved
      rw [hplan] at hnone
      cases hnone
    · rw [hplan] at h
      cases h
  simp only
  unfold executePlan
  cases hclass : classifyOperation plan.val.operation with
  | mutation =>
    simp only
    rw [exec_securityReject]
    refine .secured plan _ _ none _ s.moment hplan (by decide) (fun _ => ⟨rfl, rfl⟩)
      (not_admissible hplan fun access h => ?_)
    have hretrieval := classifyOperation_retrieval.2 h.retrieval
    rw [hclass] at hretrieval
    cases hretrieval
  | unsupported =>
    refine refused_of hplan (by rw [hclass]; decide) _ s.moment (plain_of_code (by decide))
      fun access h => ?_
    have hretrieval := classifyOperation_retrieval.2 h.retrieval
    rw [hclass] at hretrieval
    cases hretrieval
  | retrieval =>
    have hsafe : classifyOperation plan.val.operation ≠ .mutation := by
      rw [hclass]
      decide
    simp only
    by_cases hcontract : lacking plan ports.contract ≠ []
    · rw [if_pos hcontract]
      exact refused_of hplan hsafe _ s.moment (plain_of_code (by decide)) fun access h =>
        hcontract (lacking_eq_nil.2 h.contract)
    rw [if_neg hcontract, exec_bind, exec_ask]
    rw [not_not] at hcontract
    rcases hcapabilities : ports.capabilities s.moment with e | available
    · refine refused_of hplan hsafe _ _ (plain_of_raised e) fun access h => ?_
      obtain ⟨available, hok, -⟩ := h.adapter
      rw [hcapabilities] at hok
      cases hok
    simp only [Except.mapError]
    by_cases hadapter : lacking plan available ≠ []
    · rw [if_pos hadapter]
      refine refused_of hplan hsafe _ _ (plain_of_code (by decide)) fun access h => ?_
      obtain ⟨other, hok, hall⟩ := h.adapter
      rw [hcapabilities, Except.ok.injEq] at hok
      subst hok
      exact hadapter (lacking_eq_nil.2 hall)
    rw [if_neg hadapter]
    rw [not_not] at hadapter
    unfold bindAndAuthorize
    by_cases hunordered : plan.val.intrinsicallyOrdered = false ∧ plan.val.deterministicOrder = []
    · rw [if_pos hunordered]
      refine refused_of hplan hsafe _ _ (plain_of_code (by decide)) fun access h => ?_
      rcases h.ordered with hordered | hordered
      · rw [hunordered.1] at hordered
        cases hordered
      · exact hordered hunordered.2
    rw [if_neg hunordered]
    unfold credentialId
    rcases hcredential : credential? context with _ | credential
    · refine refused_of hplan hsafe _ _ (plain_of_code (by decide)) fun access h => ?_
      obtain ⟨credential, hok, -⟩ := h.granted
      rw [hcredential] at hok
      cases hok
    simp only
    rw [exec_bind, exec_pure]
    simp only
    by_cases hpath : context.path ≠ .interactive
    · rw [if_pos hpath]
      exact refused_of hplan hsafe _ _ (plain_of_code (by decide)) fun access h =>
        hpath h.interactive
    rw [if_neg hpath]
    rw [not_not] at hpath
    have hunbound : ∀ e, bindParameters plan parameters = .error e → ∀ access,
        ¬Admissible ports context s reference parameters plan access := by
      intro e he access h
      rw [bindParameters_eq_ok_iff.2 ⟨rfl, h.binds⟩] at he
      cases he
    rcases hbind : bindParameters plan parameters with e | bound
    · have hnone := hunbound e hbind
      split
      · next he => exact refused_of hplan hsafe _ _ (plain_of_code (by decide)) hnone
      · next he => exact refused_of hplan hsafe _ _ (plain_of_raised _) hnone
      · next he => cases he
    obtain ⟨rfl, hbinds⟩ := bindParameters_eq_ok_iff.1 hbind
    have hordered : plan.val.intrinsicallyOrdered = true ∨ plan.val.deterministicOrder ≠ [] := by
      rw [not_and_or] at hunordered
      simpa using hunordered
    exact authorize_outcome hplan hclass (lacking_eq_nil.1 hcontract)
      ⟨available, hcapabilities, lacking_eq_nil.1 hadapter⟩ hordered hpath hbinds hcredential

end Reads

end DataAccessLayer

end AiRetrieval
