import AiRetrieval.Proofs.TaskDefinitions
import AiRetrieval.Spec.TaskRuntime

/-! The registry and the runtime together: what an invocation is resolved to after any run of
registrations is what was accepted under the version it is bound to, and stays so. -/

namespace AiRetrieval

namespace TaskRuntime

variable {registry : TaskDefinitionLookup} {invocation : TaskInvocation}
  {context : ExecutionContext} {version : String}

def bindingVersion (context : ExecutionContext) (function : TaskFunction) : Option String :=
  match FrozenMapping.get context.configuration.content "task_definitions" with
  | some (.mapping bindings) => boundVersion bindings function
  | _ => none

/-- The version an invocation is resolved at: the bound one, where no other is requested. -/
def versionFor (invocation : TaskInvocation) (context : ExecutionContext) : Option String :=
  (bindingVersion context invocation.val.function).filter fun version =>
    !invocation.val.requestedDefinitionVersion.any (· ≠ version)

def definitionUnavailable (invocation : TaskInvocation) (version : String) :
    Except PyError (Except TaskFailure ResolvedTask) :=
  resolutionFailure .taskDefinitionUnavailable "task_definition.available" "definition_unavailable"
    invocation.val.function (some version)

theorem boundVersion_ne_empty {bindings : FrozenMapping} {function : TaskFunction}
    (h : boundVersion bindings function = some version) : version ≠ "" := by
  unfold boundVersion at h
  split at h
  · split at h
    · cases h
    · next hblank =>
      cases h
      rintro rfl
      exact hblank (by decide)
  · cases h

theorem bindingVersion_ne_empty {function : TaskFunction}
    (h : bindingVersion context function = some version) : version ≠ "" := by
  unfold bindingVersion at h
  split at h
  · exact boundVersion_ne_empty h
  · cases h

theorem versionFor_eq_some : versionFor invocation context = some version ↔
    bindingVersion context invocation.val.function = some version ∧
      invocation.val.requestedDefinitionVersion.any (· ≠ version) = false := by
  unfold versionFor
  rw [Option.filter_eq_some_iff, Bool.not_eq_true']

theorem resolutionFailure_ne_resolved {code : TaskFailureCode} {ruleId reason : String}
    {function : TaskFunction} {bound requested : Option String} (resolved : ResolvedTask) :
    resolutionFailure code ruleId reason function bound requested ≠ .ok (.ok resolved) := by
  intro h
  obtain ⟨failure, -, h⟩ := except_bind_eq_ok.1 h
  cases h

theorem versionFor_of_resolved {resolved : ResolvedTask}
    (h : resolve registry invocation context = .ok (.ok resolved)) :
    ∃ version, versionFor invocation context = some version := by
  unfold resolve at h
  simp only at h
  split at h
  · exact absurd h (resolutionFailure_ne_resolved resolved)
  · next bindings hbindings =>
    split at h
    · exact absurd h (resolutionFailure_ne_resolved resolved)
    · next version hversion =>
      split at h
      · exact absurd h (resolutionFailure_ne_resolved resolved)
      · next hrequested =>
        refine ⟨version, versionFor_eq_some.2 ⟨?_, Bool.eq_false_iff.2 hrequested⟩⟩
        unfold bindingVersion
        rw [hbindings]
        exact hversion
  · exact absurd h (resolutionFailure_ne_resolved resolved)

theorem resolve_of_unregistered (h : versionFor invocation context = some version)
    (hnone : registry invocation.val.function version = none) :
    resolve registry invocation context = definitionUnavailable invocation version := by
  obtain ⟨hbinding, hrequested⟩ := versionFor_eq_some.1 h
  unfold bindingVersion at hbinding
  split at hbinding
  · next bindings hbindings =>
    unfold resolve definitionUnavailable
    simp only [ne_eq, decide_not] at hrequested
    simp [hbindings, hbinding, hrequested, hnone]
  · cases hbinding

theorem resolve_of_registered {definition : TaskDefinition}
    (h : versionFor invocation context = some version)
    (hsome : registry invocation.val.function version = some definition)
    (hfunction : definition.function = invocation.val.function)
    (hversion : definition.version = version) :
    resolve registry invocation context =
      .ok <$> Checked.make ResolvedTask.postInit ⟨definition, invocation⟩ := by
  obtain ⟨hbinding, hrequested⟩ := versionFor_eq_some.1 h
  unfold bindingVersion at hbinding
  split at hbinding
  · next bindings hbindings =>
    unfold resolve
    simp only [ne_eq, decide_not] at hrequested
    simp [hbindings, hbinding, hrequested, hsome, hfunction, hversion]
  · cases hbinding

end TaskRuntime

section Resolution

variable {runtime : PythonRuntime} {s : TaskDefinitionRegistry} {invocation : TaskInvocation}
  {context : ExecutionContext} {version : String}

theorem resolve_of_recorded (hs : s.Recorded runtime) {resolved : ResolvedTask}
    (hversion : TaskRuntime.versionFor invocation context = some version) :
    TaskRuntime.resolve s.resolve invocation context = .ok (.ok resolved) ↔
      ∃ definition, s.definitions.get? (invocation.val.function, version) = some definition ∧
        resolved.val = ⟨definition, invocation⟩ := by
  have hempty : version ≠ "" :=
    TaskRuntime.bindingVersion_ne_empty (TaskRuntime.versionFor_eq_some.1 hversion).1
  have hlookup : s.resolve invocation.val.function version =
      s.definitions.get? (invocation.val.function, version) := if_neg hempty
  rcases hfound : s.definitions.get? (invocation.val.function, version) with _ | definition
  · rw [hfound] at hlookup
    rw [TaskRuntime.resolve_of_unregistered hversion hlookup]
    refine iff_of_false (TaskRuntime.resolutionFailure_ne_resolved resolved) ?_
    rintro ⟨definition, h, -⟩
    cases h
  · rw [hfound] at hlookup
    obtain ⟨hfunction, hkept, -⟩ := hs.definitions _ _ _ hfound
    rw [TaskRuntime.resolve_of_registered hversion hlookup hfunction hkept]
    constructor
    · intro h
      rcases hmake : Checked.make ResolvedTask.postInit ⟨definition, invocation⟩ with e | other
      · rw [hmake] at h
        cases h
      · rw [hmake] at h
        cases h
        exact ⟨definition, rfl, Checked.make_eq_ok.1 hmake⟩
    · rintro ⟨other, hother, hresolved⟩
      cases hother
      rw [Checked.make_eq_ok.2 hresolved]
      rfl

theorem resolved_of_kept (hs : s.Recorded runtime) {definition : TaskDefinition}
    (hversion : TaskRuntime.versionFor invocation context = some version)
    (hkept : s.definitions.get? (invocation.val.function, version) = some definition) :
    ∃ resolved, TaskRuntime.resolve s.resolve invocation context = .ok (.ok resolved) := by
  obtain ⟨hfunction, -⟩ := hs.definitions _ _ _ hkept
  have hchecked : ResolvedTask.postInit ⟨definition, invocation⟩ = .ok () :=
    require_eq_ok.2 hfunction
  exact ⟨⟨_, hchecked⟩, (resolve_of_recorded hs hversion).2 ⟨definition, hkept, rfl⟩⟩

/-- Along a run, what was kept at its start is kept at its end. -/
theorem registrations_extend (hsha : Function.Injective runtime.sha256) (hs : s.Recorded runtime)
    (calls : List Registration) :
    s.definitions.Extends ((taskRegistryMachine runtime).run s calls).definitions := by
  induction calls generalizing s with
  | nil => exact Dict.Extends.refl _
  | cons call rest ih =>
    have houtcome := register_outcome hsha call hs
    rw [Machine.run_cons]
    exact houtcome.extends.trans (ih (houtcome.recorded hs))

def AcceptedUnder (runtime : PythonRuntime) (calls : List Registration) (function : TaskFunction)
    (version : String) : Prop :=
  ∃ call ∈ calls, ∃ bytes, call.Accepted runtime bytes ∧ call.candidate.function = function ∧
    version = runtime.sha256 bytes

/-- How invocations are resolved after a run of registrations: to the copy of a candidate that was
accepted under the version they are bound to; no later call changes that; and an invocation with
a version is resolved exactly where a candidate was accepted under it, and is answered that the
definition is unavailable where none was. -/
structure ResolvesAccepted (runtime : PythonRuntime) (calls : List Registration) : Prop where
  resolved : ∀ invocation context resolved,
    TaskRuntime.resolve ((taskRegistryMachine runtime).run .empty calls).resolve invocation
      context = .ok (.ok resolved) →
    resolved.val.invocation = invocation ∧ ∃ call ∈ calls, ∃ bytes,
      call.Accepted runtime bytes ∧
      resolved.val.definition = call.versioned runtime bytes ∧
      TaskRuntime.versionFor invocation context = some (runtime.sha256 bytes)
  kept : ∀ invocation context resolved later,
    TaskRuntime.resolve ((taskRegistryMachine runtime).run .empty calls).resolve invocation
      context = .ok (.ok resolved) →
    TaskRuntime.resolve ((taskRegistryMachine runtime).run .empty (calls ++ later)).resolve
      invocation context = .ok (.ok resolved)
  available : ∀ invocation context version,
    TaskRuntime.versionFor invocation context = some version →
    ((∃ resolved, TaskRuntime.resolve ((taskRegistryMachine runtime).run .empty calls).resolve
        invocation context = .ok (.ok resolved)) ↔
      AcceptedUnder runtime calls invocation.val.function version)
  unavailable : ∀ invocation context version,
    TaskRuntime.versionFor invocation context = some version →
    ¬AcceptedUnder runtime calls invocation.val.function version →
    TaskRuntime.resolve ((taskRegistryMachine runtime).run .empty calls).resolve invocation
      context = TaskRuntime.definitionUnavailable invocation version

theorem kept_iff_accepted (hsha : Function.Injective runtime.sha256) (calls : List Registration)
    (function : TaskFunction) (version : String) :
    (∃ definition, ((taskRegistryMachine runtime).run .empty calls).definitions.get?
      (function, version) = some definition) ↔ AcceptedUnder runtime calls function version := by
  constructor
  · rintro ⟨definition, hkept⟩
    obtain ⟨call, hcall, bytes, haccepted, rfl⟩ := run_copies hsha calls _ _ hkept
    obtain ⟨hfunction, hversion, -⟩ := (registry_recorded hsha calls).definitions _ _ _ hkept
    exact ⟨call, hcall, bytes, haccepted, hfunction, hversion.symm⟩
  · rintro ⟨call, hcall, bytes, haccepted, rfl, rfl⟩
    exact run_keeps_accepted hsha calls call hcall bytes haccepted

theorem registry_resolves_accepted (runtime : PythonRuntime)
    (hsha : Function.Injective runtime.sha256) (calls : List Registration) :
    ResolvesAccepted runtime calls := by
  have hs := registry_recorded hsha calls
  refine ⟨fun invocation context resolved h => ?_, fun invocation context resolved later h => ?_,
    fun invocation context version hversion => ?_,
    fun invocation context version hversion hnone => ?_⟩
  · obtain ⟨version, hversion⟩ := TaskRuntime.versionFor_of_resolved h
    obtain ⟨definition, hkept, hval⟩ := (resolve_of_recorded hs hversion).1 h
    obtain ⟨call, hcall, bytes, haccepted, rfl⟩ := run_copies hsha calls _ _ hkept
    obtain ⟨-, hdigest, -⟩ := hs.definitions _ _ _ hkept
    rw [hval]
    exact ⟨rfl, call, hcall, bytes, haccepted, rfl, hversion.trans (congrArg some hdigest.symm)⟩
  · obtain ⟨version, hversion⟩ := TaskRuntime.versionFor_of_resolved h
    obtain ⟨definition, hkept, hval⟩ := (resolve_of_recorded hs hversion).1 h
    rw [Machine.run_append]
    have hlater : ((taskRegistryMachine runtime).run
        ((taskRegistryMachine runtime).run .empty calls) later).Recorded runtime := by
      rw [← Machine.run_append]
      exact registry_recorded hsha (calls ++ later)
    exact (resolve_of_recorded hlater hversion).2
      ⟨definition, registrations_extend hsha hs later _ _ hkept, hval⟩
  · rw [← kept_iff_accepted hsha calls]
    constructor
    · rintro ⟨resolved, h⟩
      obtain ⟨definition, hkept, -⟩ := (resolve_of_recorded hs hversion).1 h
      exact ⟨definition, hkept⟩
    · rintro ⟨definition, hkept⟩
      exact resolved_of_kept hs hversion hkept
  · have hempty : version ≠ "" :=
      TaskRuntime.bindingVersion_ne_empty (TaskRuntime.versionFor_eq_some.1 hversion).1
    refine TaskRuntime.resolve_of_unregistered hversion ((if_neg hempty).trans ?_)
    rcases hfound : ((taskRegistryMachine runtime).run .empty calls).definitions.get?
      (invocation.val.function, version) with _ | definition
    · rfl
    · exact absurd ((kept_iff_accepted hsha calls _ _).1 ⟨definition, hfound⟩) hnone

theorem registry_resolves_accepted_sample :
    ResolvesAccepted Sample.registryDigests [Sample.requiredTuple, Sample.requiredSet] :=
  registry_resolves_accepted Sample.registryDigests Sample.registryDigests_injective
    [Sample.requiredTuple, Sample.requiredSet]

end Resolution

end AiRetrieval
