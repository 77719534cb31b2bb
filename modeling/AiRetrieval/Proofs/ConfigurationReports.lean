import AiRetrieval.Proofs.ConfigurationDigests
import AiRetrieval.Sanity.ProfileFaults

/-! What a configuration report holds: the failure of a rule exactly when the rule's own section
violates it, as long as no number setting is an integer that no float can hold. -/

namespace AiRetrieval

namespace ConfigurationValidator

section Owners

variable {validator : ConfigurationValidator} {name : String} {value : PyValue}
  {failure : ConfigurationValidationFailure}

def sectionOf (path : String) : String := String.ofList (path.toList.takeWhile (· ≠ '.'))

theorem sectionOf_append {path : String} (h : '.' ∈ path.toList) (rest : String) :
    sectionOf (path ++ rest) = sectionOf path := by
  unfold sectionOf
  rw [String.toList_append]
  generalize path.toList = cs at h
  induction cs with
  | nil => cases h
  | cons c cs ih =>
    by_cases hc : c = '.'
    · simp [hc]
    · have hcs : '.' ∈ cs := (List.mem_cons.1 h).resolve_left (Ne.symm hc)
      have ih := String.ofList_injective (ih hcs)
      simp only [List.cons_append, List.takeWhile_cons, hc, ne_eq, not_false_eq_true, decide_true,
        if_true]
      rw [ih]

theorem sectionOf_version (index : Nat) :
    sectionOf ("model.versions[" ++ toString index ++ "]") = "model" := by
  rw [String.append_assoc, sectionOf_append (by decide +kernel)]
  decide +kernel

theorem sectionOf_numbers : ∀ rule ∈ numberRules,
    sectionOf (rule.section_ ++ "." ++ rule.field) = rule.section_ ∧
      rule.section_ ∈ requiredSections := by
  decide +kernel

theorem sectionOf_fields : ∀ item ∈ integerFields ++ booleanFields,
    sectionOf (item.1 ++ "." ++ item.2) = item.1 ∧ item.1 ∈ requiredSections := by
  decide +kernel

theorem sectionOf_required : ∀ name ∈ requiredSections, sectionOf name = name := by
  decide +kernel

theorem sectionOf_versions {rule : VersionRule} (h : rule ∈ versionRules validator) :
    sectionOf (rule.section_ ++ "." ++ rule.field) = rule.section_ ∧
      sectionOf rule.unavailable.path = rule.section_ ∧ rule.section_ ∈ requiredSections := by
  simp only [versionRules, List.mem_cons, List.not_mem_nil, or_false] at h
  rcases h with rfl | rfl
  · dsimp only
    exact ⟨by decide +kernel, by decide +kernel, by decide⟩
  · dsimp only
    exact ⟨by decide +kernel, by decide +kernel, by decide⟩

theorem SectionFault.owner (h : SectionFault validator name value failure) :
    sectionOf failure.path = name ∧ name ∈ requiredSections := by
  cases h with
  | missing required => exact ⟨sectionOf_required _ required, required⟩
  | unmapped required => exact ⟨sectionOf_required _ required, required⟩
  | number known => exact sectionOf_numbers _ known
  | integer known => exact sectionOf_fields (_, _) (List.mem_append_left _ known)
  | boolean known => exact sectionOf_fields (_, _) (List.mem_append_right _ known)
  | unnamedVersion known => exact ⟨(sectionOf_versions known).1, (sectionOf_versions known).2.2⟩
  | unavailableVersion known => exact (sectionOf_versions known).2
  | unnamedModel => exact ⟨sectionOf_version _, by decide⟩
  | unavailableModel => exact ⟨sectionOf_version _, by decide⟩
  | noModels | unnamedAdapter | unversionedAdapter | unprovenAdapter | noCredential
  | unprovenCredential | mutatingCredential => exact ⟨by decide +kernel, by decide⟩

end Owners

section Reports

variable {validator : ConfigurationValidator} {runtime : PythonRuntime} {content : PyValue}

/-- A rule of a section, or the canonical form, is violated with this failure. -/
def Violated (validator : ConfigurationValidator) (runtime : PythonRuntime) (content : PyValue)
    (failure : ConfigurationValidationFailure) : Prop :=
  (∃ name ∈ requiredSections, SectionFault validator name (content.member name) failure) ∨
    CanonicalFault runtime content failure

/-- Every number setting is one that `math.isfinite` answers for. -/
def Sized (content : PyValue) : Prop :=
  ∀ rule ∈ numberRules, ((content.member rule.section_).member rule.field).oversized = false

instance : Decidable (Sized content) := inferInstanceAs (Decidable (∀ rule ∈ numberRules, _))

/-- What each rule of `validate` adds, in its order. -/
def ruleFaults (validator : ConfigurationValidator) (runtime : PythonRuntime) (content : PyValue) :
    List (ConfigurationValidationFailure → Prop) :=
  [NumberFault content ⟨"deadline", "duration_seconds", true⟩,
    NumberFault content ⟨"cancellation", "timeout_seconds", false⟩,
    IntegerFault content "concurrency" "limit",
    IntegerFault content "retry" "max_attempts",
    NumberFault content ⟨"budget", "cost_limit", false⟩,
    NumberFault content ⟨"budget", "token_limit", false⟩,
    BooleanFault content "routing" "interactive",
    BooleanFault content "routing" "bulk",
    BooleanFault content "telemetry" "enabled",
    BooleanFault content "write_back" "enabled",
    VersionFault content ⟨"security", "policy_version", validator.securityPolicies,
      ⟨"profile.security.policy.available", "security.policy_version", .unavailable,
        "referenced security policy is unavailable"⟩⟩,
    VersionFault content ⟨"validation", "rules_version", validator.validationRules,
      ⟨"profile.validation.rules.available", "validation.rules_version", .unavailable,
        "referenced validation rules are unavailable"⟩⟩,
    ModelFault validator content, AdapterFault validator content,
    CredentialFault validator content, CanonicalFault runtime content]

theorem rules_add {sections : Sections} (hs : Settings content sections) (hsized : Sized content) :
    List.Forall₂ Adds (rules validator runtime content sections)
      (ruleFaults validator runtime content) := by
  have hnumber (rule : NumberRule) (hrule : rule ∈ numberRules) {predicate : Rat → Bool}
      (hpredicate : ∀ number, predicate number = true ↔ rule.admits number) :
      Adds (validateNumber sections rule.section_ rule.field predicate rule.message)
        (NumberFault content rule) :=
    validateNumber_adds hs (sectionOf_numbers rule hrule).2 (hsized rule hrule) hpredicate
  have hversion (rule : VersionRule) (hrule : rule ∈ versionRules validator) :
      Adds (requiredVersion sections rule.section_ rule.field rule.available rule.unavailable)
        (VersionFault content rule) :=
    requiredVersion_adds hs (sectionOf_versions hrule).2.2
  unfold rules ruleFaults
  refine .cons (hnumber ⟨_, _, true⟩ (by decide) fun _ => decide_eq_true_iff) <|
    .cons (hnumber ⟨_, _, false⟩ (by decide) fun _ => decide_eq_true_iff) <|
    .cons (positiveInteger_adds hs (by decide)) <| .cons (positiveInteger_adds hs (by decide)) <|
    .cons (hnumber ⟨_, _, false⟩ (by decide) fun _ => decide_eq_true_iff) <|
    .cons (hnumber ⟨_, _, false⟩ (by decide) fun _ => decide_eq_true_iff) <|
    .cons (boolean_adds hs (by decide)) <| .cons (boolean_adds hs (by decide)) <|
    .cons (boolean_adds hs (by decide)) <| .cons (boolean_adds hs (by decide)) <|
    .cons (hversion ⟨_, _, _, _⟩ (List.mem_cons_self ..)) <|
    .cons (hversion ⟨_, _, _, _⟩ (List.mem_cons_of_mem _ (List.mem_cons_self ..))) <|
    .cons (modelVersions_adds hs) <| .cons (adapter_adds hs) <| .cons (credential_adds hs) <|
    .cons (canonical_adds runtime content) .nil

variable {failure : ConfigurationValidationFailure}

theorem SectionFault.violated {name : String}
    (h : SectionFault validator name (content.member name) failure) :
    Violated validator runtime content failure :=
  Or.inl ⟨name, h.owner.2, h⟩

theorem violated_of_mem_absence {name : String} (hname : name ∈ requiredSections)
    (h : failure ∈ absence name (content.member name)) :
    Violated validator runtime content failure := by
  have hfault : SectionFault validator name (content.member name) failure := by
    rcases mem_absence.1 h with ⟨hnone, rfl⟩ | ⟨hsome, hother, rfl⟩
    · rw [hnone]
      exact .missing hname
    · exact .unmapped hname hsome hother
  exact hfault.violated

theorem violated_of_ruleFault : ∀ P ∈ ruleFaults validator runtime content, P failure →
    Violated validator runtime content failure := by
  have hnumber (rule : NumberRule) (hrule : rule ∈ numberRules) :
      NumberFault content rule failure → Violated validator runtime content failure := by
    rintro ⟨hrefused, rfl⟩
    exact (SectionFault.number hrule hrefused).violated
  have hinteger (name field : String) (hfield : (name, field) ∈ integerFields) :
      IntegerFault content name field failure → Violated validator runtime content failure := by
    rintro ⟨hrefused, rfl⟩
    exact (SectionFault.integer hfield hrefused).violated
  have hboolean (name field : String) (hfield : (name, field) ∈ booleanFields) :
      BooleanFault content name field failure → Violated validator runtime content failure := by
    rintro ⟨⟨hmapped, hrefused⟩, rfl⟩
    exact (SectionFault.boolean hfield hmapped hrefused).violated
  have hversion (rule : VersionRule) (hrule : rule ∈ versionRules validator) :
      VersionFault content rule failure → Violated validator runtime content failure := by
    rintro (⟨hunnamed, rfl⟩ | ⟨version, hnamed, habsent, rfl⟩)
    · exact (SectionFault.unnamedVersion hrule hunnamed).violated
    · exact (SectionFault.unavailableVersion hrule hnamed habsent).violated
  simp only [ruleFaults, List.forall_mem_cons]
  refine ⟨hnumber _ (by decide), hnumber _ (by decide), hinteger _ _ (by decide),
    hinteger _ _ (by decide), hnumber _ (by decide), hnumber _ (by decide),
    hboolean _ _ (by decide), hboolean _ _ (by decide), hboolean _ _ (by decide),
    hboolean _ _ (by decide), hversion _ (List.mem_cons_self ..),
    hversion _ (List.mem_cons_of_mem _ (List.mem_cons_self ..)), ?_, ?_, ?_, Or.inr,
    List.forall_mem_nil _⟩
  · rintro (⟨hnone, rfl⟩ | ⟨versions, index, version, hlisted, hfound, hmem⟩)
    · exact (SectionFault.noModels hnone).violated
    · rcases mem_modelVersion.1 hmem with ⟨hunnamed, rfl⟩ | ⟨name, hnamed, habsent, rfl⟩
      · exact (SectionFault.unnamedModel hlisted hfound hunnamed).violated
      · exact (SectionFault.unavailableModel hlisted hfound hnamed habsent).violated
  · rintro (⟨hunnamed, rfl⟩ | ⟨hunnamed, rfl⟩ | ⟨id, version, hid, hnamed, habsent, rfl⟩)
    · exact (SectionFault.unnamedAdapter hunnamed).violated
    · exact (SectionFault.unversionedAdapter hunnamed).violated
    · exact (SectionFault.unprovenAdapter hid hnamed habsent).violated
  · rintro (⟨hunnamed, rfl⟩ | ⟨id, hid, habsent, rfl⟩ |
      ⟨id, operations, hid, hevident, ⟨operation, hmem, hmutates⟩, rfl⟩)
    · exact (SectionFault.noCredential hunnamed).violated
    · exact (SectionFault.unprovenCredential hid habsent).violated
    · exact (SectionFault.mutatingCredential hid hevident hmem hmutates).violated

theorem SectionFault.added {name : String}
    (h : SectionFault validator name (content.member name) failure) :
    failure ∈ absence name (content.member name) ∨
      ∃ P ∈ ruleFaults validator runtime content, P failure := by
  generalize hvalue : content.member name = value at h ⊢
  cases h with
  | missing => exact Or.inl (mem_absence.2 (Or.inl ⟨rfl, rfl⟩))
  | unmapped _ present other => exact Or.inl (mem_absence.2 (Or.inr ⟨present, other, rfl⟩))
  | @number rule known _ refused =>
    refine Or.inr ⟨NumberFault content rule, ?_, hvalue ▸ refused, rfl⟩
    simp only [numberRules, List.mem_cons, List.not_mem_nil, or_false] at known
    rcases known with rfl | rfl | rfl | rfl <;> simp [ruleFaults]
  | @integer _ field known _ refused =>
    refine Or.inr ⟨IntegerFault content name field, ?_, hvalue ▸ refused, rfl⟩
    simp only [integerFields, List.mem_cons, List.not_mem_nil, or_false] at known
    rcases known with h | h <;> cases h <;> simp [ruleFaults]
  | @boolean _ field known _ mapped refused =>
    refine Or.inr ⟨BooleanFault content name field, ?_, hvalue ▸ ⟨mapped, refused⟩, rfl⟩
    simp only [booleanFields, List.mem_cons, List.not_mem_nil, or_false] at known
    rcases known with h | h | h | h <;> cases h <;> simp [ruleFaults]
  | @unnamedVersion rule known _ unnamed =>
    refine Or.inr ⟨VersionFault content rule, ?_, Or.inl ⟨hvalue ▸ unnamed, rfl⟩⟩
    simp only [versionRules, List.mem_cons, List.not_mem_nil, or_false] at known
    rcases known with rfl | rfl <;> simp [ruleFaults]
  | @unavailableVersion rule known _ version named absent =>
    refine Or.inr ⟨VersionFault content rule, ?_, Or.inr ⟨version, hvalue ▸ named, absent, rfl⟩⟩
    simp only [versionRules, List.mem_cons, List.not_mem_nil, or_false] at known
    rcases known with rfl | rfl <;> simp [ruleFaults]
  | noModels none_ =>
    exact Or.inr ⟨ModelFault validator content, by simp [ruleFaults],
      Or.inl ⟨hvalue ▸ none_, rfl⟩⟩
  | unnamedModel listed found unnamed =>
    exact Or.inr ⟨ModelFault validator content, by simp [ruleFaults],
      Or.inr ⟨_, _, _, hvalue ▸ listed, found, mem_modelVersion.2 (Or.inl ⟨unnamed, rfl⟩)⟩⟩
  | unavailableModel listed found named absent =>
    exact Or.inr ⟨ModelFault validator content, by simp [ruleFaults], Or.inr ⟨_, _, _,
      hvalue ▸ listed, found, mem_modelVersion.2 (Or.inr ⟨_, named, absent, rfl⟩)⟩⟩
  | unnamedAdapter unnamed =>
    exact Or.inr ⟨AdapterFault validator content, by simp [ruleFaults],
      Or.inl ⟨hvalue ▸ unnamed, rfl⟩⟩
  | unversionedAdapter unnamed =>
    exact Or.inr ⟨AdapterFault validator content, by simp [ruleFaults],
      Or.inr (Or.inl ⟨hvalue ▸ unnamed, rfl⟩)⟩
  | unprovenAdapter id version absent =>
    exact Or.inr ⟨AdapterFault validator content, by simp [ruleFaults],
      Or.inr (Or.inr ⟨_, _, hvalue ▸ id, hvalue ▸ version, absent, rfl⟩)⟩
  | noCredential unnamed =>
    exact Or.inr ⟨CredentialFault validator content, by simp [ruleFaults],
      Or.inl ⟨hvalue ▸ unnamed, rfl⟩⟩
  | unprovenCredential id absent =>
    exact Or.inr ⟨CredentialFault validator content, by simp [ruleFaults],
      Or.inr (Or.inl ⟨_, hvalue ▸ id, absent, rfl⟩)⟩
  | mutatingCredential id evident effective mutates =>
    exact Or.inr ⟨CredentialFault validator content, by simp [ruleFaults],
      Or.inr (Or.inr ⟨_, _, hvalue ▸ id, evident, ⟨_, effective, mutates⟩, rfl⟩)⟩

theorem mem_sortedFailures {failures : List ConfigurationValidationFailure} :
    failure ∈ sortedFailures failures ↔ failure ∈ failures :=
  (List.perm_insertionSort (fun a b => a.notAfter b = true) failures.dedup).mem_iff.trans
    List.mem_dedup

theorem validate_of_sized (hmapping : content.isMapping = true) (hsized : Sized content) :
    ∃ report, validator.validate runtime content = .ok report ∧
      ∀ failure, failure ∈ report.failures ↔ Violated validator runtime content failure := by
  obtain ⟨found, hfound, hiff⟩ :=
    gather_adds (@rules_add validator runtime _ _ (mappedSections_settings content) hsized)
  refine ⟨⟨sortedFailures ((requiredSections.flatMap fun name =>
    absence name (content.member name)) ++ found)⟩, ?_, fun failure => ?_⟩
  · unfold validate
    rw [readSections_eq hmapping]
    exact except_bind_eq_ok.2 ⟨_, rfl, except_bind_eq_ok.2 ⟨found, hfound, rfl⟩⟩
  · rw [mem_sortedFailures, List.mem_append, hiff, List.mem_flatMap]
    constructor
    · rintro (⟨name, hname, hmem⟩ | ⟨P, hP, hfailure⟩)
      · exact violated_of_mem_absence hname hmem
      · exact violated_of_ruleFault P hP hfailure
    · rintro (⟨name, hname, hfault⟩ | hcanonical)
      · exact hfault.added.imp (fun hmem => ⟨name, hname, hmem⟩) id
      · exact Or.inr ⟨CanonicalFault runtime content, by simp [ruleFaults], hcanonical⟩

theorem validateNumber_raises {sections : Sections} (hs : Settings content sections)
    {rule : NumberRule} (hrule : rule ∈ numberRules)
    (hsize : ((content.member rule.section_).member rule.field).oversized = true)
    (predicate : Rat → Bool) (message : String) :
    validateNumber sections rule.section_ rule.field predicate message =
      .error (.raised .overflowError "int too large to convert to float") := by
  unfold validateNumber
  rw [hs.setting _ (sectionOf_numbers rule hrule).2]
  simp only [bind, Except.bind]
  rw [PyValue.finiteNumber_raises hsize]

theorem validate_of_oversized (hmapping : content.isMapping = true) (hsized : ¬Sized content) :
    ¬∃ report, validator.validate runtime content = .ok report := by
  rintro ⟨report, h⟩
  obtain ⟨rule, hrule, hsize⟩ : ∃ rule ∈ numberRules,
      ((content.member rule.section_).member rule.field).oversized = true := by
    simpa [Sized] using hsized
  unfold validate at h
  rw [readSections_eq hmapping] at h
  obtain ⟨_, hread, h⟩ := except_bind_eq_ok.1 h
  cases hread
  obtain ⟨found, hfound, -⟩ := except_bind_eq_ok.1 h
  have hs := mappedSections_settings content
  have hraises (predicate : Rat → Bool) (message : String)
      (hmem : validateNumber (mappedSections content requiredSections) rule.section_ rule.field
        predicate message ∈ rules validator runtime content
          (mappedSections content requiredSections)) : False :=
    gather_raises hmem (validateNumber_raises hs hrule hsize predicate message) ⟨found, hfound⟩
  simp only [numberRules, List.mem_cons, List.not_mem_nil, or_false] at hrule
  rcases hrule with rfl | rfl | rfl | rfl
  · exact hraises (fun number => decide (0 < number)) "must be greater than zero"
      (by simp [rules, positiveNumber])
  all_goals
    exact hraises (fun number => decide (0 ≤ number)) "must be non-negative"
      (by simp [rules, nonnegativeNumber])

end Reports

end ConfigurationValidator

open ConfigurationValidator ConfigurationRegistry Program

section Activations

variable {ports : ConfigurationPorts} {call : Activation}

theorem checked_eq_rejected {report : ConfigurationValidationReport} :
    checked ports call = .error (.rejected report) ↔ blank call.profileId = false ∧
      call.validator.validate ports.runtime call.content = .ok report ∧ report.valid = false := by
  unfold checked
  cases hnamed : blank call.profileId with
  | true =>
    refine iff_of_false (fun h => ?_) fun h => ?_
    · cases h
    · cases h.1
  | false =>
    rw [if_neg (by decide)]
    rcases call.validator.validate ports.runtime call.content with error | found
    · refine iff_of_false (fun h => ?_) fun h => ?_
      · cases h
      · cases h.2.1
    change (if found.valid = false then _ else _) = _ ↔ _
    by_cases hvalid : found.valid = false
    · rw [if_pos hvalid]
      constructor
      · intro h
        cases h
        exact ⟨rfl, rfl, hvalid⟩
      · rintro ⟨-, h, -⟩
        cases h
        rfl
    · rw [if_neg hvalid]
      refine iff_of_false (fun h => ?_) fun ⟨_, h, hinvalid⟩ => ?_
      · rcases hcanonical : canonicalizeProfile ports.runtime call.content with error | result
        · rw [hcanonical] at h
          cases h
        · rw [hcanonical] at h
          change ((Checked.make ConfigurationReference.postInit _).mapError
            ActivationError.raised >>=
            fun reference => pure (result.1, result.2, reference)) = _ at h
          generalize Checked.make ConfigurationReference.postInit _ = made at h
          rcases made with error | reference <;> cases h
      · cases h
        exact hvalid hinvalid

theorem activate_rejects_iff {report : ConfigurationValidationReport}
    (s : ConfigurationRegistry) :
    ((activate ports call).exec s).1 = .error (.rejected report) ↔
      checked ports call = .error (.rejected report) := by
  rcases hchecked : checked ports call with error | ⟨canonical, digest, reference⟩
  · have hexec : (activate ports call).exec s = (.error error, s) := by
      unfold activate
      rw [exec_bind, exec_liftExcept, hchecked]
    rw [hexec, Except.error.injEq, Except.error.injEq]
  · refine iff_of_false (fun h => ?_) fun h => ?_
    · have houtcome : ActivateOutcome ports call s ((activate ports call).exec s).1
        ((activate ports call).exec s).2 := activate_outcome
      rw [h] at houtcome
      generalize ((activate ports call).exec s).2 = s' at houtcome
      cases houtcome with
      | refused _ hrefused => exact hrefused (checked_eq_ok.1 hchecked).1
    · cases h

end Activations

/-- The report of a content is exact: the failure of a rule of a section is in it exactly when
the value of that section violates the rule, and the failure of the canonical form exactly when
the content has none. -/
structure ExactReport (validator : ConfigurationValidator) (runtime : PythonRuntime)
    (content : PyValue) (report : ConfigurationValidationReport) : Prop where
  sections : ∀ name failure, (∃ value, SectionFault validator name value failure) →
    (failure ∈ report.failures ↔ SectionFault validator name (content.member name) failure)
  canonical : ∀ failure : ConfigurationValidationFailure, failure.path = "$" →
    (failure ∈ report.failures ↔ CanonicalFault runtime content failure)
  only : ∀ failure ∈ report.failures, Violated validator runtime content failure

/-- Validation returns an exact report, and every activation of the content under a name, in
any registry and at any time, rejects with that report exactly when some rule is violated. -/
structure ReportsFaults (validator : ConfigurationValidator) (ports : ConfigurationPorts)
    (content : PyValue) : Prop where
  report : ∃ report, validator.validate ports.runtime content = .ok report ∧
    ExactReport validator ports.runtime content report
  activation : ∀ profileId clock registry, blank profileId = false →
    ((∃ report, ((activate ports ⟨profileId, content, validator, clock⟩).exec registry).1 =
        .error (.rejected report) ∧ ExactReport validator ports.runtime content report) ↔
      ∃ failure, Violated validator ports.runtime content failure)

section Reports

variable {validator : ConfigurationValidator} {runtime : PythonRuntime} {content : PyValue}

theorem CanonicalFault.not_section {failure : ConfigurationValidationFailure}
    (h : failure.path = "$") {name : String} {value : PyValue} :
    ¬SectionFault validator name value failure := by
  intro hfault
  obtain ⟨howner, hname⟩ := hfault.owner
  rw [h] at howner
  have hroot : sectionOf "$" ∉ requiredSections := by decide +kernel
  exact hroot (howner ▸ hname)

theorem exactReport_of_violated {report : ConfigurationValidationReport}
    (h : ∀ failure, failure ∈ report.failures ↔ Violated validator runtime content failure) :
    ExactReport validator runtime content report := by
  refine ⟨fun name failure ⟨value, hvalue⟩ => ?_, fun failure hpath => ?_, fun failure => (h _).1⟩
  · rw [h]
    constructor
    · rintro (⟨other, _, hother⟩ | ⟨_, _, _, rfl⟩)
      · have hsame : other = name := hother.owner.1.symm.trans hvalue.owner.1
        exact hsame ▸ hother
      · exact absurd hvalue (CanonicalFault.not_section rfl)
    · exact SectionFault.violated
  · rw [h]
    exact or_iff_right fun ⟨_, _, hfault⟩ => CanonicalFault.not_section hpath hfault

theorem reportsFaults_of_sized {ports : ConfigurationPorts} (hmapping : content.isMapping = true)
    (hsized : Sized content) : ReportsFaults validator ports content := by
  obtain ⟨report, hreport, hiff⟩ := @validate_of_sized validator ports.runtime _ hmapping hsized
  have hexact := exactReport_of_violated hiff
  refine ⟨⟨report, hreport, hexact⟩, fun profileId clock registry hnamed => ?_⟩
  have hvalid : report.valid = false ↔
      ∃ failure, Violated validator ports.runtime content failure := by
    rw [ConfigurationValidationReport.valid, List.isEmpty_eq_false_iff_exists_mem]
    exact exists_congr hiff
  rw [← hvalid]
  constructor
  · rintro ⟨rejected, hrejected, -⟩
    obtain ⟨-, hfound, hinvalid⟩ :=
      checked_eq_rejected.1 ((activate_rejects_iff registry).1 hrejected)
    cases hreport.symm.trans hfound
    exact hinvalid
  · intro hinvalid
    exact ⟨report, (activate_rejects_iff registry).2
      (checked_eq_rejected.2 ⟨hnamed, hreport, hinvalid⟩), hexact⟩

end Reports

/-- Validation of a mapping is total and exact precisely when none of its number settings is an
integer that no float can hold. -/
theorem reports_faults_iff (validator : ConfigurationValidator) (ports : ConfigurationPorts)
    (content : PyValue) (h : content.isMapping = true) :
    ReportsFaults validator ports content ↔ Sized content := by
  refine ⟨fun hreports => ?_, reportsFaults_of_sized h⟩
  by_contra hsized
  obtain ⟨report, hreport, -⟩ := hreports.report
  exact validate_of_oversized h hsized ⟨report, hreport⟩

namespace Sample

/-- Content with one section, which has a single setting. -/
def onlySection (name field : String) (value : PyValue) : PyValue :=
  .dict [(.str name, .dict [(.str field, value)])]

def validator : ConfigurationValidator := (activation (.tuple [])).validator

end Sample

theorem reports_faults_sample :
    ReportsFaults Sample.validator Sample.configurations
        (Sample.onlySection "deadline" "duration_seconds" (.int 0)) ↔
      Sized (Sample.onlySection "deadline" "duration_seconds" (.int 0)) :=
  reports_faults_iff Sample.validator Sample.configurations _ rfl

/-- A deadline of `10 ** 400` seconds leaves validation without a report, and so does every
activation, although eleven sections are missing. -/
theorem oversized_deadline_raises :
    Sample.validator.validate Sample.digests
        (Sample.onlySection "deadline" "duration_seconds" (.int (10 ^ 400))) =
      .error (.raised .overflowError "int too large to convert to float") ∧
    ((activate Sample.configurations ⟨"default",
        Sample.onlySection "deadline" "duration_seconds" (.int (10 ^ 400)), Sample.validator,
        ⟨true, 1000⟩⟩).exec {}).1 =
      .error (.raised (.raised .overflowError "int too large to convert to float")) ∧
    ¬ReportsFaults Sample.validator Sample.configurations
      (Sample.onlySection "deadline" "duration_seconds" (.int (10 ^ 400))) := by
  have hraises : Sample.validator.validate Sample.digests
      (Sample.onlySection "deadline" "duration_seconds" (.int (10 ^ 400))) =
        .error (.raised .overflowError "int too large to convert to float") := by
    decide +kernel
  refine ⟨hraises, by decide +kernel, fun h => ?_⟩
  obtain ⟨report, hreport, -⟩ := h.report
  cases hraises.symm.trans hreport

end AiRetrieval
