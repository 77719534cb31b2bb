import AiRetrieval.Sanity.ConfigurationVersions

/-! The rules of a configuration profile, each as a relation between the value of its own
section and the failure it reports, and what each rule of the validator adds. -/

namespace AiRetrieval

namespace PyValue

/-- `content.get(name)` of a mapping; nothing is found in any other value. -/
def member (value : PyValue) (name : String) : PyValue :=
  match value with
  | .dict items => (entry items name).getD .none
  | .frozenMapping items => ((FrozenMapping.get items name).map (·.object)).getD .none
  | _ => .none

def named (value : PyValue) : Option String := value.string?.filter (blank · = false)

/-- The number of an integer or of a finite float. -/
def numeric : PyValue → Option Rat
  | .int value => some value
  | .float (.finite negative magnitude) => some (if negative then -magnitude else magnitude)
  | _ => Option.none

/-- An integer no float can hold. -/
def oversized : PyValue → Bool
  | .int value => decide (floatOverflow ≤ value.natAbs)
  | _ => false

theorem find_of_isMapping {value : PyValue} (h : value.isMapping = true) (name : String) :
    value.find name .none = .ok (value.member name) := by
  cases value <;> first | rfl | cases h

theorem member_of_not_isMapping {value : PyValue} (h : value.isMapping = false) (name : String) :
    value.member name = .none := by
  cases value <;> first | rfl | cases h

theorem finiteNumber_eq {value : PyValue} (h : value.oversized = false) :
    value.finiteNumber = .ok value.numeric := by
  cases value with
  | int value =>
    have hlt : value.natAbs < floatOverflow := by
      unfold oversized at h
      simpa using h
    simp only [finiteNumber, numeric, if_pos hlt]
  | float value => cases value <;> rfl
  | _ => rfl

theorem finiteNumber_raises {value : PyValue} (h : value.oversized = true) :
    value.finiteNumber =
      .error (.raised .overflowError "int too large to convert to float") := by
  cases value with
  | int value =>
    have hle : ¬value.natAbs < floatOverflow := by
      unfold oversized at h
      simpa using h
    simp only [finiteNumber, if_neg hle]
  | _ => cases h

end PyValue

namespace ConfigurationValidator

/-- A rule `_validate_number` checks. -/
structure NumberRule where
  section_ : String
  field : String
  /-- Whether zero is refused. -/
  strict : Bool
  deriving DecidableEq

namespace NumberRule

def admits (rule : NumberRule) (number : Rat) : Prop :=
  if rule.strict then 0 < number else 0 ≤ number

def message (rule : NumberRule) : String :=
  if rule.strict then "must be greater than zero" else "must be non-negative"

end NumberRule

def numberRules : List NumberRule :=
  [⟨"deadline", "duration_seconds", true⟩, ⟨"cancellation", "timeout_seconds", false⟩,
    ⟨"budget", "cost_limit", false⟩, ⟨"budget", "token_limit", false⟩]

def integerFields : List (String × String) :=
  [("concurrency", "limit"), ("retry", "max_attempts")]

def booleanFields : List (String × String) :=
  [("routing", "interactive"), ("routing", "bulk"), ("telemetry", "enabled"),
    ("write_back", "enabled")]

structure VersionRule where
  section_ : String
  field : String
  available : List String
  unavailable : ConfigurationValidationFailure

def versionRules (validator : ConfigurationValidator) : List VersionRule :=
  [⟨"security", "policy_version", validator.securityPolicies,
      ⟨"profile.security.policy.available", "security.policy_version", .unavailable,
        "referenced security policy is unavailable"⟩⟩,
    ⟨"validation", "rules_version", validator.validationRules,
      ⟨"profile.validation.rules.available", "validation.rules_version", .unavailable,
        "referenced validation rules are unavailable"⟩⟩]

/-- The failures of the rules of one section, by the value `content.get` finds for it: what
the other sections hold has no part in them. -/
inductive SectionFault (validator : ConfigurationValidator) :
    String → PyValue → ConfigurationValidationFailure → Prop where
  | missing {name : String} (required : name ∈ requiredSections) :
      SectionFault validator name .none ⟨"profile." ++ name ++ ".required", name, .missing,
        name ++ " settings are required"⟩
  | unmapped {name : String} (required : name ∈ requiredSections) {value : PyValue}
      (present : value ≠ .none) (other : value.isMapping = false) :
      SectionFault validator name value ⟨"profile." ++ name ++ ".mapping", name, .invalid,
        name ++ " must be a mapping"⟩
  | number {rule : NumberRule} (known : rule ∈ numberRules) {value : PyValue}
      (refused : ∀ number, (value.member rule.field).numeric = some number → ¬rule.admits number) :
      SectionFault validator rule.section_ value
        (invalidField rule.section_ rule.field rule.message)
  | integer {name field : String} (known : (name, field) ∈ integerFields) {value : PyValue}
      (refused : ∀ number, value.member field = .int number → number ≤ 0) :
      SectionFault validator name value (invalidField name field "must be a positive integer")
  | boolean {name field : String} (known : (name, field) ∈ booleanFields) {value : PyValue}
      (mapped : value.isMapping = true) (refused : ∀ truth, value.member field ≠ .bool truth) :
      SectionFault validator name value (invalidField name field "must be boolean")
  | unnamedVersion {rule : VersionRule} (known : rule ∈ versionRules validator) {value : PyValue}
      (unnamed : (value.member rule.field).named = none) :
      SectionFault validator rule.section_ value
        ⟨"profile." ++ rule.section_ ++ "." ++ rule.field ++ ".required",
          rule.section_ ++ "." ++ rule.field, .invalid, rule.field ++ " must be a nonblank string"⟩
  | unavailableVersion {rule : VersionRule} (known : rule ∈ versionRules validator)
      {value : PyValue} {version : String}
      (named : (value.member rule.field).named = some version)
      (absent : version ∉ rule.available) :
      SectionFault validator rule.section_ value rule.unavailable
  | noModels {value : PyValue}
      (none_ : ∀ versions, (value.member "versions").sequence? = some versions → versions = []) :
      SectionFault validator "model" value ⟨"profile.model.versions.required", "model.versions",
        .invalid, "at least one model version is required"⟩
  | unnamedModel {value : PyValue} {versions : List PyValue} {index : Nat} {version : PyValue}
      (listed : (value.member "versions").sequence? = some versions)
      (found : versions[index]? = some version) (unnamed : version.named = none) :
      SectionFault validator "model" value ⟨"profile.model.version.valid",
        "model.versions[" ++ toString index ++ "]", .invalid,
        "model version must be a nonblank string"⟩
  | unavailableModel {value : PyValue} {versions : List PyValue} {index : Nat} {version : PyValue}
      {name : String} (listed : (value.member "versions").sequence? = some versions)
      (found : versions[index]? = some version) (named : version.named = some name)
      (absent : name ∉ validator.models) :
      SectionFault validator "model" value ⟨"profile.model.version.available",
        "model.versions[" ++ toString index ++ "]", .unavailable,
        "model version " ++ name ++ " is unavailable"⟩
  | unnamedAdapter {value : PyValue} (unnamed : (value.member "adapter_id").named = none) :
      SectionFault validator "database" value ⟨"profile.database.adapter_id.required",
        "database.adapter_id", .invalid, "adapter_id is required"⟩
  | unversionedAdapter {value : PyValue}
      (unnamed : (value.member "adapter_version").named = none) :
      SectionFault validator "database" value ⟨"profile.database.adapter_version.required",
        "database.adapter_version", .invalid, "adapter_version is required"⟩
  | unprovenAdapter {value : PyValue} {adapterId adapterVersion : String}
      (id : (value.member "adapter_id").named = some adapterId)
      (version : (value.member "adapter_version").named = some adapterVersion)
      (absent : (adapterId, adapterVersion) ∉ validator.adapters) :
      SectionFault validator "database" value ⟨"profile.database.adapter.evidence",
        "database.adapter_version", .unavailable,
        "complete passing adapter evidence is unavailable"⟩
  | noCredential {value : PyValue}
      (unnamed : (value.member "read_only_credential_id").named = none) :
      SectionFault validator "database" value ⟨"profile.database.credential.required",
        "database.read_only_credential_id", .invalid, "read-only credential is required"⟩
  | unprovenCredential {value : PyValue} {credentialId : String}
      (id : (value.member "read_only_credential_id").named = some credentialId)
      (absent : validator.credentials.get? credentialId = none) :
      SectionFault validator "database" value ⟨"profile.database.credential.evidence",
        "database.read_only_credential_id", .unavailable,
        "credential authorization evidence is unavailable"⟩
  | mutatingCredential {value : PyValue} {credentialId operation : String}
      {effectiveOperations : List String}
      (id : (value.member "read_only_credential_id").named = some credentialId)
      (evident : validator.credentials.get? credentialId = some effectiveOperations)
      (effective : operation ∈ effectiveOperations)
      (mutates : casefold operation ∈ mutationNames) :
      SectionFault validator "database" value ⟨"profile.database.credential.read_only",
        "database.read_only_credential_id", .unauthorized,
        "credential has effective mutation authorization"⟩

section Sections

variable {content : PyValue} {sections : Sections}

def absence (name : String) : PyValue → List ConfigurationValidationFailure
  | .none =>
    [⟨"profile." ++ name ++ ".required", name, .missing, name ++ " settings are required"⟩]
  | value => if value.isMapping then [] else
    [⟨"profile." ++ name ++ ".mapping", name, .invalid, name ++ " must be a mapping"⟩]

theorem mem_absence {name : String} {value : PyValue} {failure : ConfigurationValidationFailure} :
    failure ∈ absence name value ↔
      (value = .none ∧ failure = ⟨"profile." ++ name ++ ".required", name, .missing,
        name ++ " settings are required"⟩) ∨
      value ≠ .none ∧ value.isMapping = false ∧
        failure = ⟨"profile." ++ name ++ ".mapping", name, .invalid,
          name ++ " must be a mapping"⟩ := by
  cases value <;> simp [absence, PyValue.isMapping]

def mappedSections (content : PyValue) (names : List String) : Sections :=
  names.filterMap fun name =>
    if (content.member name).isMapping then some (name, content.member name) else none

theorem readSections_eq (h : content.isMapping = true) (names : List String) :
    readSections content names = .ok (names.flatMap fun name => absence name (content.member name),
      mappedSections content names) := by
  unfold mappedSections
  induction names with
  | nil => rfl
  | cons name rest ih =>
    rw [readSections, PyValue.find_of_isMapping h, ih, List.flatMap_cons, List.filterMap_cons]
    generalize content.member name = value
    cases value <;> rfl

theorem lookup_mappedSections (names : List String) {name : String} (hname : name ∈ names) :
    (mappedSections content names).lookup name =
      if (content.member name).isMapping then some (content.member name) else none := by
  unfold mappedSections
  induction names with
  | nil => cases hname
  | cons other rest ih =>
    rw [List.filterMap_cons]
    by_cases hsame : name = other
    · subst hsame
      by_cases hmap : (content.member name).isMapping = true
      · simp [hmap]
      · by_cases hrest : name ∈ rest
        · simpa [hmap] using ih hrest
        · simp only [hmap, if_false, Bool.false_eq_true]
          refine List.lookup_eq_none_iff.2 fun item hitem => ?_
          obtain ⟨other, hother, hfound⟩ := List.mem_filterMap.1 hitem
          split at hfound
          · cases hfound
            simpa using fun h : name = other => hrest (h ▸ hother)
          · cases hfound
    · have hrest := ih ((List.mem_cons.1 hname).resolve_left hsame)
      by_cases hmap : (content.member other).isMapping = true
      · have hne : (name == other) = false := by simpa using hsame
        simpa [hmap, List.lookup_cons, hne] using hrest
      · simpa [hmap] using hrest

/-- What the rules read of each required section is a member of its value. -/
structure Settings (content : PyValue) (sections : Sections) : Prop where
  setting : ∀ name ∈ requiredSections, ∀ field,
    setting sections name field = .ok ((content.member name).member field)
  lookup : ∀ name ∈ requiredSections,
    (sections.lookup name).isSome = (content.member name).isMapping

theorem mappedSections_settings (content : PyValue) :
    Settings content (mappedSections content requiredSections) := by
  constructor
  · intro name hname field
    unfold ConfigurationValidator.setting
    rw [lookup_mappedSections _ hname]
    by_cases hmap : (content.member name).isMapping = true
    · rw [if_pos hmap]
      exact PyValue.find_of_isMapping hmap field
    · rw [if_neg hmap, PyValue.member_of_not_isMapping (by simpa using hmap)]
      rfl
  · intro name hname
    rw [lookup_mappedSections _ hname]
    by_cases hmap : (content.member name).isMapping = true <;> simp [hmap]

end Sections

section Rules

variable {validator : ConfigurationValidator} {content : PyValue} {sections : Sections}

/-- The rule returns, and adds exactly the failures with `P`. -/
def Adds (rule : RuleFailures) (P : ConfigurationValidationFailure → Prop) : Prop :=
  ∃ failures, rule = .ok failures ∧ ∀ failure, failure ∈ failures ↔ P failure

theorem gather_adds {rules : List RuleFailures}
    {faults : List (ConfigurationValidationFailure → Prop)} (h : List.Forall₂ Adds rules faults) :
    Adds (gather rules) fun failure => ∃ P ∈ faults, P failure := by
  induction h with
  | nil => exact ⟨[], rfl, by simp⟩
  | cons hrule hrest ih =>
    obtain ⟨failures, hfailures, hiff⟩ := hrule
    obtain ⟨others, hothers, hiffs⟩ := ih
    refine ⟨failures ++ others, by rw [gather, hfailures, hothers]; rfl, fun failure => ?_⟩
    rw [List.mem_append, hiff, hiffs]
    simp

theorem gather_raises {rules : List RuleFailures} {rule : RuleFailures} (hrule : rule ∈ rules)
    {error : PyError} (h : rule = .error error) : ¬∃ failures, gather rules = .ok failures := by
  induction rules with
  | nil => cases hrule
  | cons first rest ih =>
    rintro ⟨failures, hall⟩
    obtain ⟨found, hfound, hall⟩ := except_bind_eq_ok.1 hall
    obtain ⟨others, hothers, -⟩ := except_bind_eq_ok.1 hall
    rcases List.mem_cons.1 hrule with rfl | hmem
    · rw [h] at hfound
      cases hfound
    · exact ih hmem ⟨others, hothers⟩

def NumberFault (content : PyValue) (rule : NumberRule)
    (failure : ConfigurationValidationFailure) : Prop :=
  (∀ number, ((content.member rule.section_).member rule.field).numeric = some number →
    ¬rule.admits number) ∧ failure = invalidField rule.section_ rule.field rule.message

theorem validateNumber_adds (hs : Settings content sections) {rule : NumberRule}
    (hsection : rule.section_ ∈ requiredSections)
    (hsize : ((content.member rule.section_).member rule.field).oversized = false)
    {predicate : Rat → Bool} (hpredicate : ∀ number, predicate number = true ↔ rule.admits number) :
    Adds (validateNumber sections rule.section_ rule.field predicate rule.message)
      (NumberFault content rule) := by
  unfold validateNumber NumberFault
  rw [hs.setting _ hsection]
  generalize (content.member rule.section_).member rule.field = value at hsize
  refine ⟨_, by
    change (do
      let number ← value.finiteNumber
      return _) = _
    rw [PyValue.finiteNumber_eq hsize]
    rfl, fun failure => ?_⟩
  rcases hnumber : value.numeric with _ | number
  · simp
  · by_cases hp : predicate number = true
    · simp [hp, (hpredicate number).1 hp]
    · have hnot : ¬rule.admits number := fun h => hp ((hpredicate number).2 h)
      simp [hp, hnot]

def IntegerFault (content : PyValue) (name field : String)
    (failure : ConfigurationValidationFailure) : Prop :=
  (∀ number, (content.member name).member field = .int number → number ≤ 0) ∧
    failure = invalidField name field "must be a positive integer"

theorem positiveInteger_adds (hs : Settings content sections) {name field : String}
    (hname : name ∈ requiredSections) :
    Adds (positiveInteger sections name field) (IntegerFault content name field) := by
  unfold positiveInteger IntegerFault
  rw [hs.setting _ hname]
  generalize (content.member name).member field = value
  cases value with
  | int number =>
    refine ⟨_, rfl, fun failure => ?_⟩
    by_cases hp : 0 < number
    · simp [hp]
    · simp [hp, not_lt.1 hp]
  | _ => exact ⟨_, rfl, fun failure => by simp⟩

def BooleanFault (content : PyValue) (name field : String)
    (failure : ConfigurationValidationFailure) : Prop :=
  ((content.member name).isMapping = true ∧
    ∀ truth, (content.member name).member field ≠ .bool truth) ∧
      failure = invalidField name field "must be boolean"

theorem boolean_adds (hs : Settings content sections) {name field : String}
    (hname : name ∈ requiredSections) :
    Adds (boolean sections name field) (BooleanFault content name field) := by
  unfold boolean BooleanFault
  have hlookup := hs.lookup name hname
  rcases hfound : sections.lookup name with _ | value
  · rw [hfound, Option.isSome_none] at hlookup
    exact ⟨[], rfl, fun failure => by simp [← hlookup]⟩
  · rw [hfound, Option.isSome_some] at hlookup
    simp only [← hlookup, true_and]
    rw [hs.setting _ hname]
    generalize (content.member name).member field = value
    cases value <;> exact ⟨_, rfl, fun failure => by simp⟩

theorem requiredString_eq (hs : Settings content sections) {name : String}
    (hname : name ∈ requiredSections) (field : String) :
    requiredString sections name field = .ok
      (match ((content.member name).member field).named with
      | some value => .ok value
      | none => .error ⟨"profile." ++ name ++ "." ++ field ++ ".required",
          name ++ "." ++ field, .invalid, field ++ " must be a nonblank string"⟩) := by
  unfold requiredString PyValue.named
  rw [hs.setting _ hname]
  simp only [bind, Except.bind]
  rcases ((content.member name).member field).string?.filter
    (blank · = false) with _ | value <;> rfl

def VersionFault (content : PyValue) (rule : VersionRule)
    (failure : ConfigurationValidationFailure) : Prop :=
  (((content.member rule.section_).member rule.field).named = none ∧
    failure = ⟨"profile." ++ rule.section_ ++ "." ++ rule.field ++ ".required",
      rule.section_ ++ "." ++ rule.field, .invalid, rule.field ++ " must be a nonblank string"⟩) ∨
  ∃ version, ((content.member rule.section_).member rule.field).named = some version ∧
    version ∉ rule.available ∧ failure = rule.unavailable

theorem requiredVersion_adds (hs : Settings content sections) {rule : VersionRule}
    (hsection : rule.section_ ∈ requiredSections) :
    Adds (requiredVersion sections rule.section_ rule.field rule.available rule.unavailable)
      (VersionFault content rule) := by
  unfold requiredVersion VersionFault
  rw [requiredString_eq hs hsection]
  rcases ((content.member rule.section_).member rule.field).named with _ | version
  · exact ⟨_, rfl, fun failure => by simp⟩
  · refine ⟨_, rfl, fun failure => ?_⟩
    by_cases havailable : version ∈ rule.available <;> simp [havailable]

theorem mem_modelVersion {index : Nat} {version : PyValue}
    {failure : ConfigurationValidationFailure} :
    failure ∈ modelVersion validator index version ↔
      (version.named = none ∧ failure = ⟨"profile.model.version.valid",
        "model.versions[" ++ toString index ++ "]", .invalid,
        "model version must be a nonblank string"⟩) ∨
      ∃ name, version.named = some name ∧ name ∉ validator.models ∧
        failure = ⟨"profile.model.version.available",
          "model.versions[" ++ toString index ++ "]", .unavailable,
          "model version " ++ name ++ " is unavailable"⟩ := by
  unfold modelVersion PyValue.named
  dsimp only
  rcases version.string?.filter (blank · = false) with _ | name
  · simp
  · by_cases havailable : name ∈ validator.models <;> simp [havailable]

def ModelFault (validator : ConfigurationValidator) (content : PyValue)
    (failure : ConfigurationValidationFailure) : Prop :=
  ((∀ versions, ((content.member "model").member "versions").sequence? = some versions →
    versions = []) ∧ failure = ⟨"profile.model.versions.required", "model.versions", .invalid,
      "at least one model version is required"⟩) ∨
  ∃ versions index version,
    ((content.member "model").member "versions").sequence? = some versions ∧
      versions[index]? = some version ∧ failure ∈ modelVersion validator index version

theorem modelVersions_adds (hs : Settings content sections) :
    Adds (modelVersions validator sections) (ModelFault validator content) := by
  unfold modelVersions ModelFault
  rw [hs.setting "model" (by decide)]
  simp only [bind, Except.bind]
  rcases ((content.member "model").member "versions").sequence? with _ | versions
  · exact ⟨_, rfl, fun failure => by simp⟩
  rcases versions with _ | ⟨first, rest⟩
  · exact ⟨_, rfl, fun failure => by simp⟩
  refine ⟨_, rfl, fun failure => ?_⟩
  rw [List.mem_flatMap]
  constructor
  · rintro ⟨⟨version, index⟩, hitem, hfailure⟩
    exact Or.inr ⟨_, index, version, rfl, List.mem_zipIdx_iff_getElem?.1 hitem, hfailure⟩
  · rintro (⟨hnone, -⟩ | ⟨versions, index, version, hlisted, hfound, hfailure⟩)
    · cases hnone _ rfl
    · cases hlisted
      exact ⟨(version, index), List.mem_zipIdx_iff_getElem?.2 hfound, hfailure⟩

def AdapterFault (validator : ConfigurationValidator) (content : PyValue)
    (failure : ConfigurationValidationFailure) : Prop :=
  (((content.member "database").member "adapter_id").named = none ∧
    failure = ⟨"profile.database.adapter_id.required", "database.adapter_id", .invalid,
      "adapter_id is required"⟩) ∨
  (((content.member "database").member "adapter_version").named = none ∧
    failure = ⟨"profile.database.adapter_version.required", "database.adapter_version", .invalid,
      "adapter_version is required"⟩) ∨
  ∃ adapterId adapterVersion,
    ((content.member "database").member "adapter_id").named = some adapterId ∧
    ((content.member "database").member "adapter_version").named = some adapterVersion ∧
    (adapterId, adapterVersion) ∉ validator.adapters ∧
    failure = ⟨"profile.database.adapter.evidence", "database.adapter_version", .unavailable,
      "complete passing adapter evidence is unavailable"⟩

theorem adapter_adds (hs : Settings content sections) :
    Adds (adapter validator sections) (AdapterFault validator content) := by
  unfold adapter AdapterFault PyValue.named
  rw [hs.setting "database" (by decide), hs.setting "database" (by decide)]
  simp only [bind, Except.bind]
  refine ⟨_, rfl, fun failure => ?_⟩
  rcases ((content.member "database").member "adapter_id").string?.filter (blank · = false) with
    _ | adapterId <;>
  rcases ((content.member "database").member "adapter_version").string?.filter (blank · = false)
    with _ | adapterVersion
  · simp
  · simp
  · simp
  · by_cases hevident : (adapterId, adapterVersion) ∈ validator.adapters <;> simp [hevident]

def CredentialFault (validator : ConfigurationValidator) (content : PyValue)
    (failure : ConfigurationValidationFailure) : Prop :=
  (((content.member "database").member "read_only_credential_id").named = none ∧
    failure = ⟨"profile.database.credential.required", "database.read_only_credential_id",
      .invalid, "read-only credential is required"⟩) ∨
  (∃ credentialId,
    ((content.member "database").member "read_only_credential_id").named = some credentialId ∧
    validator.credentials.get? credentialId = none ∧
    failure = ⟨"profile.database.credential.evidence", "database.read_only_credential_id",
      .unavailable, "credential authorization evidence is unavailable"⟩) ∨
  ∃ credentialId effectiveOperations,
    ((content.member "database").member "read_only_credential_id").named = some credentialId ∧
    validator.credentials.get? credentialId = some effectiveOperations ∧
    (∃ operation ∈ effectiveOperations, casefold operation ∈ mutationNames) ∧
    failure = ⟨"profile.database.credential.read_only", "database.read_only_credential_id",
      .unauthorized, "credential has effective mutation authorization"⟩

theorem credential_adds (hs : Settings content sections) :
    Adds (credential validator sections) (CredentialFault validator content) := by
  unfold credential CredentialFault PyValue.named
  rw [hs.setting "database" (by decide)]
  simp only [bind, Except.bind]
  rcases ((content.member "database").member "read_only_credential_id").string?.filter
    (blank · = false) with _ | credentialId
  · exact ⟨_, rfl, fun failure => by simp⟩
  simp only
  rcases hevidence : validator.credentials.get? credentialId with _ | effectiveOperations
  · exact ⟨_, rfl, fun failure => by simp [hevidence]⟩
  refine ⟨_, rfl, fun failure => ?_⟩
  by_cases hmutates : ∃ operation ∈ effectiveOperations, casefold operation ∈ mutationNames
  · have hany : (effectiveOperations.any fun operation => casefold operation ∈ mutationNames) =
        true := by simpa using hmutates
    simp [hany, hevidence, hmutates]
  · have hany : (effectiveOperations.any fun operation => casefold operation ∈ mutationNames) =
        false := by simpa using hmutates
    simp [hany, hevidence, hmutates]

end Rules

section Canonical

variable {runtime : PythonRuntime} {content : PyValue}

/-- The exceptions `validate` turns into a failure. -/
def Reported (error : PyError) : Prop :=
  ∃ message, error = .raised .typeError message ∨ error = .raised .valueError message ∨
    error = .raised (.other "UnicodeEncodeError") message

/-- The content has no canonical form, and the message says why. -/
def CanonicalFault (runtime : PythonRuntime) (content : PyValue)
    (failure : ConfigurationValidationFailure) : Prop :=
  ∃ cls message, canonicalizeProfile runtime content = .error (.raised cls message) ∧
    failure = ⟨"profile.content.canonical", "$", .invalid, message⟩

theorem raises_typeError {α : Type} (message : String) :
    OnlyRaises Reported (.error (.typeError message) : Except PyError α) :=
  onlyRaises_error ⟨message, Or.inl rfl⟩

theorem raises_valueError {α : Type} (message : String) :
    OnlyRaises Reported (.error (.valueError message) : Except PyError α) :=
  onlyRaises_error ⟨message, Or.inr (Or.inl rfl)⟩

theorem encodeText_raises (text : CodeText) : OnlyRaises Reported (encodeText text) := by
  unfold encodeText
  split
  · exact onlyRaises_ok _
  · exact onlyRaises_error ⟨_, Or.inr (Or.inr rfl)⟩

mutual

theorem freeze_raises : ∀ value : PyValue, OnlyRaises Reported value.freeze
  | .none | .bool _ | .int _ | .float _ | .str _ | .frozenMapping _ => onlyRaises_ok _
  | .list items | .tuple items | .set items | .frozenset items => (freezeItems_raises items).map _
  | .dict items => by
    rw [PyValue.freeze]
    split
    · exact (freezeEntries_raises items).map _
    · exact raises_typeError _
  | .bytes _ | .object _ => raises_typeError _

theorem freezeItems_raises : ∀ items : List PyValue,
    OnlyRaises Reported (PyValue.freezeItems items)
  | [] => onlyRaises_ok _
  | value :: rest => (freeze_raises value).bind fun _ _ =>
      (freezeItems_raises rest).bind fun _ _ => onlyRaises_ok _

theorem freezeEntries_raises : ∀ items : List (PyValue × PyValue),
    OnlyRaises Reported (PyValue.freezeEntries items)
  | [] => onlyRaises_ok _
  | (key, value) :: rest => by
    rw [PyValue.freezeEntries]
    refine (freeze_raises value).bind fun _ _ => (freezeEntries_raises rest).bind fun _ _ => ?_
    split <;> exact onlyRaises_ok _

end

section Form

variable (form : CanonicalForm) (runtime : PythonRuntime)

theorem sortMembers_raises (items : List Document) :
    OnlyRaises Reported (form.sortMembers runtime items) := by
  refine (onlyRaises_mapM fun item _ => ?_).bind fun _ _ => onlyRaises_ok _
  refine OnlyRaises.bind ?_ fun _ _ => onlyRaises_ok _
  unfold CanonicalForm.sortText
  split
  · exact onlyRaises_ok _
  · exact raises_valueError _

mutual

theorem canonicalValue_raises : ∀ value : FrozenValue,
    OnlyRaises Reported (form.canonicalValue runtime value)
  | .none | .bool _ | .int _ | .str _ => onlyRaises_ok _
  | .float value => by
    rw [CanonicalForm.canonicalValue]
    split
    · exact onlyRaises_ok _
    · exact raises_valueError _
  | .tuple items => (canonicalItems_raises items).map _
  | .frozenset items => (canonicalItems_raises items).bind fun _ _ =>
      (sortMembers_raises form runtime _).map _
  | .mapping entries => (canonicalEntries_raises [] entries).map _

theorem canonicalItems_raises : ∀ items : List FrozenValue,
    OnlyRaises Reported (form.canonicalItems runtime items)
  | [] => onlyRaises_ok _
  | value :: rest => (canonicalValue_raises value).bind fun _ _ =>
      (canonicalItems_raises rest).bind fun _ _ => onlyRaises_ok _

theorem canonicalEntries_raises (seen : List String) :
    ∀ entries : List (String × FrozenValue),
      OnlyRaises Reported (form.canonicalEntries runtime seen entries)
  | [] => onlyRaises_ok _
  | (key, value) :: rest => by
    rw [CanonicalForm.canonicalEntries]
    split
    · exact canonicalEntries_raises seen rest
    · exact (canonicalValue_raises value).bind fun _ _ =>
        (canonicalEntries_raises (key :: seen) rest).bind fun _ _ => onlyRaises_ok _

end

end Form

theorem canonicalizeProfile_raises (runtime : PythonRuntime) (content : PyValue) :
    OnlyRaises Reported (canonicalizeProfile runtime content) := by
  unfold canonicalizeProfile
  refine (freeze_raises content).bind fun frozen _ => ?_
  split
  · refine OnlyRaises.bind ?_ fun _ _ => onlyRaises_ok _
    unfold contentDigest
    refine (canonicalValue_raises _ _ _).bind fun document _ =>
      OnlyRaises.bind ?_ fun text _ => (encodeText_raises text).bind fun _ _ => onlyRaises_ok _
    unfold CanonicalPayload.dumps
    split
    · exact onlyRaises_ok _
    · exact raises_valueError _
  · exact raises_typeError _

theorem canonical_adds (runtime : PythonRuntime) (content : PyValue) :
    Adds (canonical runtime content) (CanonicalFault runtime content) := by
  unfold canonical CanonicalFault
  rcases hresult : canonicalizeProfile runtime content with error | result
  · obtain ⟨message, rfl | rfl | rfl⟩ :=
      canonicalizeProfile_raises runtime content error hresult <;>
      refine ⟨_, rfl, fun failure => ?_⟩ <;> simp
  · exact ⟨_, rfl, fun failure => by simp⟩

end Canonical

end ConfigurationValidator

end AiRetrieval
