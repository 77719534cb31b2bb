import AiRetrieval.Library.Dictionaries
import AiRetrieval.Library.Histories
import AiRetrieval.Library.Programs
import AiRetrieval.Spec.CanonicalValues

/-! `ConfigurationValidator` and `ConfigurationRegistry` of `control_plane/configuration.py`.
What the validator looks up (the active policies, rules, models, adapters and credentials) is
given with each call. -/

namespace AiRetrieval

inductive ValidationFailureKind where
  | missing
  | invalid
  | incompatible
  | unauthorized
  | unavailable
  deriving DecidableEq

def ValidationFailureKind.value : ValidationFailureKind → String
  | .missing => "missing"
  | .invalid => "invalid"
  | .incompatible => "incompatible"
  | .unauthorized => "unauthorized"
  | .unavailable => "unavailable"

structure ConfigurationValidationFailure where
  ruleId : String
  path : String
  kind : ValidationFailureKind
  message : String
  deriving DecidableEq

/-- `a <= b`, field by field. -/
def ConfigurationValidationFailure.notAfter (a b : ConfigurationValidationFailure) : Bool :=
  a.ruleId < b.ruleId || a.ruleId = b.ruleId && (a.path < b.path || a.path = b.path &&
    (a.kind.value < b.kind.value || a.kind.value = b.kind.value && a.message ≤ b.message))

structure ConfigurationValidationReport where
  failures : List ConfigurationValidationFailure := []
  deriving DecidableEq

def ConfigurationValidationReport.valid (report : ConfigurationValidationReport) : Bool :=
  report.failures.isEmpty

def requiredSections : List String :=
  ["routing", "database", "model", "budget", "deadline", "cancellation", "concurrency", "retry",
    "security", "validation", "telemetry", "write_back"]

def mutationNames : List String :=
  ["insert", "update", "delete", "merge", "alter", "create", "drop", "truncate", "grant",
    "revoke", "execute_mutating_routine"]

/-- `casefold` as far as its result is ASCII; any other character stays what it is, and is not
ASCII then either. -/
def casefoldChar (c : Char) : List Char :=
  if 'A' ≤ c ∧ c ≤ 'Z' then [Char.ofNat (c.toNat + 32)]
  else if c.toNat = 0x17F then ['s']
  else if c.toNat = 0x212A then ['k']
  else if c.toNat = 0xDF ∨ c.toNat = 0x1E9E then ['s', 's']
  else if c.toNat = 0xFB00 then ['f', 'f']
  else if c.toNat = 0xFB01 then ['f', 'i']
  else if c.toNat = 0xFB02 then ['f', 'l']
  else if c.toNat = 0xFB03 then ['f', 'f', 'i']
  else if c.toNat = 0xFB04 then ['f', 'f', 'l']
  else if c.toNat = 0xFB05 ∨ c.toNat = 0xFB06 then ['s', 't']
  else [c]

def casefold (value : String) : String := String.ofList (value.toList.flatMap casefoldChar)

/-- The integers a float cannot hold begin here. -/
def floatOverflow : Nat := 2 ^ 1024 - 2 ^ 970

namespace PyValue

/-- `isinstance(value, Mapping)`. -/
def isMapping : PyValue → Bool
  | .dict _ | .frozenMapping _ => true
  | _ => false

/-- `isinstance(value, str)`. -/
def string? : PyValue → Option String
  | .str value => some value
  | _ => Option.none

/-- `not isinstance(value, bool) and isinstance(value, (int, float)) and math.isfinite(value)`,
with the number. -/
def finiteNumber : PyValue → Except PyError (Option Rat)
  | .int value =>
    if value.natAbs < floatOverflow then .ok (some value)
    else .error (.raised .overflowError "int too large to convert to float")
  | .float (.finite negative magnitude) => .ok (some (if negative then -magnitude else magnitude))
  | _ => .ok Option.none

/-- `isinstance(value, (list, tuple))`. -/
def sequence? : PyValue → Option (List PyValue)
  | .list items | .tuple items => some items
  | _ => Option.none

end PyValue

/-- `ConfigurationValidator`, as the registries it reads stand. -/
structure ConfigurationValidator where
  securityPolicies : List String
  validationRules : List String
  models : List String
  /-- The adapters, with their versions, that have complete passing evidence. -/
  adapters : List (String × String)
  /-- The effective operations of the credentials there is evidence for. -/
  credentials : Dict String (List String)

abbrev RuleFailures := Except PyError (List ConfigurationValidationFailure)

namespace ConfigurationValidator

/-- The sections of a profile that are mappings. -/
abbrev Sections := List (String × PyValue)

/-- `sections.get(section, {}).get(field)`. -/
def setting (sections : Sections) (section_ field : String) : Except PyError PyValue :=
  ((sections.lookup section_).getD (.dict [])).find field .none

def readSections (content : PyValue) : List String →
    Except PyError (List ConfigurationValidationFailure × Sections)
  | [] => .ok ([], [])
  | name :: rest => do
    let value ← content.find name .none
    let (failures, sections) ← readSections content rest
    match value with
    | .none =>
      return (⟨"profile." ++ name ++ ".required", name, .missing,
        name ++ " settings are required"⟩ :: failures, sections)
    | value =>
      if value.isMapping then return (failures, (name, value) :: sections)
      else
        return (⟨"profile." ++ name ++ ".mapping", name, .invalid,
          name ++ " must be a mapping"⟩ :: failures, sections)

def invalidField (section_ field message : String) : ConfigurationValidationFailure :=
  ⟨"profile." ++ section_ ++ "." ++ field ++ ".valid", section_ ++ "." ++ field, .invalid,
    field ++ " " ++ message⟩

def validateNumber (sections : Sections) (section_ field : String) (predicate : Rat → Bool)
    (message : String) : RuleFailures := do
  let number ← (← setting sections section_ field).finiteNumber
  return if number.any predicate then [] else [invalidField section_ field message]

def positiveNumber (sections : Sections) (section_ field : String) : RuleFailures :=
  validateNumber sections section_ field (fun value => decide (0 < value))
    "must be greater than zero"

def nonnegativeNumber (sections : Sections) (section_ field : String) : RuleFailures :=
  validateNumber sections section_ field (fun value => decide (0 ≤ value)) "must be non-negative"

def positiveInteger (sections : Sections) (section_ field : String) : RuleFailures := do
  match ← setting sections section_ field with
  | .int value =>
    return if 0 < value then [] else [invalidField section_ field "must be a positive integer"]
  | _ => return [invalidField section_ field "must be a positive integer"]

def boolean (sections : Sections) (section_ field : String) : RuleFailures :=
  match sections.lookup section_ with
  | none => .ok []
  | some _ => do
    match ← setting sections section_ field with
    | .bool _ => return []
    | _ => return [invalidField section_ field "must be boolean"]

def requiredString (sections : Sections) (section_ field : String) :
    Except PyError (Except ConfigurationValidationFailure String) := do
  match (← setting sections section_ field).string?.filter (blank · = false) with
  | some value => return .ok value
  | none =>
    return .error ⟨"profile." ++ section_ ++ "." ++ field ++ ".required",
      section_ ++ "." ++ field, .invalid, field ++ " must be a nonblank string"⟩

def requiredVersion (sections : Sections) (section_ field : String) (available : List String)
    (unavailable : ConfigurationValidationFailure) : RuleFailures := do
  match ← requiredString sections section_ field with
  | .error failure => return [failure]
  | .ok version => return if version ∈ available then [] else [unavailable]

variable (validator : ConfigurationValidator)

def modelVersion (index : Nat) (version : PyValue) : List ConfigurationValidationFailure :=
  let path := "model.versions[" ++ toString index ++ "]"
  match version.string?.filter (blank · = false) with
  | none =>
    [⟨"profile.model.version.valid", path, .invalid, "model version must be a nonblank string"⟩]
  | some version =>
    if version ∈ validator.models then []
    else [⟨"profile.model.version.available", path, .unavailable,
      "model version " ++ version ++ " is unavailable"⟩]

def modelVersions (sections : Sections) : RuleFailures := do
  match (← setting sections "model" "versions").sequence? with
  | none | some [] =>
    return [⟨"profile.model.versions.required", "model.versions", .invalid,
      "at least one model version is required"⟩]
  | some versions =>
    return versions.zipIdx.flatMap fun item => modelVersion validator item.2 item.1

def adapter (sections : Sections) : RuleFailures := do
  let adapterId := (← setting sections "database" "adapter_id").string?.filter (blank · = false)
  let adapterVersion :=
    (← setting sections "database" "adapter_version").string?.filter (blank · = false)
  let named := if adapterId.isSome then [] else
    [⟨"profile.database.adapter_id.required", "database.adapter_id", .invalid,
      "adapter_id is required"⟩]
  let versioned := if adapterVersion.isSome then [] else
    [⟨"profile.database.adapter_version.required", "database.adapter_version", .invalid,
      "adapter_version is required"⟩]
  let evident := match adapterId, adapterVersion with
    | some adapterId, some adapterVersion =>
      if (adapterId, adapterVersion) ∈ validator.adapters then [] else
        [⟨"profile.database.adapter.evidence", "database.adapter_version", .unavailable,
          "complete passing adapter evidence is unavailable"⟩]
    | _, _ => []
  return named ++ versioned ++ evident

def credential (sections : Sections) : RuleFailures := do
  let path := "database.read_only_credential_id"
  match (← setting sections "database" "read_only_credential_id").string?.filter
      (blank · = false) with
  | none =>
    return [⟨"profile.database.credential.required", path, .invalid,
      "read-only credential is required"⟩]
  | some credentialId =>
    match validator.credentials.get? credentialId with
    | none =>
      return [⟨"profile.database.credential.evidence", path, .unavailable,
        "credential authorization evidence is unavailable"⟩]
    | some effectiveOperations =>
      return if effectiveOperations.any fun operation => casefold operation ∈ mutationNames then
        [⟨"profile.database.credential.read_only", path, .unauthorized,
          "credential has effective mutation authorization"⟩]
      else []

end ConfigurationValidator

/-- The canonical form of configurations, with the `json.dumps` of `_canonical_value`. -/
def configurationForm : CanonicalForm where
  notFinite := "configuration numbers must be finite"
  style := ⟨JsonValue.quotedAscii, CodeText.ofString ",", CodeText.ofString ":"⟩

def contentDigest (runtime : PythonRuntime) (content : FrozenMapping) : Except PyError String := do
  let document ← configurationForm.canonicalValue runtime (.mapping content)
  let text ← CanonicalPayload.dumps runtime document
  return runtime.sha256 (← encodeText text)

def canonicalizeProfile (runtime : PythonRuntime) (content : PyValue) :
    Except PyError (FrozenMapping × String) := do
  match ← content.freeze with
  | .mapping frozen => return (frozen, ← contentDigest runtime frozen)
  | _ => .error (.typeError "configuration profile must be a mapping")

namespace ConfigurationValidator

def canonical (runtime : PythonRuntime) (content : PyValue) : RuleFailures :=
  match canonicalizeProfile runtime content with
  | .ok _ => .ok []
  | .error (.raised .typeError message) | .error (.raised .valueError message)
  | .error (.raised (.other "UnicodeEncodeError") message) =>
    .ok [⟨"profile.content.canonical", "$", .invalid, message⟩]
  | .error error => .error error

def gather : List RuleFailures → RuleFailures
  | [] => .ok []
  | rule :: rest => do return (← rule) ++ (← gather rest)

/-- The rules of `validate`, in its order, over the sections that are mappings. -/
def rules (validator : ConfigurationValidator) (runtime : PythonRuntime) (content : PyValue)
    (sections : Sections) : List RuleFailures :=
  [positiveNumber sections "deadline" "duration_seconds",
    nonnegativeNumber sections "cancellation" "timeout_seconds",
    positiveInteger sections "concurrency" "limit",
    positiveInteger sections "retry" "max_attempts",
    nonnegativeNumber sections "budget" "cost_limit",
    nonnegativeNumber sections "budget" "token_limit",
    boolean sections "routing" "interactive",
    boolean sections "routing" "bulk",
    boolean sections "telemetry" "enabled",
    boolean sections "write_back" "enabled",
    requiredVersion sections "security" "policy_version" validator.securityPolicies
      ⟨"profile.security.policy.available", "security.policy_version", .unavailable,
        "referenced security policy is unavailable"⟩,
    requiredVersion sections "validation" "rules_version" validator.validationRules
      ⟨"profile.validation.rules.available", "validation.rules_version", .unavailable,
        "referenced validation rules are unavailable"⟩,
    modelVersions validator sections,
    adapter validator sections,
    credential validator sections,
    canonical runtime content]

/-- `tuple(sorted(set(failures)))`. -/
def sortedFailures (failures : List ConfigurationValidationFailure) :
    List ConfigurationValidationFailure :=
  failures.dedup.insertionSort fun a b => a.notAfter b

def validate (validator : ConfigurationValidator) (runtime : PythonRuntime) (content : PyValue) :
    Except PyError ConfigurationValidationReport := do
  let (missing, sections) ← readSections content requiredSections
  let found ← gather (rules validator runtime content sections)
  return ⟨sortedFailures (missing ++ found)⟩

end ConfigurationValidator

structure StoredConfigurationVersion where
  reference : ConfigurationReference
  content : FrozenMapping
  canonicalDigest : String
  createdAt : DateTime
  retainUntil : DateTime

structure ConfigurationRegistry where
  versions : Dict ConfigurationReference StoredConfigurationVersion := .empty
  active : Dict String ConfigurationReference := .empty

/-- What the registry is constructed with, and the interpreter. -/
structure ConfigurationPorts where
  runtime : PythonRuntime
  retentionPeriod : TimeDelta

/-- How an activation fails: `ConfigurationActivationError`, or what else is raised. -/
inductive ActivationError where
  | rejected (report : ConfigurationValidationReport)
  | raised (error : PyError)
  deriving DecidableEq

/-- A call of `activate`, with the validator and the clock as it finds them. -/
structure Activation where
  profileId : String
  content : PyValue
  validator : ConfigurationValidator
  clock : DateTime

namespace ConfigurationRegistry

open Program

def digestCollision : ActivationError :=
  .raised (.raised .runtimeError "configuration digest collision")

/-- The part of `activate` that only computes: the checks, the canonical content with its digest
and the reference. -/
def checked (ports : ConfigurationPorts) (call : Activation) :
    Except ActivationError (FrozenMapping × String × ConfigurationReference) := do
  if blank call.profileId then throw (.raised (.valueError "profile_id must not be blank"))
  let report ← (call.validator.validate ports.runtime call.content).mapError ActivationError.raised
  if report.valid = false then throw (.rejected report)
  let (canonical, digest) ←
    (canonicalizeProfile ports.runtime call.content).mapError ActivationError.raised
  let reference ← (Checked.make ConfigurationReference.postInit
    ⟨call.profileId, "sha256:" ++ digest⟩).mapError ActivationError.raised
  return (canonical, digest, reference)

/-- What a reference is found to stand for, or what is stored under it now. -/
def store (ports : ConfigurationPorts) (call : Activation) (reference : ConfigurationReference)
    (canonical : FrozenMapping) (digest : String) :
    Program ActivationError ConfigurationRegistry Unit := do
  match (← get).versions.get? reference with
  | some existing =>
    if (FrozenValue.mapping existing.content).equal (.mapping canonical) then return ()
    else throw digestCollision
  | none =>
    let createdAt := call.clock
    let retainUntil ← liftM ((createdAt.plus ports.retentionPeriod).mapError ActivationError.raised)
    modify fun registry => { registry with
      versions := registry.versions.insert reference
        ⟨reference, canonical, digest, createdAt, retainUntil⟩ }

def activate (ports : ConfigurationPorts) (call : Activation) :
    Program ActivationError ConfigurationRegistry ConfigurationReference := do
  let (canonical, digest, reference) ← liftM (checked ports call)
  store ports call reference canonical digest
  modify fun registry => { registry with
    active := registry.active.insert call.profileId reference }
  return reference

/-- `ConfigurationBindingError` of `CONFIGURATION_UNAVAILABLE`. -/
def unavailable (name : String) : PyError :=
  .raised (.other "ConfigurationBindingError") ("configuration " ++ name ++ " is unavailable")

def stored (registry : ConfigurationRegistry) (reference : ConfigurationReference) :
    Except PyError StoredConfigurationVersion :=
  match registry.versions.get? reference with
  | some version => .ok version
  | none => .error (unavailable (reference.val.profileId ++ "@" ++ reference.val.version))

end ConfigurationRegistry

def boundVersion (content : FrozenMapping) (section_ field whole : String) : Option String :=
  let value := match FrozenMapping.get content section_ with
    | some (.mapping settings) => FrozenMapping.get settings field
    | _ => FrozenMapping.get content whole
  match value with
  | some (.str version) => some version
  | _ => none

def executionConfiguration (reference : ConfigurationReference) (content : FrozenMapping) :
    ExecutionConfiguration where
  reference := reference
  content := content
  securityPolicyVersion :=
    boundVersion content "security" "policy_version" "security_policy_version"
  validationRulesVersion :=
    boundVersion content "validation" "rules_version" "validation_rules_version"

def ConfigurationRegistry.bind (registry : ConfigurationRegistry)
    (reference : ConfigurationReference) : Except PyError ExecutionConfiguration := do
  return executionConfiguration reference (← registry.stored reference).content

def configurationMachine (ports : ConfigurationPorts) : Machine Activation
    (Except ActivationError ConfigurationReference) ConfigurationRegistry :=
  fun call registry => (ConfigurationRegistry.activate ports call).exec registry

end AiRetrieval
