import AiRetrieval.Sanity.CanonicalReadings
import AiRetrieval.Spec.TaskRegistry

/-! What a definition is registered under: which definitions have one canonical content, which
calls the registry accepts, and what each call leaves in it. -/

namespace AiRetrieval

open CanonicalForm Program

namespace TaskDefinition

section Contents

variable {runtime : PythonRuntime} {a b : TaskDefinition}

/-- Definitions whose canonical content is the same: their contracts read alike, and all other
fields but the version are equal. -/
structure ReadsAlike (runtime : PythonRuntime) (a b : TaskDefinition) : Prop where
  function : a.function = b.function
  promptTemplate : a.promptTemplate = b.promptTemplate
  parameterContract : Alike form runtime (.mapping a.parameterContract)
    (.mapping b.parameterContract)
  payloadContract : Alike form runtime (.mapping a.payloadContract) (.mapping b.payloadContract)
  outputSchema : Alike form runtime (.mapping a.outputSchema) (.mapping b.outputSchema)
  requiredCapabilities : a.requiredCapabilities = b.requiredCapabilities
  validationRulesVersion : a.validationRulesVersion = b.validationRulesVersion
  packingLimits : a.packingLimits = b.packingLimits
  responseSizeLimit : a.responseSizeLimit = b.responseSizeLimit
  labelCountLimit : a.labelCountLimit = b.labelCountLimit
  labelCharacterLimit : a.labelCharacterLimit = b.labelCharacterLimit
  summaryLimits : a.summaryLimits = b.summaryLimits

theorem text_sorted_eq_iff {v w : String} : (text v).sorted = (text w).sorted ↔ v = w := by
  unfold text
  rw [JsonValue.sorted, JsonValue.sorted, JsonValue.text.injEq,
    CodeText.ofString_injective.eq_iff]
  all_goals simp

theorem texts_sorted_eq_iff {vs ws : List String} :
    (JsonValue.array (vs.map text) : Document).sorted = (JsonValue.array (ws.map text)).sorted ↔
      vs = ws := by
  have hinjective : Function.Injective fun v : String => (text v).sorted :=
    fun v w h => text_sorted_eq_iff.1 h
  rw [JsonValue.sorted, JsonValue.sorted, JsonValue.array.injEq, JsonValue.sortedItems_eq_map,
    JsonValue.sortedItems_eq_map, List.map_map, List.map_map]
  exact (List.map_injective_iff.2 hinjective).eq_iff

theorem optional_sorted_eq_iff {v w : Option Int} :
    (optional v).sorted = (optional w).sorted ↔ v = w := by
  cases v <;> cases w <;> simp [optional, JsonValue.sorted]

theorem function_value_injective : Function.Injective TaskFunction.value := by
  intro a b h
  cases a <;> cases b <;> first | rfl | exact absurd h (by decide)

theorem packingLimits_sorted_eq_iff {v w : PackingLimits} :
    v.document.sorted = w.document.sorted ↔ v = w := by
  unfold PackingLimits.document
  refine Iff.trans (JsonValue.sorted_object_eq_iff_forall₂ rfl ?_) ?_
  · simp [CodeText.ofString_injective.eq_iff]
  simp only [List.forall₂_cons, List.forall₂_nil_right_iff, and_true]
  cases v
  cases w
  simp [JsonValue.sorted]

theorem summaryLimits_sorted_eq_iff {v w : SummaryLengthLimits} :
    v.document.sorted = w.document.sorted ↔ v = w := by
  unfold SummaryLengthLimits.document
  refine Iff.trans (JsonValue.sorted_object_eq_iff_forall₂ rfl ?_) ?_
  · simp [CodeText.ofString_injective.eq_iff]
  simp only [List.forall₂_cons, List.forall₂_nil_right_iff, and_true]
  cases v
  cases w
  simp [JsonValue.sorted]

theorem optionalLimits_sorted_eq_iff {v w : Option SummaryLengthLimits} :
    (optionalLimits v).sorted = (optionalLimits w).sorted ↔ v = w := by
  cases v with
  | none => cases w <;> simp [optionalLimits, JsonValue.sorted, SummaryLengthLimits.document]
  | some v => cases w with
    | none => simp [optionalLimits, JsonValue.sorted, SummaryLengthLimits.document]
    | some w =>
      rw [Option.some.injEq]
      exact summaryLimits_sorted_eq_iff

theorem content_finite {document : Document} (h : a.content runtime = .ok document) :
    document.Floats fun value => value.isFinite = true := by
  obtain ⟨parameters, hparameters, h⟩ := except_bind_eq_ok.1 h
  obtain ⟨payload, hpayload, h⟩ := except_bind_eq_ok.1 h
  obtain ⟨schema, hschema, h⟩ := except_bind_eq_ok.1 h
  cases h
  have htexts : JsonValue.FloatsItems (fun value : PyFloat => value.isFinite = true)
      (a.requiredCapabilities.items.map text) := by
    rw [JsonValue.floatsItems_iff]
    intro item hitem
    obtain ⟨value, -, rfl⟩ := List.mem_map.1 hitem
    trivial
  have hoptional : ∀ value : Option Int,
      (optional value).Floats fun value => value.isFinite = true := by
    intro value
    cases value <;> trivial
  refine ⟨trivial, trivial, canonicalValue_finite hparameters, canonicalValue_finite hpayload,
    canonicalValue_finite hschema, htexts, trivial, ⟨trivial, trivial, trivial, trivial, trivial⟩,
    trivial, hoptional _, hoptional _, ?_, trivial⟩
  cases a.summaryLimits with
  | none => trivial
  | some limits => exact ⟨trivial, trivial, trivial, trivial⟩

theorem content_sorted_eq_iff {document document' : Document}
    (h : a.content runtime = .ok document) (h' : b.content runtime = .ok document') :
    document.sorted = document'.sorted ↔ ReadsAlike runtime a b := by
  obtain ⟨parameters, hparameters, h⟩ := except_bind_eq_ok.1 h
  obtain ⟨payload, hpayload, h⟩ := except_bind_eq_ok.1 h
  obtain ⟨schema, hschema, h⟩ := except_bind_eq_ok.1 h
  obtain ⟨parameters', hparameters', h'⟩ := except_bind_eq_ok.1 h'
  obtain ⟨payload', hpayload', h'⟩ := except_bind_eq_ok.1 h'
  obtain ⟨schema', hschema', h'⟩ := except_bind_eq_ok.1 h'
  cases h
  cases h'
  refine Iff.trans (JsonValue.sorted_object_eq_iff_forall₂ rfl ?_) ?_
  · simp [CodeText.ofString_injective.eq_iff]
  simp only [List.forall₂_cons, List.forall₂_nil_right_iff, and_true, text_sorted_eq_iff,
    function_value_injective.eq_iff, alike_iff hparameters hparameters',
    alike_iff hpayload hpayload', alike_iff hschema hschema', texts_sorted_eq_iff,
    packingLimits_sorted_eq_iff, optional_sorted_eq_iff, optionalLimits_sorted_eq_iff]
  constructor
  · rintro ⟨h1, h2, h3, h4, h5, h6, h7, h8, h9, h10, h11, h12⟩
    refine ⟨h1, h2, h3, h4, h5, ?_, h7, h8, by simpa [JsonValue.sorted] using h9, h10, h11, h12⟩
    rcases hset : a.requiredCapabilities with ⟨items, ordered⟩
    rcases hset' : b.requiredCapabilities with ⟨items', ordered'⟩
    rw [hset, hset'] at h6
    simp only at h6
    subst h6
    rfl
  · intro h
    refine ⟨h.function, h.promptTemplate, h.parameterContract, h.payloadContract, h.outputSchema,
      by rw [h.requiredCapabilities], h.validationRulesVersion, h.packingLimits,
      by rw [h.responseSizeLimit], h.labelCountLimit, h.labelCharacterLimit, h.summaryLimits⟩

theorem canonicalBytes_eq_iff
    (hfloat : JsonValue.FloatTexts (fun value => value.isFinite = true) runtime.numberText)
    {bytes bytes' : Bytes} (h : a.canonicalBytes runtime = .ok bytes)
    (h' : b.canonicalBytes runtime = .ok bytes') : bytes = bytes' ↔ ReadsAlike runtime a b := by
  obtain ⟨document, hdocument, h⟩ := except_bind_eq_ok.1 h
  obtain ⟨document', hdocument', h'⟩ := except_bind_eq_ok.1 h'
  rw [encoded_eq_iff hfloat (content_finite hdocument) (content_finite hdocument') h h',
    content_sorted_eq_iff hdocument hdocument']

end Contents

@[simp] theorem canonicalBytes_version (runtime : PythonRuntime) (a : TaskDefinition)
    (version : String) :
    ({ a with version := version } : TaskDefinition).canonicalBytes runtime =
      a.canonicalBytes runtime := rfl

end TaskDefinition

section Registrations

variable (runtime : PythonRuntime)

structure Registration.Accepted (call : Registration) (bytes : Bytes) : Prop where
  valid : call.candidate.validate call.available = []
  encoded : call.candidate.canonicalBytes runtime = .ok bytes
  supplied : call.candidate.version = "" ∨ call.candidate.version = runtime.sha256 bytes

/-- The copy of a candidate that is stored. -/
def Registration.versioned (call : Registration) (bytes : Bytes) : TaskDefinition :=
  { call.candidate with version := runtime.sha256 bytes }

/-- Every definition is kept under its function and the digest of its content, which is kept
too. -/
structure TaskDefinitionRegistry.Recorded (s : TaskDefinitionRegistry) : Prop where
  definitions : ∀ function version definition,
    s.definitions.get? (function, version) = some definition →
      definition.function = function ∧ definition.version = version ∧
      ∃ bytes, definition.canonicalBytes runtime = .ok bytes ∧ version = runtime.sha256 bytes
  canonical : ∀ version bytes, s.canonicalByVersion.get? version = some bytes →
    version = runtime.sha256 bytes

/-- What `register` does: it refuses and changes nothing, returns what is kept under the key
already, or keeps the versioned copy. -/
inductive RegisterOutcome (call : Registration) (s : TaskDefinitionRegistry) :
    Except RegistrationError TaskDefinition × TaskDefinitionRegistry → Prop where
  | refused (error : RegistrationError) (unaccepted : ∀ bytes, ¬call.Accepted runtime bytes) :
      RegisterOutcome call s (.error error, s)
  | known (bytes : Bytes) (existing : TaskDefinition) (accepted : call.Accepted runtime bytes)
      (kept : s.definitions.get? (call.candidate.function, runtime.sha256 bytes) = some existing) :
      RegisterOutcome call s (.ok existing, s)
  | stored (bytes : Bytes) (accepted : call.Accepted runtime bytes)
      (free : s.definitions.get? (call.candidate.function, runtime.sha256 bytes) = none) :
      RegisterOutcome call s (.ok (call.versioned runtime bytes), {
        definitions := s.definitions.insert (call.candidate.function, runtime.sha256 bytes)
          (call.versioned runtime bytes)
        canonicalByVersion := s.canonicalByVersion.insert (runtime.sha256 bytes) bytes })

variable {runtime}

theorem failing_eq_nil {holds : Prop} [Decidable holds] {rule : String} :
    TaskDefinition.failing holds rule = [] ↔ holds := by
  unfold TaskDefinition.failing
  split
  · next h => simp [h]
  · next h => simp [h]

theorem canonical_eq_some {candidate : TaskDefinition} {bytes : Bytes} :
    TaskDefinitionRegistry.canonical runtime candidate = .ok (some bytes) ↔
      candidate.canonicalBytes runtime = .ok bytes := by
  unfold TaskDefinitionRegistry.canonical
  split
  · next found hfound => simp [hfound]
  · next hfound => simp [hfound]
  · next hfound => simp [hfound]
  · next hfound => simp [hfound]
  · next e _ _ _ hfound => simp [hfound]

theorem TaskDefinitionRegistry.Recorded.content_of_digest
    (hsha : Function.Injective runtime.sha256) {s : TaskDefinitionRegistry}
    (hs : s.Recorded runtime) {bytes registered : Bytes}
    (h : s.canonicalByVersion.get? (runtime.sha256 bytes) = some registered) :
    registered = bytes :=
  (hsha (hs.canonical _ _ h)).symm

theorem registration_failures_iff (hsha : Function.Injective runtime.sha256) {call : Registration}
    {s : TaskDefinitionRegistry} (hs : s.Recorded runtime) {bytes : Bytes}
    (hbytes : call.candidate.canonicalBytes runtime = .ok bytes) :
    call.candidate.validate call.available ++
        TaskDefinition.failing ((some bytes).isSome = true) "canonical_content" ++
        TaskDefinitionRegistry.versionFailures runtime s call.candidate.version (some bytes) = [] ↔
      call.Accepted runtime bytes := by
  unfold TaskDefinitionRegistry.versionFailures
  simp only [List.append_eq_nil_iff, failing_eq_nil]
  constructor
  · rintro ⟨⟨hvalid, -⟩, hversion, -⟩
    exact ⟨hvalid, hbytes, hversion bytes rfl⟩
  · intro h
    refine ⟨⟨h.valid, rfl⟩, ?_, ?_⟩
    · intro other hother
      cases hother
      exact h.supplied
    · rcases h.supplied with hempty | hsame
      · exact .inl hempty
      · refine .inr fun registered hregistered => ?_
        rw [hsame] at hregistered
        rw [hs.content_of_digest hsha hregistered]

theorem register_outcome (hsha : Function.Injective runtime.sha256) (call : Registration)
    {s : TaskDefinitionRegistry} (hs : s.Recorded runtime) :
    RegisterOutcome runtime call s (taskRegistryMachine runtime call s) := by
  unfold taskRegistryMachine TaskDefinitionRegistry.register
  rw [exec_bind, exec_get]
  simp only
  rw [exec_bind, exec_liftExcept]
  have hencoded : ∀ bytes, call.Accepted runtime bytes →
      TaskDefinitionRegistry.canonical runtime call.candidate = .ok (some bytes) :=
    fun bytes h => canonical_eq_some.2 h.encoded
  rcases hcanonical : TaskDefinitionRegistry.canonical runtime call.candidate with e | canonical
  · refine .refused e fun bytes h => ?_
    rw [hencoded bytes h] at hcanonical
    cases hcanonical
  simp only
  split
  · next hfailed =>
    refine .refused _ fun bytes h => hfailed ?_
    rw [hencoded bytes h, Except.ok.injEq] at hcanonical
    subst hcanonical
    exact (registration_failures_iff hsha hs h.encoded).2 h
  · next hfailed =>
    rw [not_not] at hfailed
    cases canonical with
    | none =>
      refine .refused _ fun bytes h => ?_
      rw [hencoded bytes h] at hcanonical
      cases hcanonical
    | some bytes =>
      have haccepted :=
        (registration_failures_iff hsha hs (canonical_eq_some.1 hcanonical)).1 hfailed
      have hsame :
          ((s.canonicalByVersion.get? (runtime.sha256 bytes)).any (· ≠ bytes)) = false := by
        rcases hfound : s.canonicalByVersion.get? (runtime.sha256 bytes) with _ | registered
        · rfl
        · simp [hs.content_of_digest hsha hfound]
      simp only
      rw [if_neg (by rw [hsame]; exact Bool.false_ne_true)]
      rcases hkept : s.definitions.get? (call.candidate.function, runtime.sha256 bytes) with
        _ | existing
      · exact .stored bytes haccepted hkept
      · exact .known bytes existing haccepted hkept

theorem RegisterOutcome.recorded {call : Registration} {s : TaskDefinitionRegistry}
    {outcome : Except RegistrationError TaskDefinition × TaskDefinitionRegistry}
    (h : RegisterOutcome runtime call s outcome) (hs : s.Recorded runtime) :
    outcome.2.Recorded runtime := by
  cases h with
  | refused => exact hs
  | known => exact hs
  | stored bytes accepted free =>
    refine ⟨fun function version definition hd => ?_, fun version other hother => ?_⟩
    · simp only at hd
      rw [Dict.get?_insert] at hd
      split at hd
      · next hkey =>
        cases hkey
        cases hd
        exact ⟨rfl, rfl, bytes, accepted.encoded, rfl⟩
      · exact hs.definitions function version definition hd
    · simp only at hother
      rw [Dict.get?_insert] at hother
      split at hother
      · next hkey =>
        cases hkey
        cases hother
        rfl
      · exact hs.canonical version other hother

theorem RegisterOutcome.extends {call : Registration} {s : TaskDefinitionRegistry}
    {outcome : Except RegistrationError TaskDefinition × TaskDefinitionRegistry}
    (h : RegisterOutcome runtime call s outcome) :
    s.definitions.Extends outcome.2.definitions := by
  cases h with
  | refused => exact Dict.Extends.refl _
  | known => exact Dict.Extends.refl _
  | stored bytes accepted free => exact Dict.extends_insert _ free

end Registrations

end AiRetrieval
