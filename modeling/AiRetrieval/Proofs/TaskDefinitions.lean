import AiRetrieval.Proofs.ConfigurationDigests
import AiRetrieval.Sanity.RegisteredDefinitions
import Mathlib.Data.List.Induction

/-! What the task registry returns: a definition equal to the candidate up to its version,
exactly where no two accepted candidates differ and read alike; and what it lists. -/

namespace AiRetrieval

open CanonicalForm

/-- `==` of two contracts; one contract equals itself, whatever is in it. -/
def SameContract (a b : FrozenMapping) : Prop :=
  a = b ∨ (FrozenValue.mapping a).equal (.mapping b) = true

structure TaskDefinition.SameContent (a b : TaskDefinition) : Prop where
  function : a.function = b.function
  promptTemplate : a.promptTemplate = b.promptTemplate
  parameterContract : SameContract a.parameterContract b.parameterContract
  payloadContract : SameContract a.payloadContract b.payloadContract
  outputSchema : SameContract a.outputSchema b.outputSchema
  requiredCapabilities : a.requiredCapabilities = b.requiredCapabilities
  validationRulesVersion : a.validationRulesVersion = b.validationRulesVersion
  packingLimits : a.packingLimits = b.packingLimits
  responseSizeLimit : a.responseSizeLimit = b.responseSizeLimit
  labelCountLimit : a.labelCountLimit = b.labelCountLimit
  labelCharacterLimit : a.labelCharacterLimit = b.labelCharacterLimit
  summaryLimits : a.summaryLimits = b.summaryLimits

theorem TaskDefinition.SameContent.refl (a : TaskDefinition) : a.SameContent a :=
  ⟨rfl, rfl, .inl rfl, .inl rfl, .inl rfl, rfl, rfl, rfl, rfl, rfl, rfl, rfl⟩

theorem TaskDefinition.SameContent.versioned {a b : TaskDefinition} (h : a.SameContent b)
    (version : String) : ({ a with version := version } : TaskDefinition).SameContent b :=
  ⟨h.function, h.promptTemplate, h.parameterContract, h.payloadContract, h.outputSchema,
    h.requiredCapabilities, h.validationRulesVersion, h.packingLimits, h.responseSizeLimit,
    h.labelCountLimit, h.labelCharacterLimit, h.summaryLimits⟩

section Runs

variable {runtime : PythonRuntime}

abbrev RegistryTransition :=
  Transition Registration (Except RegistrationError TaskDefinition) TaskDefinitionRegistry

/-- In a run of the registry: what a registration returns is its candidate up to the version,
which is the digest of its canonical bytes; it is resolved from then on; candidates that differ
get different versions; and a rejection changes nothing. -/
structure ReturnsRegistered (runtime : PythonRuntime) (history : List RegistryTransition) :
    Prop where
  returned : ∀ t ∈ history, ∀ definition, t.reply = .ok definition →
    definition.SameContent t.input.candidate ∧ ∃ bytes,
      t.input.candidate.canonicalBytes runtime = .ok bytes ∧
      definition.version = runtime.sha256 bytes
  resolved : ∀ earlier t later, history = earlier ++ t :: later →
    ∀ definition, t.reply = .ok definition → ∀ u ∈ t :: later,
      u.after.resolve definition.function definition.version = some definition
  distinct : history.Pairwise fun t u => ∀ definition other, t.reply = .ok definition →
    u.reply = .ok other → definition.version = other.version →
      t.input.candidate.SameContent u.input.candidate
  rejected : ∀ t ∈ history, ∀ error, t.reply = .error error → t.after = t.before

/-- Two accepted candidates in a row of calls that read alike are equal. -/
def NoneReadAlike (runtime : PythonRuntime) (calls : List Registration) : Prop :=
  calls.Pairwise fun call other => ∀ bytes bytes', call.Accepted runtime bytes →
    other.Accepted runtime bytes' → call.candidate.ReadsAlike runtime other.candidate →
      call.candidate.SameContent other.candidate

/-- Every definition is the copy of a candidate accepted before. -/
def CopiesOf (runtime : PythonRuntime) (calls : List Registration) (s : TaskDefinitionRegistry) :
    Prop :=
  ∀ key definition, s.definitions.get? key = some definition → ∃ call ∈ calls, ∃ bytes,
    call.Accepted runtime bytes ∧ definition = call.versioned runtime bytes

theorem empty_recorded : TaskDefinitionRegistry.empty.Recorded runtime :=
  ⟨fun _ _ _ h => (by cases h), fun _ _ h => (by cases h)⟩

theorem registry_recorded (hsha : Function.Injective runtime.sha256) (calls : List Registration) :
    ((taskRegistryMachine runtime).run .empty calls).Recorded runtime :=
  Machine.run_invariant (m := taskRegistryMachine runtime) (P := fun s => s.Recorded runtime)
    (fun call _ hs => (register_outcome hsha call hs).recorded hs) empty_recorded calls

theorem run_copies (hsha : Function.Injective runtime.sha256) (calls : List Registration) :
    CopiesOf runtime calls ((taskRegistryMachine runtime).run .empty calls) := by
  induction calls using List.reverseRecOn with
  | nil => exact fun _ _ h => by cases h
  | append_singleton calls call ih =>
    have hs := registry_recorded hsha calls
    rw [Machine.run_append]
    generalize (taskRegistryMachine runtime).run .empty calls = s at ih hs
    rw [Machine.run_cons, Machine.run_nil]
    have houtcome := register_outcome hsha call hs
    generalize taskRegistryMachine runtime call s = outcome at houtcome
    have hearlier : ∀ key definition, s.definitions.get? key = some definition →
        ∃ other ∈ calls ++ [call], ∃ bytes, other.Accepted runtime bytes ∧
          definition = other.versioned runtime bytes := by
      intro key definition h
      obtain ⟨other, hother, hcopied⟩ := ih key definition h
      exact ⟨other, List.mem_append_left _ hother, hcopied⟩
    cases houtcome with
    | refused => exact hearlier
    | known => exact hearlier
    | stored bytes accepted free =>
      intro key definition h
      simp only at h
      rw [Dict.get?_insert] at h
      split at h
      · cases h
        exact ⟨call, List.mem_append_right _ (List.mem_singleton_self _), bytes, accepted, rfl⟩
      · exact hearlier key definition h

theorem history_call {calls : List Registration} {earlier later : List RegistryTransition}
    {t : RegistryTransition}
    (h : (taskRegistryMachine runtime).history .empty calls = earlier ++ t :: later) :
    ∃ js ks, calls = js ++ t.input :: ks ∧ t.before = (taskRegistryMachine runtime).run .empty js ∧
      later = (taskRegistryMachine runtime).history t.after ks ∧
      t = (taskRegistryMachine runtime).transition t.before t.input := by
  obtain ⟨js, ks, rfl, -, hks⟩ := Machine.history_split h
  cases ks with
  | nil => cases hks
  | cons call ks =>
    rw [Machine.history_cons, List.cons.injEq] at hks
    obtain ⟨rfl, rfl⟩ := hks
    exact ⟨js, ks, rfl, rfl, rfl, rfl⟩

theorem reply_ok_iff (hsha : Function.Injective runtime.sha256) {s : TaskDefinitionRegistry}
    (hs : s.Recorded runtime) (call : Registration) :
    (∃ definition, (taskRegistryMachine runtime call s).1 = .ok definition) ↔
      ∃ bytes, call.Accepted runtime bytes := by
  have houtcome := register_outcome hsha call hs
  generalize taskRegistryMachine runtime call s = outcome at houtcome
  cases houtcome with
  | refused error unaccepted => simp [unaccepted]
  | known bytes existing accepted kept => exact iff_of_true ⟨_, rfl⟩ ⟨bytes, accepted⟩
  | stored bytes accepted free => exact iff_of_true ⟨_, rfl⟩ ⟨bytes, accepted⟩

theorem returned_version (hsha : Function.Injective runtime.sha256) {s : TaskDefinitionRegistry}
    (hs : s.Recorded runtime) {call : Registration} {definition : TaskDefinition}
    (h : (taskRegistryMachine runtime call s).1 = .ok definition) :
    ∃ bytes, call.Accepted runtime bytes ∧ definition.function = call.candidate.function ∧
      definition.version = runtime.sha256 bytes ∧
      (taskRegistryMachine runtime call s).2.definitions.get?
        (definition.function, definition.version) = some definition := by
  have houtcome := register_outcome hsha call hs
  generalize taskRegistryMachine runtime call s = outcome at houtcome h
  cases houtcome with
  | refused error unaccepted => cases h
  | known bytes existing accepted kept =>
    cases h
    obtain ⟨hfunction, hversion, -⟩ := hs.definitions _ _ _ kept
    exact ⟨bytes, accepted, hfunction, hversion, by rw [hfunction, hversion]; exact kept⟩
  | stored bytes accepted free =>
    cases h
    exact ⟨bytes, accepted, rfl, rfl, Dict.get?_insert_self _ _ _⟩

/-- Along a run, what was kept once is kept. -/
theorem definitions_extend (hsha : Function.Injective runtime.sha256) {s : TaskDefinitionRegistry}
    (hs : s.Recorded runtime) (calls : List Registration) {u : RegistryTransition}
    (hu : u ∈ (taskRegistryMachine runtime).history s calls) :
    s.definitions.Extends u.after.definitions := by
  induction calls generalizing s with
  | nil => cases hu
  | cons call rest ih =>
    have houtcome := register_outcome hsha call hs
    rw [Machine.history_cons, List.mem_cons] at hu
    rcases hu with rfl | hu
    · exact houtcome.extends
    · exact houtcome.extends.trans (ih (houtcome.recorded hs) hu)

theorem transition_recorded (hsha : Function.Injective runtime.sha256)
    {calls : List Registration} {t : RegistryTransition}
    (ht : t ∈ (taskRegistryMachine runtime).history .empty calls) :
    t.before.Recorded runtime ∧
      t = (taskRegistryMachine runtime).transition t.before t.input := by
  obtain ⟨earlier, later, hsplit⟩ := List.append_of_mem ht
  obtain ⟨js, ks, -, hbefore, -, htransition⟩ := history_call hsplit
  rw [hbefore]
  exact ⟨registry_recorded hsha js, hbefore ▸ htransition⟩

theorem transition_version (hsha : Function.Injective runtime.sha256)
    {calls : List Registration} {t : RegistryTransition}
    (ht : t ∈ (taskRegistryMachine runtime).history .empty calls) {definition : TaskDefinition}
    (hreply : t.reply = .ok definition) :
    ∃ bytes, t.input.Accepted runtime bytes ∧
      definition.function = t.input.candidate.function ∧
      definition.version = runtime.sha256 bytes ∧
      t.after.definitions.get? (definition.function, definition.version) = some definition := by
  obtain ⟨hs, htransition⟩ := transition_recorded hsha ht
  rw [htransition] at hreply ⊢
  exact returned_version hsha hs hreply

theorem transition_answers (hsha : Function.Injective runtime.sha256)
    {calls : List Registration} {t : RegistryTransition}
    (ht : t ∈ (taskRegistryMachine runtime).history .empty calls) {bytes : Bytes}
    (haccepted : t.input.Accepted runtime bytes) :
    ∃ definition, t.reply = .ok definition ∧ definition.version = runtime.sha256 bytes := by
  obtain ⟨hs, htransition⟩ := transition_recorded hsha ht
  obtain ⟨definition, hdefinition⟩ := (reply_ok_iff hsha hs t.input).2 ⟨bytes, haccepted⟩
  have hok : t.reply = .ok definition := by
    rw [htransition]
    exact hdefinition
  obtain ⟨other, hother, -, hversion, -⟩ := transition_version hsha ht hok
  obtain rfl := Except.ok.inj (hother.encoded.symm.trans haccepted.encoded)
  exact ⟨definition, hok, hversion⟩

theorem distinct_iff (hsha : Function.Injective runtime.sha256)
    (hfloat : JsonValue.FloatTexts (fun value => value.isFinite = true) runtime.numberText)
    (calls : List Registration) :
    (((taskRegistryMachine runtime).history .empty calls).Pairwise fun t u =>
      ∀ definition other, t.reply = .ok definition → u.reply = .ok other →
        definition.version = other.version →
          t.input.candidate.SameContent u.input.candidate) ↔ NoneReadAlike runtime calls := by
  unfold NoneReadAlike
  conv_rhs => rw [← (taskRegistryMachine runtime).history_inputs .empty calls, List.pairwise_map]
  refine List.Pairwise.iff_of_mem fun {t u} ht hu => ⟨fun h bytes bytes' hb hb' halike => ?_,
    fun h definition other hdefinition hother hsame => ?_⟩
  · obtain ⟨definition, hdefinition, hv⟩ := transition_answers hsha ht hb
    obtain ⟨other, hother, hv'⟩ := transition_answers hsha hu hb'
    refine h definition other hdefinition hother ?_
    rw [hv, hv', (TaskDefinition.canonicalBytes_eq_iff hfloat hb.encoded hb'.encoded).2 halike]
  · obtain ⟨bytes, hb, -, hv, -⟩ := transition_version hsha ht hdefinition
    obtain ⟨bytes', hb', -, hv', -⟩ := transition_version hsha hu hother
    refine h bytes bytes' hb hb' ?_
    rw [hv, hv', hsha.eq_iff] at hsame
    exact (TaskDefinition.canonicalBytes_eq_iff hfloat hb.encoded hb'.encoded).1 hsame

theorem returned_sameContent (hsha : Function.Injective runtime.sha256)
    (hfloat : JsonValue.FloatTexts (fun value => value.isFinite = true) runtime.numberText)
    {calls : List Registration} (h : NoneReadAlike runtime calls) {t : RegistryTransition}
    (ht : t ∈ (taskRegistryMachine runtime).history .empty calls) {definition : TaskDefinition}
    (hreply : t.reply = .ok definition) : definition.SameContent t.input.candidate := by
  obtain ⟨earlier, later, hsplit⟩ := List.append_of_mem ht
  obtain ⟨js, ks, hcalls, hjs, -, htransition⟩ := history_call hsplit
  have houtcome := register_outcome hsha t.input (registry_recorded hsha js)
  rw [← hjs] at houtcome
  have hanswer : (taskRegistryMachine runtime t.input t.before).1 = .ok definition := by
    rw [htransition] at hreply
    exact hreply
  generalize taskRegistryMachine runtime t.input t.before = outcome at houtcome hanswer
  cases houtcome with
  | refused error unaccepted => cases hanswer
  | stored other accepted free =>
    cases hanswer
    exact (TaskDefinition.SameContent.refl _).versioned _
  | known other existing accepted kept =>
    cases hanswer
    rw [hjs] at kept
    obtain ⟨call, hcall, otherBytes, hother, hcopy⟩ := run_copies hsha js _ _ kept
    obtain ⟨-, hkept, -⟩ := (registry_recorded hsha js).definitions _ _ _ kept
    rw [hcopy] at hkept
    have hsame := hsha hkept
    rw [hcopy]
    rw [hcalls] at h
    have hrelated := (List.pairwise_append.1 h).2.2 call hcall t.input (List.mem_cons_self ..)
    refine (hrelated _ _ hother accepted ?_).versioned _
    exact (TaskDefinition.canonicalBytes_eq_iff hfloat hother.encoded accepted.encoded).1 hsame

theorem returned_resolved (hsha : Function.Injective runtime.sha256)
    (hdigest : ∀ bytes, runtime.sha256 bytes ≠ "") {calls : List Registration}
    {earlier later : List RegistryTransition} {t u : RegistryTransition}
    (hsplit : (taskRegistryMachine runtime).history .empty calls = earlier ++ t :: later)
    {definition : TaskDefinition} (hreply : t.reply = .ok definition) (hu : u ∈ t :: later) :
    u.after.resolve definition.function definition.version = some definition := by
  have ht : t ∈ (taskRegistryMachine runtime).history .empty calls := by
    rw [hsplit]
    exact List.mem_append_right _ (List.mem_cons_self ..)
  obtain ⟨bytes, haccepted, -, hv, hkept⟩ := transition_version hsha ht hreply
  have hnonempty : definition.version ≠ "" := hv ▸ hdigest bytes
  unfold TaskDefinitionRegistry.resolve
  rw [if_neg hnonempty]
  rcases List.mem_cons.1 hu with rfl | hu
  · exact hkept
  · obtain ⟨js, ks, -, hjs, hlater, htransition⟩ := history_call hsplit
    rw [hlater] at hu
    obtain ⟨hs, -⟩ := transition_recorded hsha ht
    have hafter : t.after.Recorded runtime := by
      rw [htransition]
      exact (register_outcome hsha t.input hs).recorded hs
    exact definitions_extend hsha hafter ks hu _ _ hkept

theorem rejected_unchanged (hsha : Function.Injective runtime.sha256)
    {calls : List Registration} {t : RegistryTransition}
    (ht : t ∈ (taskRegistryMachine runtime).history .empty calls) {error : RegistrationError}
    (hreply : t.reply = .error error) : t.after = t.before := by
  obtain ⟨hs, htransition⟩ := transition_recorded hsha ht
  have houtcome := register_outcome hsha t.input hs
  have hanswer : (taskRegistryMachine runtime t.input t.before).1 = .error error := by
    rw [htransition] at hreply
    exact hreply
  rw [htransition]
  unfold Machine.transition
  simp only
  generalize taskRegistryMachine runtime t.input t.before = outcome at houtcome hanswer ⊢
  cases houtcome with
  | refused => rfl
  | known => cases hanswer
  | stored => cases hanswer

/-- The registry returns what was registered exactly where no two accepted candidates that differ
read alike: the canonical content tells a set from the tuple of its sorted members as little as
one order of a frozen mapping from another. -/
theorem registry_returns_registered_iff (runtime : PythonRuntime)
    (hsha : Function.Injective runtime.sha256) (hdigest : ∀ bytes, runtime.sha256 bytes ≠ "")
    (hfloat : JsonValue.FloatTexts (fun value => value.isFinite = true) runtime.numberText)
    (calls : List Registration) :
    ReturnsRegistered runtime ((taskRegistryMachine runtime).history .empty calls) ↔
      NoneReadAlike runtime calls := by
  constructor
  · intro h
    exact (distinct_iff hsha hfloat calls).1 h.distinct
  · intro h
    refine ⟨fun t ht definition hreply => ?_, ?_, (distinct_iff hsha hfloat calls).2 h, ?_⟩
    · obtain ⟨bytes, haccepted, -, hversion, -⟩ := transition_version hsha ht hreply
      exact ⟨returned_sameContent hsha hfloat h ht hreply, bytes, haccepted.encoded, hversion⟩
    · intro earlier t later hsplit definition hreply u hu
      exact returned_resolved hsha hdigest hsplit hreply hu
    · intro t ht error hreply
      exact rejected_unchanged hsha ht hreply

theorem ReturnsRegistered.sameContent (hsha : Function.Injective runtime.sha256)
    {call other : Registration} {bytes : Bytes} (hcall : call.Accepted runtime bytes)
    (hother : other.Accepted runtime bytes)
    (h : ReturnsRegistered runtime
      ((taskRegistryMachine runtime).history .empty [call, other])) :
    call.candidate.SameContent other.candidate := by
  rw [Machine.history_cons, Machine.history_cons, Machine.history_nil] at h
  have hfirst : TaskDefinitionRegistry.empty.Recorded runtime := empty_recorded
  have hsecond := (register_outcome hsha call hfirst).recorded hfirst
  obtain ⟨definition, hdefinition⟩ := (reply_ok_iff hsha hfirst call).2 ⟨bytes, hcall⟩
  obtain ⟨later, hlater⟩ := (reply_ok_iff hsha hsecond other).2 ⟨bytes, hother⟩
  obtain ⟨encoded, hencoded, -, hversion, -⟩ := returned_version hsha hfirst hdefinition
  obtain ⟨encoded', hencoded', -, hversion', -⟩ := returned_version hsha hsecond hlater
  obtain rfl := Except.ok.inj (hencoded.encoded.symm.trans hcall.encoded)
  obtain rfl := Except.ok.inj (hencoded'.encoded.symm.trans hother.encoded)
  exact (List.pairwise_cons.1 h.distinct).1 _ (List.mem_singleton_self _) definition later
    hdefinition hlater (hversion.trans hversion'.symm)

end Runs

namespace Sample

/-- Injective digests, none of them empty. -/
def registryDigests : PythonRuntime :=
  { digests with sha256 := fun bytes => "d" ++ digests.sha256 bytes }

theorem registryDigests_injective : Function.Injective registryDigests.sha256 := by
  intro a b h
  exact digests_injective ((String.append_right_inj _).1 h)

theorem registryDigests_nonempty (bytes : Bytes) : registryDigests.sha256 bytes ≠ "" := by
  intro h
  have hlength := congrArg String.length h
  change ("d" ++ digests.sha256 bytes).length = "".length at hlength
  rw [String.length_append] at hlength
  exact absurd hlength (by simp)

theorem registryDigests_floatTexts :
    JsonValue.FloatTexts (fun value => value.isFinite = true) registryDigests.numberText :=
  digests_floatTexts

/-- A definition whose parameters must have what is required. -/
def contractDefinition (required : FrozenValue) : TaskDefinition where
  function := .classify
  version := ""
  promptTemplate := "Classify each row."
  parameterContract := [("required", required)]
  payloadContract := [("required", .tuple [.str "rows"])]
  outputSchema := [("type", .str "array")]
  requiredCapabilities := .singleton "ai_classify"
  validationRulesVersion := "rules-1"
  packingLimits := ⟨10, 1000, 1000, 1000⟩
  responseSizeLimit := 1000
  labelCountLimit := some 10
  labelCharacterLimit := some 20

def registration (required : FrozenValue) : Registration :=
  ⟨contractDefinition required, fun _ => true⟩

def requiredTuple : Registration := registration (.tuple [.str "labels"])

def requiredPair : Registration := registration (.tuple [.str "labels", .str "style"])

def requiredSet : Registration := registration (.frozenset [.str "labels"])

def definitionText (runtime : PythonRuntime) (definition : TaskDefinition) :
    Except PyError CodeText := do
  CanonicalPayload.dumps runtime (← definition.content runtime)

theorem canonicalBytes_eq (runtime : PythonRuntime) (definition : TaskDefinition) :
    definition.canonicalBytes runtime = definitionText runtime definition >>= encodeText := by
  unfold TaskDefinition.canonicalBytes definitionText
  exact (bind_assoc ..).symm

theorem one_definition_text : definitionText registryDigests requiredTuple.candidate =
    definitionText registryDigests requiredSet.candidate := by
  decide +kernel

theorem requiredTuple_accepted : ∃ bytes, requiredTuple.Accepted registryDigests bytes := by
  have hencoded :
      (requiredTuple.candidate.canonicalBytes registryDigests).toOption.isSome = true := by
    decide +kernel
  rcases hbytes : requiredTuple.candidate.canonicalBytes registryDigests with e | bytes
  · rw [hbytes] at hencoded
    cases hencoded
  · exact ⟨bytes, by decide +kernel, hbytes, .inl rfl⟩

theorem requiredSet_accepted : ∃ bytes, requiredSet.Accepted registryDigests bytes := by
  obtain ⟨bytes, h⟩ := requiredTuple_accepted
  refine ⟨bytes, by decide +kernel, ?_, .inl rfl⟩
  rw [canonicalBytes_eq, ← one_definition_text, ← canonicalBytes_eq]
  exact h.encoded

end Sample

theorem registry_returns_registered_sample : ReturnsRegistered Sample.registryDigests
    ((taskRegistryMachine Sample.registryDigests).history .empty
      [Sample.requiredTuple, Sample.requiredPair, Sample.requiredTuple]) := by
  refine (registry_returns_registered_iff Sample.registryDigests Sample.registryDigests_injective
    Sample.registryDigests_nonempty Sample.registryDigests_floatTexts _).2 ?_
  have happart : Sample.requiredTuple.candidate.canonicalBytes Sample.registryDigests ≠
      Sample.requiredPair.candidate.canonicalBytes Sample.registryDigests := by decide +kernel
  refine .cons ?_ (.cons ?_ (List.pairwise_singleton _ _))
  · intro other hother bytes bytes' haccepted haccepted' halike
    have hsame := (TaskDefinition.canonicalBytes_eq_iff Sample.registryDigests_floatTexts
      haccepted.encoded haccepted'.encoded).2 halike
    simp only [List.mem_cons, List.not_mem_nil, or_false] at hother
    rcases hother with rfl | rfl
    · exact absurd (haccepted.encoded.trans (hsame ▸ haccepted'.encoded.symm)) happart
    · exact .refl _
  · intro other hother bytes bytes' haccepted haccepted' halike
    have hsame := (TaskDefinition.canonicalBytes_eq_iff Sample.registryDigests_floatTexts
      haccepted.encoded haccepted'.encoded).2 halike
    rw [List.mem_singleton.1 hother] at haccepted'
    exact absurd (haccepted'.encoded.trans (hsame ▸ haccepted.encoded.symm)) happart

/-- A definition that requires the tuple `("labels",)` and one that requires the set of that label
are both accepted, differ and share a version. -/
theorem set_shares_version : Function.Injective Sample.registryDigests.sha256 ∧
    ¬∀ calls, ReturnsRegistered Sample.registryDigests
      ((taskRegistryMachine Sample.registryDigests).history .empty calls) := by
  refine ⟨Sample.registryDigests_injective, fun h => ?_⟩
  obtain ⟨bytes, htuple⟩ := Sample.requiredTuple_accepted
  obtain ⟨bytes', hset⟩ := Sample.requiredSet_accepted
  obtain rfl : bytes = bytes' := by
    have hencoded := htuple.encoded
    rw [Sample.canonicalBytes_eq, Sample.one_definition_text,
      ← Sample.canonicalBytes_eq] at hencoded
    exact Except.ok.inj (hencoded.symm.trans hset.encoded)
  have hsame := (h [Sample.requiredTuple, Sample.requiredSet]).sameContent
    Sample.registryDigests_injective htuple hset
  rcases hsame.parameterContract with hcontract | hcontract
  · cases hcontract
  · exact absurd hcontract (by decide +kernel)

section Listing

variable {runtime : PythonRuntime}

/-- What was accepted once is kept. -/
theorem run_keeps_accepted (hsha : Function.Injective runtime.sha256) (calls : List Registration) :
    ∀ call ∈ calls, ∀ bytes, call.Accepted runtime bytes →
      ∃ definition, ((taskRegistryMachine runtime).run .empty calls).definitions.get?
        (call.candidate.function, runtime.sha256 bytes) = some definition := by
  induction calls using List.reverseRecOn with
  | nil => exact fun _ h => by cases h
  | append_singleton calls last ih =>
    intro call hcall bytes haccepted
    have hs := registry_recorded hsha calls
    rw [Machine.run_append, Machine.run_cons, Machine.run_nil]
    rcases List.mem_append.1 hcall with hcall | hcall
    · obtain ⟨definition, hkept⟩ := ih call hcall bytes haccepted
      exact ⟨definition, (register_outcome hsha last hs).extends _ _ hkept⟩
    · obtain rfl := List.mem_singleton.1 hcall
      obtain ⟨definition, hreply⟩ := (reply_ok_iff hsha hs call).2 ⟨bytes, haccepted⟩
      obtain ⟨other, hother, hfunction, hversion, hkept⟩ := returned_version hsha hs hreply
      obtain rfl := Except.ok.inj (hother.encoded.symm.trans haccepted.encoded)
      rw [hfunction, hversion] at hkept
      exact ⟨definition, hkept⟩

def TaskDefinition.listing (definition : TaskDefinition) : String ×ₗ String :=
  toLex (definition.function.value, definition.version)

theorem TaskDefinitionRegistry.Recorded.listed_strictly {s : TaskDefinitionRegistry}
    (hs : s.Recorded runtime) : (s.registeredDefinitions.map (·.listing)).Pairwise (· < ·) := by
  have hlisting : s.registeredDefinitions.map (·.listing) =
      (SortedKeys.sorted listingKey s.definitions.entries).map listingKey := by
    unfold registeredDefinitions
    rw [List.map_map]
    refine List.map_congr_left fun ⟨⟨function, version⟩, definition⟩ hentry => ?_
    have hentry := (SortedKeys.sorted_perm _ _).mem_iff.1 hentry
    obtain ⟨hfunction, hversion, -⟩ :=
      hs.definitions _ _ _ ((Dict.mem_entries_iff _ _ _).1 hentry)
    simp [TaskDefinition.listing, listingKey, hfunction, hversion]
  have hinjective : Function.Injective
      fun key : TaskFunction × String => toLex (key.1.value, key.2) := by
    intro a b h
    obtain ⟨hvalue, hversion⟩ := Prod.mk.inj (toLex.injective h)
    exact Prod.ext (TaskDefinition.function_value_injective hvalue) hversion
  rw [hlisting]
  refine SortedKeys.sorted_keys_strict ?_
  have hkeys : s.definitions.entries.map listingKey = (s.definitions.entries.map Prod.fst).map
      fun key => toLex (key.1.value, key.2) := by
    rw [List.map_map]
    rfl
  rw [hkeys]
  exact s.definitions.nodup.map hinjective

/-- After any run the definitions are listed by function and version, each once, and they are
those of the candidates that were accepted: neither the order they came in nor how often they
came is seen in the functions and versions listed. -/
theorem listing_of_accepted (runtime : PythonRuntime)
    (hsha : Function.Injective runtime.sha256) (calls : List Registration) :
    let s := (taskRegistryMachine runtime).run .empty calls
    (s.registeredDefinitions.map (·.listing)).Pairwise (· < ·) ∧
    ∀ function version, (∃ definition ∈ s.registeredDefinitions,
        definition.function = function ∧ definition.version = version) ↔
      ∃ call ∈ calls, ∃ bytes, call.Accepted runtime bytes ∧
        call.candidate.function = function ∧ version = runtime.sha256 bytes := by
  intro s
  have hs : s.Recorded runtime := registry_recorded hsha calls
  have hmem : ∀ definition, definition ∈ s.registeredDefinitions ↔
      ∃ key, s.definitions.get? key = some definition := by
    intro definition
    unfold TaskDefinitionRegistry.registeredDefinitions
    rw [List.mem_map]
    constructor
    · rintro ⟨⟨key, other⟩, hentry, rfl⟩
      have hentry := (SortedKeys.sorted_perm _ _).mem_iff.1 hentry
      exact ⟨key, (Dict.mem_entries_iff _ _ _).1 hentry⟩
    · rintro ⟨key, hkey⟩
      exact ⟨(key, definition), (SortedKeys.sorted_perm _ _).mem_iff.2
        ((Dict.mem_entries_iff _ _ _).2 hkey), rfl⟩
  refine ⟨?_, fun function version => ⟨?_, ?_⟩⟩
  · exact hs.listed_strictly
  · rintro ⟨definition, hlisted, rfl, rfl⟩
    obtain ⟨key, hkey⟩ := (hmem definition).1 hlisted
    obtain ⟨call, hcall, bytes, haccepted, rfl⟩ := run_copies hsha calls key definition hkey
    exact ⟨call, hcall, bytes, haccepted, rfl, rfl⟩
  · rintro ⟨call, hcall, bytes, haccepted, rfl, rfl⟩
    obtain ⟨definition, hkept⟩ := run_keeps_accepted hsha calls call hcall bytes haccepted
    obtain ⟨hfunction, hversion, -⟩ := hs.definitions _ _ _ hkept
    exact ⟨definition, (hmem definition).2 ⟨_, hkept⟩, hfunction, hversion⟩

theorem listing_of_accepted_sample :
    let s := (taskRegistryMachine Sample.registryDigests).run .empty
      [Sample.requiredTuple, Sample.requiredSet]
    (s.registeredDefinitions.map (·.listing)).Pairwise (· < ·) ∧
    ∀ function version, (∃ definition ∈ s.registeredDefinitions,
        definition.function = function ∧ definition.version = version) ↔
      ∃ call ∈ [Sample.requiredTuple, Sample.requiredSet], ∃ bytes,
        call.Accepted Sample.registryDigests bytes ∧
        call.candidate.function = function ∧ version = Sample.registryDigests.sha256 bytes :=
  listing_of_accepted Sample.registryDigests Sample.registryDigests_injective
    [Sample.requiredTuple, Sample.requiredSet]

end Listing

end AiRetrieval
