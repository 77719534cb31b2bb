import AiRetrieval.Proofs.LeaseExclusion
import AiRetrieval.Sanity.ValidatedOutputs

/-! What a provider returns is answered with a value, except where reading it or judging its
records raises: the exact responses, packs and rules for which an exception escapes. -/

namespace AiRetrieval

open Program StructuredOutputParser TaskOutputValidator

section Returning

variable {ports : ValidationPorts} {prepared : PreparedTask} {response : ProviderValue}

theorem definition_function (prepared : PreparedTask) :
    prepared.val.definition.function = prepared.val.invocation.val.function := by
  have h := prepared.passed
  simp only [PreparedTask.postInit, except_seq_eq_ok, require_eq_ok] at h
  exact h.1

structure Contained (ports : ValidationPorts) (prepared : PreparedTask) (pack : PackedRequest)
    (response : ProviderValue) (context : ExecutionContext) : Prop where
  decodable : Decodable ports.runtime prepared.val.definition.responseSizeLimit response
  judged : ∀ records, Gives ports.runtime prepared.val.definition response records →
    Judged ports prepared pack context records

theorem parseAndValidate_of_gives (extractors : EnvelopeExtractors) (pack : PackedRequest)
    (context : ExecutionContext) (held : List ValidationMetadata) {records : List ProviderRecord}
    (h : Gives ports.runtime prepared.val.definition response records) :
    (Judged ports prepared pack context records →
      Returns (fun result _ => ∃ output, result = .ok output ∧
          Answered ports prepared pack context records output)
        (parseAndValidate ports extractors prepared pack response context) held) ∧
    (¬Judged ports prepared pack context records →
      Raises (parseAndValidate ports extractors prepared pack response context) held) := by
  have hparsed := (parse_ok_iff extractors).2 h
  have hshaped := gives_shaped h
  rw [definition_function] at hshaped
  obtain ⟨hreturns, hraises⟩ := validate_cases ports pack context held hshaped
  unfold parseAndValidate
  refine ⟨fun hjudged => ?_, fun hjudged => ?_⟩
  · refine returns_bind (P := fun r t => r = .ok records ∧ t = held)
      (returns_lift hparsed ⟨rfl, rfl⟩) ?_
    rintro _ _ ⟨rfl, rfl⟩
    refine returns_bind (hreturns hjudged) fun output _ hanswered => ?_
    exact returns_pure ⟨output, rfl, hanswered⟩
  · refine raises_after (P := fun r t => r = .ok records ∧ t = held)
      (returns_lift hparsed ⟨rfl, rfl⟩) ?_
    rintro _ _ ⟨rfl, rfl⟩
    exact raises_bind (hraises hjudged)

/-- Parsing and validating a response returns exactly where the response can be read and the
records it gives can be judged. -/
theorem parseAndValidate_returns_iff (ports : ValidationPorts) (extractors : EnvelopeExtractors)
    (prepared : PreparedTask) (pack : PackedRequest) (response : ProviderValue)
    (context : ExecutionContext) (held : List ValidationMetadata) :
    Returns (fun _ _ => True)
        (parseAndValidate ports extractors prepared pack response context) held ↔
      Contained ports prepared pack response context := by
  by_cases hdecodable : Decodable ports.runtime prepared.val.definition.responseSizeLimit response
  swap
  · -- the parser raises
    have hraises : Raises
      (parseAndValidate ports extractors prepared pack response context) held := by
      unfold parseAndValidate
      refine raises_bind (raises_lift ?_)
      rwa [parse_returns_iff]
    exact ⟨fun h => absurd h hraises.not_returns, fun h => absurd h.decodable hdecodable⟩
  by_cases hgives : ∃ records, Gives ports.runtime prepared.val.definition response records
  swap
  · -- the parser returns a failure
    refine ⟨fun _ => ⟨hdecodable, fun records h => absurd ⟨records, h⟩ hgives⟩, fun _ => ?_⟩
    obtain ⟨result, hresult⟩ := (parse_returns_iff extractors).2 hdecodable
    cases result with
    | ok records => exact absurd ⟨records, (parse_ok_iff extractors).1 hresult⟩ hgives
    | error failed =>
      unfold parseAndValidate
      refine returns_bind (P := fun r _ => r = .error failed) (returns_lift hresult rfl) ?_
      rintro _ _ rfl
      exact returns_pure trivial
  obtain ⟨records, hrecords⟩ := hgives
  obtain ⟨hreturns, hraises⟩ := parseAndValidate_of_gives extractors pack context
    held hrecords
  constructor
  · intro h
    refine ⟨hdecodable, fun other hother => ?_⟩
    have hother : other = records :=
      Except.ok.inj (Except.ok.inj
        (((parse_ok_iff extractors).2 hother).symm.trans ((parse_ok_iff extractors).2 hrecords)))
    rw [hother]
    by_contra hjudged
    exact (hraises hjudged).not_returns h
  · intro h
    exact returns_mono (hreturns (h.judged records hrecords)) fun _ _ _ => trivial

end Returning

namespace Sample

/-- The runtime on values without texts to read; the digest is that of `["row-1"]`. -/
def runtime : PythonRuntime where
  scan _ := .stopped [] .malformed
  nesting := 900
  canonicalNesting := 450
  floatText _ := "0.0"
  textOf _ := []
  sha256 _ := "0fbaa7c1f4f5596883df41e5f1aff7cf307b5a157619595d0d410f751311bb4d"
  b64encode _ := ""
  b64decode _ := .ok []

def rules : ValidationRules := ⟨{
  version := "rules-1"
  identifierField := "id"
  fieldRules := [
    ⟨{ ruleId := "schema.id.string", field := "id", valueType := .string }, by decide +kernel⟩,
    ⟨{ ruleId := "schema.label.string", field := "label", valueType := .string },
      by decide +kernel⟩] }, by decide +kernel⟩

def validation : ValidationPorts where
  runtime := runtime
  registry := Dict.empty.insert "rules-1" rules
  sinkRecords _ _ := true

def definition : TaskDefinition where
  function := .classify
  version := "1"
  promptTemplate := "Classify each row."
  parameterContract := []
  payloadContract := []
  outputSchema := []
  requiredCapabilities := .singleton "structured_output"
  validationRulesVersion := "rules-1"
  packingLimits := ⟨10, 1000, 1000, 10000⟩
  responseSizeLimit := 1000
  labelCountLimit := some 5
  labelCharacterLimit := some 20

def invocation : TaskInvocation := ⟨{
  function := .classify
  parameters := [("labels", .tuple [.str "good", .str "bad"])]
  rows := [⟨⟨"row-1", []⟩, by decide +kernel⟩] }, by decide +kernel⟩

def pack : PackedRequest := ⟨⟨.classify, "1", 0, ["row-1"], [0x7B, 0x7D], 1, 1⟩, by decide +kernel⟩

def prepared : PreparedTask := ⟨{
  definition := definition
  invocation := invocation
  packs := [pack]
  modelWork := [⟨{
    taskType := "ai_classify"
    payloadReference := "payload:row-1"
    inputIds := ["row-1"]
    requiredCapabilities := .singleton "structured_output"
    taskDefinitionVersion := some "1" }, by decide +kernel⟩] }, by decide +kernel⟩

end Sample

/-- A text with a lone surrogate escapes. -/
theorem surrogate_escapes : ¬∀ (ports : ValidationPorts) (extractors : EnvelopeExtractors)
    (prepared : PreparedTask) (pack : PackedRequest) (response : ProviderValue)
    (context : ExecutionContext) (held : List ValidationMetadata),
    Returns (fun _ _ => True)
      (parseAndValidate ports extractors prepared pack response context) held := by
  intro h
  have hreturns := h Sample.validation .empty Sample.prepared Sample.pack
    (.str [⟨0xD800, by decide⟩]) Sample.context []
  have hraises : Raises (parseAndValidate Sample.validation .empty Sample.prepared Sample.pack
      (.str [⟨0xD800, by decide⟩]) Sample.context) [] := ⟨_, _, rfl⟩
  exact hraises.not_returns hreturns

end AiRetrieval
