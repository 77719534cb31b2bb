import AiRetrieval.Proofs.EscapingOutput
import Mathlib.Data.List.Perm.Subperm

/-! An accepted output is what its pack asked for: for each input identifier in order, the value
the response gave for it, within what the task allows. -/

namespace AiRetrieval

open Program StructuredOutputParser TaskOutputValidator

section Rows

variable {function : TaskFunction} {row : ProviderRecord} {identifier value : CodeText}

def valueField (function : TaskFunction) : CodeText := (schemaFields function).2

/-- A record with an identifier and a value, in the order of the keys. -/
def answerRecord (function : TaskFunction) (identifier value : CodeText) : ProviderRecord :=
  [(CodeText.ofString "id", .text identifier), (valueField function, .text value)]

theorem answerRecord_keys (function : TaskFunction) (identifier value : CodeText) :
    ((answerRecord function identifier value).map Prod.fst).Nodup := by
  cases function with
  | classify => exact (by decide : [CodeText.ofString "id", CodeText.ofString "label"].Nodup)
  | summarize => exact (by decide : [CodeText.ofString "id", CodeText.ofString "summary"].Nodup)

theorem answerRecord_ordered (function : TaskFunction) (identifier value : CodeText) :
    (answerRecord function identifier value).Pairwise fun a b => a.1 ≤ b.1 := by
  refine List.pairwise_pair.2 ?_
  cases function with
  | classify => exact (by decide : CodeText.ofString "id" ≤ CodeText.ofString "label")
  | summarize => exact (by decide : CodeText.ofString "id" ≤ CodeText.ofString "summary")

theorem schemaFields_fst (function : TaskFunction) :
    (schemaFields function).1 = CodeText.ofString "id" := by
  cases function <;> rfl

theorem TaskOutputValidator.Shaped.perm (h : Shaped function row)
    (hid : row.lookup (CodeText.ofString "id") = some (.text identifier))
    (hvalue : row.lookup (valueField function) = some (.text value)) :
    row.Perm (answerRecord function identifier value) := by
  have hsubset : row ⊆ answerRecord function identifier value := by
    rintro ⟨key, item⟩ hentry
    have hkey := (exactFields_iff.1 h.conforms.1).1 key (List.mem_map_of_mem hentry)
    rw [schemaFields_fst] at hkey
    have hlookup := (lookup_eq_some_iff h.nodup).2 hentry
    rcases hkey with rfl | rfl
    · rw [hid] at hlookup
      cases hlookup
      exact List.mem_cons_self ..
    · rw [show (schemaFields function).2 = valueField function from rfl, hvalue] at hlookup
      cases hlookup
      exact List.mem_cons_of_mem _ (List.mem_cons_self ..)
  have hsuperset : answerRecord function identifier value ⊆ row := by
    intro entry hentry
    rcases List.mem_pair.1 hentry with rfl | rfl
    · exact (lookup_eq_some_iff h.nodup).1 hid
    · exact (lookup_eq_some_iff h.nodup).1 hvalue
  exact (List.perm_ext_iff_of_nodup h.nodup.of_map
    (answerRecord_keys function identifier value).of_map).2 fun entry =>
      ⟨fun h => hsubset h, fun h => hsuperset h⟩

theorem frozenRecord_of_perm (h : row.Perm (answerRecord function identifier value)) :
    frozenRecord row = answerRecord function identifier value := by
  unfold frozenRecord
  refine JsonValue.sortEntries_eq ?_ (answerRecord_keys ..) (answerRecord_ordered ..)
  rw [JsonValue.sortedEntries_eq_map]
  exact h.map fun entry : CodeText × Document => (entry.1, entry.2.sorted)

end Rows

section Accepted

variable {prepared : PreparedTask} {pack : PackedRequest} {response : ProviderValue}
  {rows : List (List (CodeText × Document))} {records ordered : List ProviderRecord}
  {context : ExecutionContext} {held held' : List ValidationMetadata} {ports : ValidationPorts}
  {extractors : EnvelopeExtractors} {identifier : String} {record : ProviderRecord}

def Allowed (prepared : PreparedTask) (text : CodeText) : Prop :=
  match prepared.val.invocation.val.function with
  | .classify => ∃ labels label,
      FrozenMapping.get prepared.val.invocation.val.parameters "labels" = some (.tuple labels) ∧
      FrozenValue.str label ∈ labels ∧ text = CodeText.ofString label
  | .summarize => ∃ maxWords limits,
      FrozenMapping.get prepared.val.invocation.val.parameters "max_words" = some (.int maxWords) ∧
      prepared.val.definition.summaryLimits = some limits ∧
      (text.words isSpacePoint).length ≤ maxWords ∧ text.length ≤ limits.maxSummaryCharacters

/-- The record of an identifier is the row that has it, and its value is allowed. -/
def Answers (prepared : PreparedTask) (rows : List (List (CodeText × Document)))
    (identifier : String) (record : ProviderRecord) : Prop :=
  ∃ row ∈ rows, ∃ text, Allowed prepared text ∧
    row.Perm (answerRecord prepared.val.invocation.val.function
      (CodeText.ofString identifier) text) ∧
    record = answerRecord prepared.val.invocation.val.function (CodeText.ofString identifier) text

/-- An output that answers its pack: the response is within the size limit and holds one row for
each input identifier and no others, and the records are these rows in the order of the pack. -/
structure AskedFor (runtime : PythonRuntime) (prepared : PreparedTask) (pack : PackedRequest)
    (response : ProviderValue) (records : List ProviderRecord) : Prop where
  textLimit : ∀ text, response = .str text → ∃ s, text.string? = some s ∧
    (encodeUtf8 s).length ≤ prepared.val.definition.responseSizeLimit
  bytesLimit : ∀ data, response = .bytes data →
    data.length ≤ prepared.val.definition.responseSizeLimit
  rows : ∃ rows : List (List (CodeText × Document)),
    Holds runtime prepared.val.definition.responseSizeLimit response (.array (rows.map .object)) ∧
    (rows.map fun row => row.lookup (CodeText.ofString "id")).Perm
      (pack.val.inputIds.map fun identifier => some (.text (CodeText.ofString identifier))) ∧
    List.Forall₂ (Answers prepared rows) pack.val.inputIds records

theorem allowedLabels_str {label : FrozenValue} (h : label ∈ allowedLabels prepared)
    {text : CodeText} (hequals : label.equals (.text text) = true) :
    ∃ labels s, FrozenMapping.get prepared.val.invocation.val.parameters "labels" =
      some (.tuple labels) ∧ FrozenValue.str s ∈ labels ∧ text = CodeText.ofString s := by
  unfold allowedLabels at h
  split at h
  · next labels hlabels =>
    cases label with
    | str s =>
      rw [FrozenValue.equals, decide_eq_true_eq] at hequals
      exact ⟨labels, s, hlabels, h, hequals.symm⟩
    | _ => simp [FrozenValue.equals, documentNumber] at hequals
  · cases h

theorem summaryConstraints_eq {maxWords : Int} {limits : SummaryLengthLimits}
    (h : summaryConstraints prepared = some (maxWords, limits)) :
    FrozenMapping.get prepared.val.invocation.val.parameters "max_words" = some (.int maxWords) ∧
      prepared.val.definition.summaryLimits = some limits := by
  unfold summaryConstraints at h
  split at h
  · next words found hwords hlimits =>
    cases h
    exact ⟨hwords, hlimits⟩
  · cases h

theorem allowed_of_meets (h : Meets prepared record) :
    ∃ text, record.lookup (valueField prepared.val.invocation.val.function) = some (.text text) ∧
      Allowed prepared text := by
  unfold Meets at h
  unfold Allowed
  split at h
  · next hfunction =>
    obtain ⟨text, htext, label, hlabel, hequals⟩ := h
    rw [hfunction]
    exact ⟨text, htext, allowedLabels_str hlabel hequals⟩
  · next hfunction =>
    obtain ⟨text, maxWords, limits, htext, hconstraints, hwords, hcharacters⟩ := h
    obtain ⟨hmax, hlimits⟩ := summaryConstraints_eq hconstraints
    rw [hfunction]
    exact ⟨text, htext, maxWords, limits, hmax, hlimits, hwords, hcharacters⟩

theorem answers_of_identified
    (hshaped : ∀ row ∈ rows, Shaped prepared.val.invocation.val.function row)
    (hmeets : ∀ record ∈ rows.map frozenRecord, Meets prepared record)
    (h : TaskOutputValidator.Identified
      ((rows.map frozenRecord).map frozenRecord) identifier record) :
    Answers prepared rows identifier record := by
  obtain ⟨hmem, hid⟩ := h
  obtain ⟨frozen, hfrozen, rfl⟩ := List.mem_map.1 hmem
  obtain ⟨text, hvalue, hallowed⟩ := allowed_of_meets (hmeets frozen hfrozen)
  obtain ⟨row, hrow, rfl⟩ := List.mem_map.1 hfrozen
  have hrowShaped := hshaped row hrow
  obtain ⟨rowId, hrowId⟩ := hrowShaped.identifier
  obtain ⟨rowValue, hrowValue⟩ := hrowShaped.value
  have hid' := frozenRecord_lookup hrowShaped.frozen (frozenRecord_lookup hrowShaped hrowId)
  rw [hid, Option.some.injEq, JsonValue.text.injEq] at hid'
  have hvalue' := frozenRecord_lookup hrowShaped hrowValue
  rw [show (schemaFields prepared.val.invocation.val.function).2 =
    valueField prepared.val.invocation.val.function from rfl, hvalue, Option.some.injEq,
    JsonValue.text.injEq] at hvalue'
  subst hid' hvalue'
  have hperm := hrowShaped.perm hrowId hrowValue
  refine ⟨row, hrow, text, hallowed, hperm, ?_⟩
  rw [frozenRecord_of_perm hperm]
  exact frozenRecord_of_perm (List.Perm.refl _)

theorem rowIds_perm (hlength : rows.length = pack.val.inputIds.length)
    (hrows : ∀ identifier ∈ pack.val.inputIds, ∃ row ∈ rows,
      row.lookup (CodeText.ofString "id") = some (.text (CodeText.ofString identifier))) :
    (rows.map fun row => row.lookup (CodeText.ofString "id")).Perm
      (pack.val.inputIds.map fun identifier => some (.text (CodeText.ofString identifier))) := by
  have hnodup : pack.val.inputIds.Nodup := by
    have h := pack.passed
    simp only [PackedRequest.postInit, except_seq_eq_ok, require_eq_ok] at h
    exact h.2.2.1
  have hids : (pack.val.inputIds.map fun identifier =>
      (some (.text (CodeText.ofString identifier)) : Option Document)).Nodup := by
    refine hnodup.map ?_
    intro a b h
    exact CodeText.ofString_injective (JsonValue.text.inj (Option.some.inj h))
  have hsubset : (pack.val.inputIds.map fun identifier =>
      (some (.text (CodeText.ofString identifier)) : Option Document)) ⊆
        rows.map fun row => row.lookup (CodeText.ofString "id") := by
    intro value hvalue
    obtain ⟨identifier, hidentifier, rfl⟩ := List.mem_map.1 hvalue
    obtain ⟨row, hrow, hid⟩ := hrows identifier hidentifier
    exact List.mem_map.2 ⟨row, hrow, hid⟩
  refine ((List.subperm_of_subset hids hsubset).perm_of_length_le ?_).symm
  rw [List.length_map, List.length_map, hlength]

theorem validated_gives {output : ValidatedOutput}
    (h : (parseAndValidate ports extractors prepared pack response context).exec held =
      (.ok (.ok output), held')) :
    ∃ records, Gives ports.runtime prepared.val.definition response records ∧
      Answered ports prepared pack context records output := by
  obtain ⟨parsed, s, hparsed, hvalidated⟩ := bind_returns h
  cases parsed with
  | error failed => cases hvalidated
  | ok records =>
    have hparse : parse ports.runtime extractors response prepared.val.definition none =
        .ok (.ok records) := congrArg Prod.fst hparsed
    have hgives := (parse_ok_iff extractors).1 hparse
    refine ⟨records, hgives, ?_⟩
    obtain ⟨hreturns, hraises⟩ := @parseAndValidate_of_gives ports prepared response extractors
      pack context held records hgives
    by_cases hjudged : Judged ports prepared pack context records
    · obtain ⟨result, t, hresult, found, rfl, hanswered⟩ := hreturns hjudged
      rw [hresult] at h
      cases h
      exact hanswered
    · obtain ⟨e, t, he⟩ := hraises hjudged
      rw [he] at h
      cases h

theorem gives_limits {records : List ProviderRecord} {definition : TaskDefinition}
    {runtime : PythonRuntime} (h : Gives runtime definition response records) :
    (∀ text, response = .str text → ∃ s, text.string? = some s ∧
      (encodeUtf8 s).length ≤ definition.responseSizeLimit) ∧
    ∀ data, response = .bytes data → data.length ≤ definition.responseSizeLimit := by
  obtain ⟨-, d, hholds | ⟨hstructured, -⟩, -⟩ := h
  · obtain ⟨text, hcontent, -⟩ := hholds
    constructor
    · rintro value rfl
      obtain ⟨rfl, s, hs, hle⟩ := hcontent
      exact ⟨s, hs, hle⟩
    · rintro data rfl
      exact hcontent.1
  · constructor
    · rintro text rfl
      exact hstructured.elim
    · rintro data rfl
      exact hstructured.elim

/-- An accepted output is what its pack asked for, and what is not accepted has no records. -/
theorem accepted_output {output : ValidatedOutput}
    (h : (parseAndValidate ports extractors prepared pack response context).exec held =
      (.ok (.ok output), held')) :
    (output.val.outcome.accepted = true →
      AskedFor ports.runtime prepared pack response output.val.acceptedRecords) ∧
    (output.val.outcome.accepted = false → output.val.acceptedRecords = []) := by
  constructor
  · intro haccepted
    obtain ⟨records, hgives, hanswered⟩ := validated_gives h
    obtain ⟨htext, hbytes⟩ := gives_limits hgives
    rcases hanswered with hnot | ⟨⟨rules, -, hobeys⟩, hmeets, hordered⟩
    · rw [haccepted] at hnot
      cases hnot
    obtain ⟨-, d, hholds, rows, rfl, hconforms, rfl⟩ := hgives
    rw [definition_function] at hconforms
    have hdistinct : JsonValue.DistinctItems (rows.map JsonValue.object) := hholds.distinct
    have hshaped : ∀ row ∈ rows, Shaped prepared.val.invocation.val.function row := by
      intro row hrow
      have hkeys := hdistinct.forall _ (List.mem_map_of_mem hrow)
      exact ⟨hkeys.1, hconforms row hrow⟩
    have hanswers : List.Forall₂ (Answers prepared rows) pack.val.inputIds
        output.val.acceptedRecords :=
      hordered.imp fun _ _ => answers_of_identified hshaped hmeets
    refine ⟨htext, hbytes, rows, hholds, rowIds_perm ?_ ?_, hanswers⟩
    · have hlength := hobeys.cardinality
      rwa [List.length_map] at hlength
    · intro identifier hidentifier
      obtain ⟨record, row, hrow, text, -, hperm, -⟩ :=
        exists_of_forall₂ hanswers identifier hidentifier
      refine ⟨row, hrow, ?_⟩
      rw [lookup_of_perm (answerRecord_keys ..) hperm]
      rfl
  · intro hnot
    have hpassed := require_eq_ok.1 output.passed
    rw [hnot] at hpassed
    rcases hpassed with hpassed | hpassed
    · cases hpassed
    · exact List.isEmpty_iff.1 hpassed

end Accepted

namespace Sample

/-- The digest is that of `["row-1","row-2"]`. -/
def pairRuntime : PythonRuntime :=
  { runtime with
    sha256 := fun _ => "b6e3a1e32f079743477f733ce6b34075e513989c738f77ecd914794002341bdc" }

def pairValidation : ValidationPorts := { validation with runtime := pairRuntime }

def pairPack : PackedRequest :=
  ⟨⟨.classify, "1", 0, ["row-1", "row-2"], [0x7B, 0x7D], 1, 1⟩, by decide +kernel⟩

def pairPrepared : PreparedTask := ⟨{
  definition := definition
  invocation := ⟨{
    function := .classify
    parameters := [("labels", .tuple [.str "good", .str "bad"])]
    rows := invocation.val.rows ++ [⟨⟨"row-2", []⟩, by decide +kernel⟩] }, by decide +kernel⟩
  packs := [pairPack]
  modelWork := [⟨{
    taskType := "ai_classify"
    payloadReference := "payload:rows"
    inputIds := ["row-1", "row-2"]
    requiredCapabilities := .singleton "structured_output"
    taskDefinitionVersion := some "1" }, by decide +kernel⟩] }, by decide +kernel⟩

/-- A row of the response, its keys the other way round. -/
def answeredRow (identifier label : String) : ProviderValue := .mapping [
  (.str (CodeText.ofString "label"), .str (CodeText.ofString label)),
  (.str (CodeText.ofString "id"), .str (CodeText.ofString identifier))]

def response : ProviderValue := .list [answeredRow "row-2" "bad", answeredRow "row-1" "good"]

def output : ValidatedOutput := ⟨{
  outcome := ⟨⟨true, [], [], "rules-1"⟩, .accepted, pairRuntime.sha256 [], pairRuntime.sha256 []⟩
  acceptedRecords := [
    answerRecord .classify (CodeText.ofString "row-1") (CodeText.ofString "good"),
    answerRecord .classify (CodeText.ofString "row-2") (CodeText.ofString "bad")]
  metadataRecorded := true }, rfl⟩

def metadata : ValidationMetadata :=
  ⟨"rules-1", .accepted, [], [], pairRuntime.sha256 [], pairRuntime.sha256 []⟩

end Sample

theorem accepted_output_sample : AskedFor Sample.pairRuntime Sample.pairPrepared Sample.pairPack
    Sample.response Sample.output.val.acceptedRecords :=
  (@accepted_output Sample.pairPrepared Sample.pairPack Sample.response Sample.context []
    [Sample.metadata] Sample.pairValidation .empty Sample.output (by rfl)).1 rfl

end AiRetrieval
