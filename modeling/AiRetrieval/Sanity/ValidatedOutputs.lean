import AiRetrieval.Sanity.ParsedDocuments
import AiRetrieval.Spec.OutputValidation

/-! What the validators return for records, and where they raise. -/

namespace AiRetrieval

open Program

section Digests

theorem PythonRuntime.numberText_clean (runtime : PythonRuntime) (number : PyFloat) :
    JsonValue.Clean (runtime.numberText number) := JsonValue.clean_ofString _

theorem identifierDigest_returns_iff {runtime : PythonRuntime} {values : List CodeText} :
    (∃ digest, identifierDigest runtime values = .ok digest) ↔
      ∀ text ∈ values, (text.string?).isSome = true := by
  have hperm : ∀ text, text ∈ values.insertionSort (· ≤ ·) ↔ text ∈ values := fun text =>
    (List.perm_insertionSort _ _).mem_iff
  have hencodable := JsonValue.render_encodable_iff runtime.numberText_clean
    (.array ((values.insertionSort (· ≤ ·)).map JsonValue.text))
  rw [JsonValue.Encodable, JsonValue.encodableItems_texts] at hencodable
  simp only [hperm] at hencodable
  rw [← hencodable]
  unfold identifierDigest encodeText
  dsimp only
  cases ((JsonValue.array ((values.insertionSort (· ≤ ·)).map JsonValue.text)).render
      runtime.numberText).string? with
  | none =>
    constructor
    · rintro ⟨_, h⟩
      cases h
    · intro h
      cases h
  | some s => exact ⟨fun _ => rfl, fun _ => ⟨_, rfl⟩⟩

theorem inputDigest_returns (runtime : PythonRuntime) (inputIds : List String) :
    ∃ digest, identifierDigest runtime (inputIds.map CodeText.ofString) = .ok digest := by
  rw [identifierDigest_returns_iff]
  intro text htext
  obtain ⟨identifier, -, rfl⟩ := List.mem_map.1 htext
  rw [CodeText.string?_ofString]
  rfl

end Digests

namespace DeterministicValidator

theorem mem_distinct {l : List String} {value : String} : value ∈ distinct l ↔ value ∈ l := by
  unfold distinct
  suffices h : ∀ added : List String, value ∈ l.foldl
      (fun added value => if value ∈ added then added else added ++ [value]) added ↔
        value ∈ added ∨ value ∈ l by
    simpa using h []
  induction l with
  | nil => simp
  | cons first rest ih =>
    intro added
    rw [List.foldl_cons, ih, List.mem_cons]
    split
    · next hmem =>
      constructor
      · rintro (h | h)
        · exact Or.inl h
        · exact Or.inr (Or.inr h)
      · rintro (h | rfl | h)
        · exact Or.inl h
        · exact Or.inl hmem
        · exact Or.inr h
    · rw [List.mem_append, List.mem_singleton, or_assoc]

theorem distinct_nodup (l : List String) : (distinct l).Nodup := by
  unfold distinct
  suffices h : ∀ added : List String, added.Nodup → (l.foldl
      (fun added value => if value ∈ added then added else added ++ [value]) added).Nodup from
    h [] List.nodup_nil
  induction l with
  | nil => exact fun added h => h
  | cons first rest ih =>
    intro added h
    rw [List.foldl_cons]
    refine ih _ ?_
    split
    · exact h
    · next hnew =>
      exact (List.perm_append_singleton first added).nodup_iff.2 (List.nodup_cons.2 ⟨hnew, h⟩)

theorem distinct_eq_nil_iff {l : List String} : distinct l = [] ↔ l = [] := by
  simp only [List.eq_nil_iff_forall_not_mem, mem_distinct]

variable {ports : ValidationPorts} {held : List ValidationMetadata} {inputIds : List String}
  {outputIds : List CodeText} {records : List ProviderRecord} {failed reasons : List String}
  {version : String}

/-- What a finished validation returns. -/
structure Finished (failed : List String) (records : List ProviderRecord)
    (result : ValidatedOutput) : Prop where
  accepted : result.val.outcome.accepted = failed.isEmpty
  failedRules : result.val.outcome.failedRuleIds = failed
  acceptedRecords : result.val.acceptedRecords = if failed.isEmpty then records else []

theorem recordMetadata_returns (metadata : ValidationMetadata) :
    Returns (fun _ _ => True) (recordMetadata ports metadata) held := by
  unfold recordMetadata
  refine returns_bind (P := fun s t => s = t) ⟨held, held, rfl, rfl⟩ ?_
  rintro s t rfl
  split
  · exact ⟨true, s ++ [metadata], rfl, trivial⟩
  · exact returns_pure trivial

theorem make_returns (fields : ValidatedOutput.Fields)
    (h : fields.outcome.accepted = true ∨ fields.acceptedRecords.isEmpty = true) :
    ∃ result : ValidatedOutput, Checked.make ValidatedOutput.postInit fields = .ok result ∧
      result.val = fields := by
  have hpassed : ValidatedOutput.postInit fields = .ok () := require_of h
  exact ⟨⟨fields, hpassed⟩, Checked.make_of_passed hpassed, rfl⟩

theorem finish_returns (h : ∀ text ∈ outputIds, (text.string?).isSome = true) :
    Returns (fun result _ => Finished failed records result)
      (finish ports version inputIds outputIds records failed reasons) held := by
  obtain ⟨inputDigest, hinput⟩ := inputDigest_returns ports.runtime inputIds
  obtain ⟨outputDigest, houtput⟩ := identifierDigest_returns_iff.2 h
  unfold finish
  refine returns_bind (P := fun digest _ => digest = inputDigest) (returns_lift hinput rfl) ?_
  rintro inputDigest _ rfl
  refine returns_bind (P := fun digest _ => digest = outputDigest) (returns_lift houtput rfl) ?_
  rintro outputDigest _ rfl
  refine returns_bind (recordMetadata_returns _) fun recorded _ _ => ?_
  obtain ⟨result, hresult, hfields⟩ := make_returns {
    outcome := ⟨⟨failed.isEmpty, failed, reasons, version⟩,
      if failed.isEmpty then .accepted else .validationFailed, inputDigest, outputDigest⟩
    acceptedRecords := if failed.isEmpty then records else []
    metadataRecorded := recorded } (by
      cases failed with
      | nil => exact Or.inl rfl
      | cons rule rest => exact Or.inr rfl)
  exact returns_lift hresult ⟨by rw [hfields], by rw [hfields], by rw [hfields]⟩

theorem finish_raises (h : ¬∀ text ∈ outputIds, (text.string?).isSome = true) :
    Raises (finish ports version inputIds outputIds records failed reasons) held := by
  obtain ⟨inputDigest, hinput⟩ := inputDigest_returns ports.runtime inputIds
  rw [← identifierDigest_returns_iff] at h
  unfold finish
  refine raises_after (P := fun _ _ => True) (returns_lift hinput trivial) fun _ _ _ => ?_
  exact raises_bind (raises_lift h)

section Identifiers

variable {runtime : PythonRuntime} {rules : ValidationRules} {output : List ProviderRecord}

/-- The identifiers of an output have texts, and these can be encoded. -/
def Named (runtime : PythonRuntime) (rules : ValidationRules) (output : List ProviderRecord) :
    Prop :=
  ∃ ids, DeterministicValidator.outputIds runtime rules output = .ok ids ∧
    ∀ text ∈ ids, (text.string?).isSome = true

theorem identifierText_returns_iff {value : Document} :
    (∃ text, identifierText runtime value = .ok text) ↔
      CanonicalPayload.printable value = true := by
  unfold identifierText
  split
  · exact iff_of_true ⟨_, rfl⟩ rfl
  · split
    · next h => exact iff_of_true ⟨_, rfl⟩ h
    · next h => exact iff_of_false (fun ⟨_, h⟩ => by cases h) h

theorem outputIds_returns_iff :
    (∃ ids, DeterministicValidator.outputIds runtime rules output = .ok ids) ↔
      ∀ record ∈ output, ∀ value ∈ identifierOf rules record,
        CanonicalPayload.printable value = true := by
  unfold DeterministicValidator.outputIds
  rw [except_mapM_returns_iff]
  simp only [List.mem_filterMap, identifierText_returns_iff]
  exact ⟨fun h record hrecord value hvalue => h value ⟨record, hrecord, hvalue⟩,
    fun h value ⟨record, hrecord, hvalue⟩ => h record hrecord value hvalue⟩

theorem outputIds_length {ids : List CodeText}
    (h : DeterministicValidator.outputIds runtime rules output = .ok ids) :
    ids.length = (output.filterMap (identifierOf rules)).length :=
  (except_mapM_ok_iff.1 h).length_eq.symm

end Identifiers

section Validate

variable {output : List ProviderRecord} {context : ExecutionContext} {rules : ValidationRules}

theorem validate_unbound (h : ports.registry.resolve
    context.configuration.validationRulesVersion = none) :
    Returns (fun result _ => result.val.outcome.accepted = false)
      (validate ports inputIds output context) held := by
  unfold validate
  dsimp only
  rw [h]
  refine returns_mono (finish_returns fun text htext => (by cases htext)) ?_
  intro result _ hresult
  exact hresult.accepted

theorem validate_bound (h : ports.registry.resolve
    context.configuration.validationRulesVersion = some rules) {ids : List CodeText}
    (hids : DeterministicValidator.outputIds ports.runtime rules output = .ok ids)
    (hencodable : ∀ text ∈ ids, (text.string?).isSome = true) :
    Returns (fun result _ => Finished (distinct ((failures rules inputIds ids output).map Prod.fst))
        (output.map StructuredOutputParser.frozenRecord) result)
      (validate ports inputIds output context) held := by
  unfold validate
  dsimp only
  rw [h]
  refine returns_bind (P := fun found _ => found = ids) (returns_lift hids rfl) ?_
  rintro ids _ rfl
  exact finish_returns hencodable

theorem validate_raises (h : ports.registry.resolve
    context.configuration.validationRulesVersion = some rules)
    (hnamed : ¬Named ports.runtime rules output) :
    Raises (validate ports inputIds output context) held := by
  unfold validate
  dsimp only
  rw [h]
  cases hids : DeterministicValidator.outputIds ports.runtime rules output with
  | error e =>
    refine raises_bind (raises_lift ?_)
    rintro ⟨ids, hreturned⟩
    cases hids.symm.trans hreturned
  | ok ids =>
    refine raises_after (P := fun found _ => found = ids) (returns_lift hids rfl) ?_
    rintro ids _ rfl
    exact finish_raises fun hencodable => hnamed ⟨ids, hids, hencodable⟩

theorem Finished.accepted_iff {result : ValidatedOutput} {l : List (String × String)}
    (h : Finished (distinct (l.map Prod.fst)) records result) :
    result.val.outcome.accepted = true ↔ l = [] := by
  rw [h.accepted, List.isEmpty_iff, distinct_eq_nil_iff, List.map_eq_nil_iff]

theorem Finished.frozen {result : ValidatedOutput} {l : List (String × String)}
    (h : Finished (distinct (l.map Prod.fst)) records result) (hnone : l = []) :
    result.val.acceptedRecords = records := by
  rw [h.acceptedRecords, hnone]
  rfl

/-- What no failure of the records together means. -/
theorem setFailures_eq_nil_iff {count : Nat} : setFailures inputIds outputIds count = [] ↔
    outputIds.Nodup ∧ (∀ text, text ∈ outputIds ↔ text ∈ inputIds.map CodeText.ofString) ∧
      count = inputIds.length := by
  unfold setFailures
  dsimp only
  rw [List.append_eq_nil_iff, List.append_eq_nil_iff]
  have hite {p : Prop} [Decidable p] {failure : String × String} :
      (if p then [] else [failure]) = [] ↔ p := by
    split <;> simp [*]
  rw [hite, hite, hite, and_assoc]
  refine and_congr_right fun _ => and_congr_left fun _ => ?_
  exact ⟨fun h text => ⟨h.1 text, h.2 text⟩, fun h => ⟨fun text => (h text).1, fun text =>
    (h text).2⟩⟩

theorem recordFailures_eq_nil_iff {record : ProviderRecord} :
    recordFailures rules record = [] ↔ (identifierOf rules record).isSome = true ∧
      (rules.val.allowAdditionalFields = false → ∀ entry ∈ record,
        entry.1 ∈ rules.val.fieldRules.map fun rule => CodeText.ofString rule.val.field) ∧
      ∀ rule ∈ rules.val.fieldRules, ruleFailure record rule = none := by
  unfold recordFailures
  dsimp only
  rw [List.append_eq_nil_iff, List.append_eq_nil_iff, and_assoc]
  refine and_congr ?_ (and_congr ?_ ?_)
  · cases identifierOf rules record <;> simp
  · split
    · next h =>
      refine ⟨fun h => (by cases h), fun hknown => absurd (hknown h.1) h.2⟩
    · next h =>
      rw [not_and, not_not] at h
      exact ⟨fun _ => h, fun _ => rfl⟩
  · rw [List.filterMap_eq_nil_iff]
    simp only [Option.map_eq_none_iff]

/-- What the rules ask of an output: its records have identifiers, known fields and values the
rules allow, and their identifiers are those asked for, each once. -/
structure Obeys (runtime : PythonRuntime) (rules : ValidationRules) (inputIds : List String)
    (output : List ProviderRecord) : Prop where
  identified : ∀ record ∈ output, (identifierOf rules record).isSome = true
  known : rules.val.allowAdditionalFields = false → ∀ record ∈ output, ∀ entry ∈ record,
    entry.1 ∈ rules.val.fieldRules.map fun rule => CodeText.ofString rule.val.field
  fields : ∀ record ∈ output, ∀ rule ∈ rules.val.fieldRules, ruleFailure record rule = none
  identifiers : ∃ ids, DeterministicValidator.outputIds runtime rules output = .ok ids ∧
    ids.Nodup ∧ ∀ text, text ∈ ids ↔ text ∈ inputIds.map CodeText.ofString
  cardinality : output.length = inputIds.length

theorem failures_eq_nil_iff {runtime : PythonRuntime} {ids : List CodeText}
    (hids : DeterministicValidator.outputIds runtime rules output = .ok ids) :
    failures rules inputIds ids output = [] ↔ Obeys runtime rules inputIds output := by
  unfold failures
  rw [List.append_eq_nil_iff, setFailures_eq_nil_iff, List.flatMap_eq_nil_iff]
  simp only [recordFailures_eq_nil_iff]
  constructor
  · rintro ⟨hrecords, hunique, hexact, hcount⟩
    exact ⟨fun record h => (hrecords record h).1, fun ho record h => (hrecords record h).2.1 ho,
      fun record h => (hrecords record h).2.2, ⟨ids, hids, hunique, hexact⟩, hcount⟩
  · intro h
    obtain ⟨others, hothers, hunique, hexact⟩ := h.identifiers
    cases hids.symm.trans hothers
    exact ⟨fun record hrecord => ⟨h.identified record hrecord, fun ho => h.known ho record hrecord,
      h.fields record hrecord⟩, hunique, hexact, h.cardinality⟩

theorem Obeys.named {runtime : PythonRuntime} (h : Obeys runtime rules inputIds output) :
    Named runtime rules output := by
  obtain ⟨ids, hids, -, hexact⟩ := h.identifiers
  refine ⟨ids, hids, fun text htext => ?_⟩
  obtain ⟨identifier, -, rfl⟩ := List.mem_map.1 ((hexact text).1 htext)
  rw [CodeText.string?_ofString]
  rfl

end Validate

end DeterministicValidator

namespace TaskOutputValidator

open StructuredOutputParser DeterministicValidator

section Records

variable {function : TaskFunction} {record : ProviderRecord} {records : List ProviderRecord}
  {prepared : PreparedTask}

/-- A record with distinct keys, exactly the two of its task, and texts under both. -/
structure Shaped (function : TaskFunction) (record : ProviderRecord) : Prop where
  nodup : (record.map Prod.fst).Nodup
  conforms : Conforms (schemaFields function) record

theorem isText_iff {value : Option Document} :
    isText value = true ↔ ∃ text, value = some (.text text) := by
  unfold isText
  split
  · exact ⟨fun _ => ⟨_, rfl⟩, fun _ => rfl⟩
  · next h => exact ⟨fun h => (by cases h), fun ⟨text, he⟩ => absurd he (h text)⟩

theorem Shaped.identifier (h : Shaped function record) :
    ∃ text, record.lookup (CodeText.ofString "id") = some (.text text) := by
  have hid := h.conforms.2.1
  cases function with
  | classify => exact isText_iff.1 hid
  | summarize => exact isText_iff.1 hid

theorem Shaped.value (h : Shaped function record) :
    ∃ text, record.lookup (schemaFields function).2 = some (.text text) :=
  isText_iff.1 h.conforms.2.2

theorem frozenRecord_lookup (h : Shaped function record) {key : CodeText} {text : CodeText}
    (hkey : record.lookup key = some (.text text)) :
    (frozenRecord record).lookup key = some (.text text) := by
  unfold frozenRecord
  rw [JsonValue.lookup_sortEntries (by rw [JsonValue.sortedEntries_keys]; exact h.nodup),
    JsonValue.lookup_sortedEntries, hkey, Option.map_some]
  simp only [JsonValue.sorted]

theorem frozenRecord_keys (record : ProviderRecord) :
    ((frozenRecord record).map Prod.fst).Perm (record.map Prod.fst) := by
  unfold frozenRecord
  rw [← JsonValue.sortedEntries_keys record]
  exact (JsonValue.sortEntries_perm _).map Prod.fst

theorem exactFields_iff {fields : CodeText × CodeText} :
    exactFields fields record = true ↔ (∀ key ∈ record.map Prod.fst, key = fields.1 ∨
      key = fields.2) ∧
      (record.lookup fields.1).isSome = true ∧ (record.lookup fields.2).isSome = true := by
  unfold exactFields
  rw [Bool.and_eq_true, Bool.and_eq_true, List.all_eq_true, and_assoc, List.forall_mem_map]
  simp only [Bool.or_eq_true, decide_eq_true_eq]

theorem Shaped.frozen (h : Shaped function record) : Shaped function (frozenRecord record) := by
  have hkeys := frozenRecord_keys record
  obtain ⟨id, hid⟩ := isText_iff.1 h.conforms.2.1
  obtain ⟨text, htext⟩ := h.value
  have hexact := (exactFields_iff.1 h.conforms.1).1
  refine ⟨hkeys.nodup_iff.2 h.nodup, exactFields_iff.2 ⟨?_, ?_, ?_⟩, ?_, ?_⟩
  · intro key hkey
    exact hexact key (hkeys.mem_iff.1 hkey)
  · rw [frozenRecord_lookup h hid]
    rfl
  · rw [frozenRecord_lookup h htext]
    rfl
  · rw [frozenRecord_lookup h hid]
    rfl
  · rw [frozenRecord_lookup h htext]
    rfl

theorem gives_shaped {runtime : PythonRuntime} {definition : TaskDefinition}
    {response : ProviderValue} (h : Gives runtime definition response records) :
    ∀ record ∈ records, Shaped definition.function record := by
  obtain ⟨-, d, hholds, rows, rfl, hconforms, rfl⟩ := h
  have hdistinct : JsonValue.DistinctItems (rows.map JsonValue.object) := hholds.distinct
  intro record hrecord
  obtain ⟨row, hrow, rfl⟩ := List.mem_map.1 hrecord
  have hkeys := hdistinct.forall _ (List.mem_map_of_mem hrow)
  exact Shaped.frozen ⟨hkeys.1, hconforms row hrow⟩

end Records

section Constraints

variable {prepared : PreparedTask} {record : ProviderRecord} {records : List ProviderRecord}

/-- The value of a record meets what the invocation asks: its label is allowed, or its summary
has neither too many words nor too many characters. -/
def Meets (prepared : PreparedTask) (record : ProviderRecord) : Prop :=
  match prepared.val.invocation.val.function with
  | .classify => ∃ text, record.lookup (CodeText.ofString "label") = some (.text text) ∧
      ∃ label ∈ allowedLabels prepared, label.equals (.text text) = true
  | .summarize => ∃ text maxWords limits,
      record.lookup (CodeText.ofString "summary") = some (.text text) ∧
      summaryConstraints prepared = some (maxWords, limits) ∧
      (text.words isSpacePoint).length ≤ maxWords ∧ text.length ≤ limits.maxSummaryCharacters

def Constrained (prepared : PreparedTask) : Prop :=
  prepared.val.invocation.val.function = .summarize → (summaryConstraints prepared).isSome = true

theorem anyRecord_returns {failing : ProviderRecord → Except PyError Bool}
    {fails : ProviderRecord → Prop} [DecidablePred fails]
    (h : ∀ record ∈ records, failing record = .ok (decide (fails record))) :
    ∃ found, anyRecord failing records = .ok found ∧
      (found = false ↔ ∀ record ∈ records, ¬fails record) := by
  induction records with
  | nil => exact ⟨false, rfl, fun _ _ h => (by cases h), fun _ => rfl⟩
  | cons record rest ih =>
    rw [List.forall_mem_cons] at h
    rw [anyRecord, h.1]
    by_cases hfails : fails record
    · refine ⟨true, ?_, fun h => (by cases h), fun h =>
        absurd hfails (h record (List.mem_cons_self ..))⟩
      rw [decide_eq_true hfails]
      rfl
    · obtain ⟨found, hfound, hiff⟩ := ih h.2
      refine ⟨found, ?_, ?_⟩
      · rw [decide_eq_false hfails]
        exact hfound
      · rw [hiff, List.forall_mem_cons]
        exact ⟨fun h => ⟨hfails, h⟩, fun h => h.2⟩

theorem noted_eq_nil_iff {fails : Bool} {value : String} :
    noted fails value = [] ↔ fails = false := by
  cases fails <;> simp [noted]

theorem Shaped.label (h : Shaped .classify record) :
    ∃ text, record.lookup (CodeText.ofString "label") = some (.text text) := h.value

theorem Shaped.summary (h : Shaped .summarize record) :
    ∃ text, record.lookup (CodeText.ofString "summary") = some (.text text) := h.value

theorem field_ok {name : String} {value : Document}
    (h : record.lookup (CodeText.ofString name) = some value) : field record name = .ok value := by
  unfold field
  rw [h]

theorem taskFailures_classify (hfunction : prepared.val.invocation.val.function = .classify)
    (hshaped : ∀ record ∈ records, Shaped .classify record) :
    ∃ failed reasons, taskFailures prepared records = .ok (failed, reasons) ∧
      (failed = [] ↔ ∀ record ∈ records, Meets prepared record) := by
  let outside (record : ProviderRecord) : Prop := ¬∃ label ∈ allowedLabels prepared,
    label.equals ((record.lookup (CodeText.ofString "label")).getD .null) = true
  have hstep : ∀ record ∈ records, labelOutside prepared record =
    .ok (decide (outside record)) := by
    intro record hrecord
    obtain ⟨text, htext⟩ := (hshaped record hrecord).label
    unfold labelOutside
    rw [field_ok htext]
    change Except.ok _ = _
    congr 1
    rw [Bool.eq_iff_iff, Bool.not_eq_true', decide_eq_true_eq, ← Bool.not_eq_true,
      List.any_eq_true]
    simp only [outside, htext, Option.getD_some]
  obtain ⟨found, hany, hfound⟩ := anyRecord_returns hstep
  refine ⟨noted found classifyLabelRule, noted found "label_not_allowed", ?_,
    noted_eq_nil_iff.trans (hfound.trans ?_)⟩
  · unfold taskFailures
    rw [hfunction]
    simp only [hany]
    rfl
  · refine forall₂_congr fun record hrecord => ?_
    obtain ⟨text, htext⟩ := (hshaped record hrecord).label
    unfold Meets
    rw [hfunction]
    simp only [outside, htext, Option.getD_some, not_not]
    exact ⟨fun h => ⟨text, rfl, h⟩, fun ⟨_, he, h⟩ => (by cases he; exact h)⟩

def summaryText (record : ProviderRecord) : CodeText :=
  match record.lookup (CodeText.ofString "summary") with
  | some (.text text) => text
  | _ => []

theorem summary_ok (h : Shaped .summarize record) : summary record = .ok (summaryText record) := by
  obtain ⟨text, htext⟩ := h.summary
  unfold summary summaryText
  rw [field_ok htext, htext]
  rfl

theorem taskFailures_summarize (hfunction : prepared.val.invocation.val.function = .summarize)
    {maxWords : Int} {limits : SummaryLengthLimits}
    (hconstraints : summaryConstraints prepared = some (maxWords, limits))
    (hshaped : ∀ record ∈ records, Shaped .summarize record) :
    ∃ failed reasons, taskFailures prepared records = .ok (failed, reasons) ∧
      (failed = [] ↔ ∀ record ∈ records, Meets prepared record) := by
  have hwords : ∀ record ∈ records, tooManyWords maxWords record =
      .ok (decide (maxWords < ((summaryText record).words isSpacePoint).length)) := by
    intro record hrecord
    unfold tooManyWords
    rw [summary_ok (hshaped record hrecord)]
    rfl
  have hcharacters : ∀ record ∈ records, tooManyCharacters limits record =
      .ok (decide (limits.maxSummaryCharacters < (summaryText record).length)) := by
    intro record hrecord
    unfold tooManyCharacters
    rw [summary_ok (hshaped record hrecord)]
    rfl
  obtain ⟨wordy, hwordy, hnotWordy⟩ := anyRecord_returns hwords
  obtain ⟨long, hlong, hnotLong⟩ := anyRecord_returns hcharacters
  refine ⟨noted wordy summaryWordRule ++ noted long summaryCharacterRule,
    noted wordy "summary_word_limit_exceeded" ++
      noted long "summary_character_limit_exceeded", ?_, ?_⟩
  · unfold taskFailures
    rw [hfunction]
    simp only [hconstraints, hwordy, hlong]
    rfl
  · rw [List.append_eq_nil_iff, noted_eq_nil_iff, noted_eq_nil_iff, hnotWordy, hnotLong,
      ← forall₂_and]
    refine forall₂_congr fun record hrecord => ?_
    obtain ⟨text, htext⟩ := (hshaped record hrecord).summary
    unfold Meets summaryText
    rw [hfunction]
    simp only [htext, hconstraints, not_lt]
    constructor
    · rintro ⟨hwords, hcharacters⟩
      exact ⟨text, maxWords, limits, rfl, rfl, hwords, hcharacters⟩
    · rintro ⟨_, _, _, he, he', hwords, hcharacters⟩
      cases he
      cases he'
      exact ⟨hwords, hcharacters⟩

/-- The checks of shaped records end where the invocation has its constraints. -/
theorem taskFailures_returns (hconstrained : Constrained prepared)
    (hshaped : ∀ record ∈ records, Shaped prepared.val.invocation.val.function record) :
    ∃ failed reasons, taskFailures prepared records = .ok (failed, reasons) ∧
      (failed = [] ↔ ∀ record ∈ records, Meets prepared record) := by
  cases hfunction : prepared.val.invocation.val.function with
  | classify =>
    rw [hfunction] at hshaped
    exact taskFailures_classify hfunction hshaped
  | summarize =>
    rw [hfunction] at hshaped
    obtain ⟨⟨maxWords, limits⟩, hconstraints⟩ :=
      Option.isSome_iff_exists.1 (hconstrained hfunction)
    exact taskFailures_summarize hfunction hconstraints hshaped

theorem taskFailures_raises (hconstrained : ¬Constrained prepared) :
    ¬∃ result, taskFailures prepared records = .ok result := by
  unfold Constrained at hconstrained
  push Not at hconstrained
  obtain ⟨hfunction, hconstraints⟩ := hconstrained
  rw [ne_eq, Bool.not_eq_true, Option.isSome_eq_false_iff,
    Option.isNone_iff_eq_none] at hconstraints
  rintro ⟨result, h⟩
  unfold taskFailures at h
  rw [hfunction] at h
  simp only [hconstraints] at h
  cases h

end Constraints

section Order

variable {function : TaskFunction} {records ordered : List ProviderRecord} {inputIds : List String}

def Identified (records : List ProviderRecord) (identifier : String) (record : ProviderRecord) :
    Prop :=
  record ∈ records ∧
    record.lookup (CodeText.ofString "id") = some (.text (CodeText.ofString identifier))

def identifierEntries (records : List ProviderRecord) : List (Document × ProviderRecord) :=
  records.map fun record => ((record.lookup (CodeText.ofString "id")).getD .null, record)

theorem orderRecords_eq
    (hids : ∀ record ∈ records, ∃ value, record.lookup (CodeText.ofString "id") = some value) :
    orderRecords records inputIds = inputIds.mapM (recordOf (identifierEntries records)) := by
  have hentries : (records.mapM fun record => do
      return (← field record "id", record) : Except PyError (List (Document × ProviderRecord))) =
        .ok (identifierEntries records) := by
    refine except_mapM_eq_ok fun record hrecord => ?_
    obtain ⟨value, hvalue⟩ := hids record hrecord
    rw [field_ok hvalue, hvalue]
    rfl
  unfold orderRecords
  rw [hentries]
  rfl

theorem recordOf_identified {identifier : String} {record : ProviderRecord}
    (h : recordOf (identifierEntries records) identifier = .ok record) :
    Identified records identifier record := by
  unfold recordOf at h
  split at h
  · next entry hfind =>
    cases h
    have hmem := List.mem_of_find?_eq_some hfind
    have htext := List.find?_some hfind
    rw [List.mem_reverse] at hmem
    obtain ⟨record, hrecord, rfl⟩ := List.mem_map.1 hmem
    refine ⟨hrecord, ?_⟩
    cases hlookup : record.lookup (CodeText.ofString "id") with
    | none =>
      rw [hlookup] at htext
      cases htext
    | some value =>
      rw [hlookup] at htext
      cases value with
      | text text =>
        replace htext : decide (text = CodeText.ofString identifier) = true := htext
        rw [decide_eq_true_eq] at htext
        rw [htext]
      | _ => cases htext
  · cases h

theorem recordOf_returns_iff {identifier : String} :
    (∃ record, recordOf (identifierEntries records) identifier = .ok record) ↔
      ∃ record, Identified records identifier record := by
  constructor
  · rintro ⟨record, h⟩
    exact ⟨record, recordOf_identified h⟩
  · rintro ⟨record, hrecord, hlookup⟩
    unfold recordOf
    split
    · exact ⟨_, rfl⟩
    · next hfind =>
      exfalso
      rw [List.find?_eq_none] at hfind
      have hentry : (JsonValue.text (CodeText.ofString identifier), record) ∈
          (identifierEntries records).reverse := by
        rw [List.mem_reverse]
        refine List.mem_map.2 ⟨record, hrecord, ?_⟩
        rw [hlookup]
        rfl
      exact hfind _ hentry (decide_eq_true rfl)

theorem orderRecords_returns_iff : (∃ ordered, orderRecords records inputIds = .ok ordered) ↔
    (∀ record ∈ records, ∃ value, record.lookup (CodeText.ofString "id") = some value) ∧
      ∀ identifier ∈ inputIds, ∃ record, Identified records identifier record := by
  by_cases hids : ∀ record ∈ records, ∃ value, record.lookup (CodeText.ofString "id") = some value
  · rw [orderRecords_eq hids, except_mapM_returns_iff, and_iff_right hids]
    exact forall₂_congr fun identifier _ => recordOf_returns_iff
  · refine iff_of_false ?_ fun h => hids h.1
    rintro ⟨ordered, h⟩
    obtain ⟨entries, hentries, -⟩ := except_bind_eq_ok.1 h
    refine hids fun record hrecord => ?_
    obtain ⟨entry, hentry⟩ := exists_of_forall₂ (except_mapM_ok_iff.1 hentries) record hrecord
    obtain ⟨value, hvalue, -⟩ := except_bind_eq_ok.1 hentry
    unfold field at hvalue
    split at hvalue
    · next found hfound => exact ⟨found, hfound⟩
    · cases hvalue

theorem orderRecords_identified (h : orderRecords records inputIds = .ok ordered) :
    List.Forall₂ (Identified records) inputIds ordered := by
  rw [orderRecords_eq (orderRecords_returns_iff.1 ⟨ordered, h⟩).1, except_mapM_ok_iff] at h
  exact h.imp fun _ _ => recordOf_identified

end Order

section Validate

variable {ports : ValidationPorts} {held : List ValidationMetadata} {prepared : PreparedTask}
  {pack : PackedRequest} {records : List ProviderRecord} {context : ExecutionContext}

def Bound (ports : ValidationPorts) (context : ExecutionContext) (rules : ValidationRules) : Prop :=
  ports.registry.resolve context.configuration.validationRulesVersion = some rules

def Passes (ports : ValidationPorts) (pack : PackedRequest) (records : List ProviderRecord)
    (rules : ValidationRules) : Prop :=
  Obeys ports.runtime rules pack.val.inputIds records

/-- Validating shaped records raises nothing: the pack is one of the task, the identifiers can
be encoded, and of what passes the rules the task has its constraints, and where these are met
the input identifiers are the records' own. -/
structure Judged (ports : ValidationPorts) (prepared : PreparedTask) (pack : PackedRequest)
    (context : ExecutionContext) (records : List ProviderRecord) : Prop where
  known : pack ∈ prepared.val.packs
  named : ∀ rules, Bound ports context rules → Named ports.runtime rules records
  constrained : ∀ rules, Bound ports context rules → Passes ports pack records rules →
    Constrained prepared
  ordered : ∀ rules, Bound ports context rules → Passes ports pack records rules →
    (∀ record ∈ records, Meets prepared record) →
      ∀ identifier ∈ pack.val.inputIds, ∃ record, Identified records identifier record

/-- What is returned for shaped records: nothing where it is not accepted, and else, for each
input identifier in order, the frozen record that has it and meets the constraints. -/
def Answered (ports : ValidationPorts) (prepared : PreparedTask) (pack : PackedRequest)
    (context : ExecutionContext) (records : List ProviderRecord) (result : ValidatedOutput) :
    Prop :=
  result.val.outcome.accepted = false ∨
    (∃ rules, Bound ports context rules ∧ Passes ports pack records rules) ∧
      (∀ record ∈ records, Meets prepared record) ∧
      List.Forall₂ (Identified (records.map frozenRecord)) pack.val.inputIds
        result.val.acceptedRecords

theorem frozen_shaped {function : TaskFunction}
    (hshaped : ∀ record ∈ records, Shaped function record) :
    ∀ record ∈ records.map frozenRecord, Shaped function record := by
  intro record hrecord
  obtain ⟨original, horiginal, rfl⟩ := List.mem_map.1 hrecord
  exact (hshaped original horiginal).frozen

theorem frozen_meets (hshaped : ∀ record ∈ records,
      Shaped prepared.val.invocation.val.function record) :
    (∀ record ∈ records.map frozenRecord, Meets prepared record) ↔
      ∀ record ∈ records, Meets prepared record := by
  rw [List.forall_mem_map]
  refine forall₂_congr fun record hrecord => ?_
  have hrecord := hshaped record hrecord
  unfold Meets
  cases hfunction : prepared.val.invocation.val.function with
  | classify =>
    rw [hfunction] at hrecord
    obtain ⟨text, htext⟩ := hrecord.label
    simp only [htext, frozenRecord_lookup hrecord htext]
  | summarize =>
    rw [hfunction] at hrecord
    obtain ⟨text, htext⟩ := hrecord.summary
    simp only [htext, frozenRecord_lookup hrecord htext]

theorem frozen_identified {function : TaskFunction}
    (hshaped : ∀ record ∈ records, Shaped function record) (identifier : String) :
    (∃ record, Identified (records.map frozenRecord) identifier record) ↔
      ∃ record, Identified records identifier record := by
  constructor
  · rintro ⟨record, hrecord, hlookup⟩
    obtain ⟨original, horiginal, rfl⟩ := List.mem_map.1 hrecord
    obtain ⟨text, htext⟩ := (hshaped original horiginal).identifier
    rw [frozenRecord_lookup (hshaped original horiginal) htext] at hlookup
    exact ⟨original, horiginal, htext.trans hlookup⟩
  · rintro ⟨record, hrecord, hlookup⟩
    exact ⟨frozenRecord record, List.mem_map_of_mem hrecord,
      frozenRecord_lookup (hshaped record hrecord) hlookup⟩

theorem failedResult_returns (base : ValidatedOutput) (failed reasons : List String) :
    ∃ result, failedResult base failed reasons = .ok result ∧
      result.val.outcome.accepted = false := by
  unfold failedResult
  dsimp only
  obtain ⟨result, hresult, hfields⟩ := make_returns { outcome := { base.val.outcome with
      accepted := false
      status := .validationFailed
      failedRuleIds := distinct (base.val.outcome.failedRuleIds ++ failed)
      reasonCodes := distinct (base.val.outcome.reasonCodes ++ reasons) } } (Or.inr rfl)
  exact ⟨result, hresult, by rw [hfields]⟩

theorem validate_cases (ports : ValidationPorts) (pack : PackedRequest)
    (context : ExecutionContext) (held : List ValidationMetadata)
    (hshaped : ∀ record ∈ records, Shaped prepared.val.invocation.val.function record) :
    (Judged ports prepared pack context records →
      Returns (fun result _ => Answered ports prepared pack context records result)
        (validate ports prepared pack records context) held) ∧
    (¬Judged ports prepared pack context records →
      Raises (validate ports prepared pack records context) held) := by
  unfold validate
  by_cases hknown : pack ∈ prepared.val.packs
  swap
  · refine ⟨fun h => absurd h.known hknown, fun _ => raises_bind (raises_lift ?_)⟩
    rintro ⟨u, hu⟩
    exact hknown (require_eq_ok.1 hu)
  have hrequired : Returns (fun _ t => t = held) (liftM (require (pack ∈ prepared.val.packs)
      (PyError.valueError "packed request does not belong to the prepared task")) :
        Validating Unit) held := returns_lift (require_of hknown) rfl
  cases hbound : ports.registry.resolve context.configuration.validationRulesVersion with
  | none =>
    have hnone (rules : ValidationRules) : ¬Bound ports context rules := by
      intro h
      rw [Bound, hbound] at h
      cases h
    refine ⟨fun _ => ?_, fun h => absurd ⟨hknown, fun rules hrules => absurd hrules (hnone rules),
      fun rules hrules => absurd hrules (hnone rules),
      fun rules hrules => absurd hrules (hnone rules)⟩ h⟩
    refine returns_bind hrequired ?_
    rintro _ _ rfl
    refine returns_bind (validate_unbound hbound) fun base _ haccepted => ?_
    rw [if_pos haccepted]
    exact returns_pure (Or.inl haccepted)
  | some rules =>
    have hrules {other : ValidationRules} (h : Bound ports context other) : other = rules := by
      rw [Bound, hbound] at h
      exact (Option.some.inj h).symm
    by_cases hnamed : Named ports.runtime rules records
    swap
    · refine ⟨fun h => absurd (h.named rules hbound) hnamed, fun _ => ?_⟩
      refine raises_after hrequired ?_
      rintro _ _ rfl
      exact raises_bind (validate_raises hbound hnamed)
    obtain ⟨ids, hids, hencodable⟩ := hnamed
    by_cases hpasses : Passes ports pack records rules
    swap
    · refine ⟨fun _ => ?_, fun h => absurd ⟨hknown, fun other hother => ?_,
        fun other hother hother' => ?_,
        fun other hother hother' => ?_⟩ h⟩
      · refine returns_bind hrequired ?_
        rintro _ _ rfl
        refine returns_bind (validate_bound hbound hids hencodable) fun base _ hfinished => ?_
        have haccepted : base.val.outcome.accepted = false := by
          rw [← Bool.not_eq_true]
          exact fun h => hpasses ((failures_eq_nil_iff hids).1 (hfinished.accepted_iff.1 h))
        rw [if_pos haccepted]
        exact returns_pure (Or.inl haccepted)
      · rw [hrules hother]
        exact ⟨ids, hids, hencodable⟩
      · exact absurd (hrules hother ▸ hother') hpasses
      · exact absurd (hrules hother ▸ hother') hpasses
    have hnothing := (failures_eq_nil_iff hids).2 hpasses
    by_cases hconstrained : Constrained prepared
    swap
    · refine ⟨fun h => absurd (h.constrained rules hbound hpasses) hconstrained, fun _ => ?_⟩
      refine raises_after hrequired ?_
      rintro _ _ rfl
      refine raises_after (validate_bound hbound hids hencodable) fun base _ hfinished => ?_
      rw [if_neg (by simp [hfinished.accepted_iff.2 hnothing])]
      exact raises_bind (raises_lift (taskFailures_raises hconstrained))
    obtain ⟨failed, reasons, hfailures, hmeets⟩ :=
      taskFailures_returns hconstrained (frozen_shaped hshaped)
    rw [frozen_meets hshaped] at hmeets
    have hchecked {base : ValidatedOutput} (hfinished : Finished
        (distinct ((failures rules pack.val.inputIds ids records).map Prod.fst))
        (records.map frozenRecord) base) :
        taskFailures prepared base.val.acceptedRecords = .ok (failed, reasons) := by
      rw [hfinished.frozen hnothing, hfailures]
    by_cases hmet : ∀ record ∈ records, Meets prepared record
    swap
    · -- the checks of the task fail, so that no record is put in order
      have hfailed : failed ≠ [] := fun h => hmet (hmeets.1 h)
      refine ⟨fun _ => ?_, fun h => absurd ⟨hknown, fun other hother => ?_, fun _ _ _ =>
        hconstrained,
        fun _ _ _ h => absurd h hmet⟩ h⟩
      · refine returns_bind hrequired ?_
        rintro _ _ rfl
        refine returns_bind (validate_bound hbound hids hencodable) fun base _ hfinished => ?_
        rw [if_neg (by simp [hfinished.accepted_iff.2 hnothing])]
        refine returns_bind (returns_lift (Q := fun r _ => r = (failed, reasons))
          (hchecked hfinished) rfl) ?_
        rintro _ _ rfl
        dsimp only
        rw [if_neg hfailed]
        obtain ⟨result, hresult, hfields⟩ := failedResult_returns base failed reasons
        exact returns_lift hresult (Or.inl hfields)
      · rw [hrules hother]
        exact ⟨ids, hids, hencodable⟩
    have hnone : failed = [] := hmeets.2 hmet
    have hordered := @orderRecords_returns_iff (records.map frozenRecord) pack.val.inputIds
    have hidentified : ∀ record ∈ records.map frozenRecord, ∃ value,
        record.lookup (CodeText.ofString "id") = some value := by
      intro record hrecord
      obtain ⟨text, htext⟩ := (frozen_shaped hshaped record hrecord).identifier
      exact ⟨_, htext⟩
    rw [and_iff_right hidentified] at hordered
    simp only [frozen_identified hshaped] at hordered
    constructor
    · intro h
      obtain ⟨ordered, hrecords⟩ := hordered.2 (h.ordered rules hbound hpasses hmet)
      refine returns_bind hrequired ?_
      rintro _ _ rfl
      refine returns_bind (validate_bound hbound hids hencodable) fun base _ hfinished => ?_
      have haccepted := hfinished.accepted_iff.2 hnothing
      rw [if_neg (by simp [haccepted])]
      refine returns_bind (returns_lift (Q := fun r _ => r = (failed, reasons))
        (hchecked hfinished) rfl) ?_
      rintro _ _ rfl
      dsimp only
      rw [if_pos hnone, hfinished.frozen hnothing]
      refine returns_bind (returns_lift (Q := fun r _ => r = ordered) hrecords rfl) ?_
      rintro ordered _ rfl
      obtain ⟨result, hresult, hfields⟩ := make_returns
        { base.val with acceptedRecords := ordered } (Or.inl haccepted)
      refine returns_lift hresult (Or.inr ⟨⟨rules, hbound, hpasses⟩, hmet, ?_⟩)
      rw [hfields]
      exact orderRecords_identified hrecords
    · intro h
      refine raises_after hrequired ?_
      rintro _ _ rfl
      refine raises_after (validate_bound hbound hids hencodable) fun base _ hfinished => ?_
      rw [if_neg (by simp [hfinished.accepted_iff.2 hnothing])]
      refine raises_after (returns_lift (Q := fun r _ => r = (failed, reasons))
        (hchecked hfinished) rfl) ?_
      rintro _ _ rfl
      dsimp only
      rw [if_pos hnone, hfinished.frozen hnothing]
      refine raises_bind (raises_lift fun hreturns => h ⟨hknown, fun other hother => ?_,
        fun _ _ _ => hconstrained, fun _ _ _ _ => hordered.1 hreturns⟩)
      rw [hrules hother]
      exact ⟨ids, hids, hencodable⟩

end Validate

end TaskOutputValidator

end AiRetrieval
