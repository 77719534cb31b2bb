import AiRetrieval.Sanity.ValidatedOutputs

/-! What the validation of a pack returns does not depend on what the metadata sink holds, and
what it hands to the sink is the outcome of the deterministic rules. -/

namespace AiRetrieval

open Program DeterministicValidator

section Alike

def ValidatedOutput.Same (a b : ValidatedOutput) : Prop :=
  a.val.outcome = b.val.outcome ∧ a.val.acceptedRecords = b.val.acceptedRecords

theorem ValidatedOutput.same_refl (a : ValidatedOutput) : ValidatedOutput.Same a a := ⟨rfl, rfl⟩

variable {ports : ValidationPorts}

theorem make_same {a b : ValidatedOutput.Fields} (houtcome : a.outcome = b.outcome)
    (hrecords : a.acceptedRecords = b.acceptedRecords) :
    EndsAlike ValidatedOutput.Same (Checked.make ValidatedOutput.postInit a)
      (Checked.make ValidatedOutput.postInit b) := by
  have hchecks : ValidatedOutput.postInit a = ValidatedOutput.postInit b := by
    unfold ValidatedOutput.postInit
    rw [houtcome, hrecords]
  cases h : ValidatedOutput.postInit b with
  | error e =>
    rw [Checked.make_of_raised h, Checked.make_of_raised (hchecks.trans h)]
    exact .error e
  | ok u =>
    rw [Checked.make_of_passed h, Checked.make_of_passed (hchecks.trans h)]
    exact .ok ⟨houtcome, hrecords⟩

theorem recordMetadata_alike (metadata : ValidationMetadata) :
    RunAlike (fun _ _ => True) (recordMetadata ports metadata) (recordMetadata ports metadata) := by
  intro s t
  obtain ⟨a, s', ha, -⟩ := @recordMetadata_returns ports s metadata
  obtain ⟨b, t', hb, -⟩ := @recordMetadata_returns ports t metadata
  rw [ha, hb]
  exact .ok trivial

theorem finish_alike (version : String) (inputIds : List String) (outputIds : List CodeText)
    (records : List ProviderRecord) (failed reasons : List String) :
    RunAlike ValidatedOutput.Same (finish ports version inputIds outputIds records failed reasons)
      (finish ports version inputIds outputIds records failed reasons) := by
  refine runAlike_bind (runAlike_lift (endsAlike_refl Eq.refl _)) ?_
  rintro inputDigest _ rfl
  refine runAlike_bind (runAlike_lift (endsAlike_refl Eq.refl _)) ?_
  rintro outputDigest _ rfl
  refine runAlike_bind (recordMetadata_alike _) fun recorded recorded' _ => ?_
  exact runAlike_lift (make_same rfl rfl)

theorem DeterministicValidator.validate_alike (inputIds : List String)
    (output : List ProviderRecord) (context : ExecutionContext) :
    RunAlike ValidatedOutput.Same (validate ports inputIds output context)
      (validate ports inputIds output context) := by
  unfold validate
  dsimp only
  split
  · exact finish_alike _ _ _ _ _ _
  · refine runAlike_bind (runAlike_lift (endsAlike_refl Eq.refl _)) ?_
    rintro ids _ rfl
    exact finish_alike _ _ _ _ _ _

/-- A pack is judged in one way, whatever the sink holds. -/
theorem TaskOutputValidator.validate_alike (prepared : PreparedTask) (pack : PackedRequest)
    (output : List ProviderRecord) (context : ExecutionContext) :
    RunAlike ValidatedOutput.Same (validate ports prepared pack output context)
      (validate ports prepared pack output context) := by
  refine runAlike_bind (runAlike_lift (endsAlike_refl Eq.refl _)) ?_
  rintro _ _ rfl
  refine runAlike_bind (DeterministicValidator.validate_alike _ _ _) ?_
  rintro base base' ⟨houtcome, hrecords⟩
  rw [houtcome, hrecords]
  split
  · exact runAlike_pure ⟨houtcome, hrecords⟩
  · refine runAlike_bind (runAlike_lift (endsAlike_refl Eq.refl _)) ?_
    rintro ⟨failed, reasons⟩ _ rfl
    dsimp only
    split
    · refine runAlike_bind (runAlike_lift (endsAlike_refl Eq.refl _)) ?_
      rintro ordered _ rfl
      exact runAlike_lift (make_same houtcome rfl)
    · unfold failedResult
      dsimp only
      rw [houtcome]
      exact runAlike_lift (endsAlike_refl ValidatedOutput.same_refl _)

end Alike

section Evidence

variable {ports : ValidationPorts}

def DeterministicOutcome.evidence (outcome : DeterministicOutcome) : ValidationMetadata :=
  ⟨outcome.rulesVersion, outcome.status, outcome.failedRuleIds, outcome.reasonCodes,
    outcome.inputIdentifierDigest, outcome.outputIdentifierDigest⟩

def noted (ports : ValidationPorts) (held : List ValidationMetadata)
    (outcome : DeterministicOutcome) : List ValidationMetadata :=
  if ports.sinkRecords held outcome.evidence then held ++ [outcome.evidence] else held

structure DeterministicOutcome.Consistent (outcome : DeterministicOutcome) : Prop where
  status : outcome.status = .accepted ↔ outcome.accepted = true
  failedRules : outcome.accepted = true → outcome.failedRuleIds = []

/-- The metadata of a consistent outcome is noted where the deterministic rules end, and nothing
is where they raise. -/
def Notes (ports : ValidationPorts) (x : Validating ValidatedOutput) : Prop :=
  ∀ held, (∃ result, x.exec held = (.ok result, noted ports held result.val.outcome) ∧
      result.val.outcome.Consistent) ∨ ∃ e, x.exec held = (.error e, held)

theorem recordMetadata_exec (held : List ValidationMetadata) (metadata : ValidationMetadata) :
    (recordMetadata ports metadata).exec held = (.ok (ports.sinkRecords held metadata),
      if ports.sinkRecords held metadata then held ++ [metadata] else held) := by
  unfold recordMetadata
  rw [exec_bind_of_ok (exec_get held)]
  cases ports.sinkRecords held metadata with
  | true => rfl
  | false => rfl

theorem finish_notes (version : String) (inputIds : List String) (outputIds : List CodeText)
    (records : List ProviderRecord) (failed reasons : List String) :
    Notes ports (finish ports version inputIds outputIds records failed reasons) := by
  intro held
  obtain ⟨inputDigest, hinput⟩ := inputDigest_returns ports.runtime inputIds
  unfold finish
  rw [hinput]
  cases houtput : identifierDigest ports.runtime outputIds with
  | error e => exact Or.inr ⟨e, rfl⟩
  | ok outputDigest =>
    obtain ⟨result, hresult, hfields⟩ := make_returns {
      outcome := ⟨⟨failed.isEmpty, failed, reasons, version⟩,
        if failed.isEmpty then .accepted else .validationFailed, inputDigest, outputDigest⟩
      acceptedRecords := if failed.isEmpty then records else []
      metadataRecorded := ports.sinkRecords held ⟨version,
        if failed.isEmpty then .accepted else .validationFailed, failed, reasons, inputDigest,
        outputDigest⟩ } (by
      cases failed with
      | nil => exact Or.inl rfl
      | cons rule rest => exact Or.inr rfl)
    refine Or.inl ⟨result, ?_, ?_⟩
    · refine (exec_bind_of_ok rfl).trans ((exec_bind_of_ok rfl).trans
        ((exec_bind_of_ok (recordMetadata_exec _ _)).trans ?_))
      rw [exec_liftExcept, hresult, noted, hfields]
      rfl
    · rw [hfields]
      cases failed with
      | nil => exact ⟨iff_of_true rfl rfl, fun _ => rfl⟩
      | cons rule rest => exact ⟨iff_of_false (fun h => (by cases h)) (fun h => (by cases h)),
          fun h => (by cases h)⟩

theorem DeterministicValidator.validate_notes (inputIds : List String)
    (output : List ProviderRecord) (context : ExecutionContext) :
    Notes ports (validate ports inputIds output context) := by
  unfold validate
  dsimp only
  split
  · exact finish_notes _ _ _ _ _ _
  · next rules _ =>
    cases outputIds ports.runtime rules output with
    | error e => exact fun held => Or.inr ⟨e, rfl⟩
    | ok ids => exact finish_notes _ _ _ _ _ _

variable {inputIds : List String} {output : List ProviderRecord} {context : ExecutionContext}
  {held held' : List ValidationMetadata} {base : ValidatedOutput}

theorem DeterministicValidator.validate_obeys {rules : ValidationRules}
    (hbound : ports.registry.resolve context.configuration.validationRulesVersion = some rules)
    (h : Obeys ports.runtime rules inputIds output) :
    ∃ base held', (validate ports inputIds output context).exec held = (.ok base, held') ∧
      base.val.outcome.accepted = true := by
  obtain ⟨ids, hids, hencodable⟩ := h.named
  obtain ⟨base, held', hrun, hfinished⟩ := validate_bound hbound hids hencodable
  exact ⟨base, held', hrun, hfinished.accepted_iff.2 ((failures_eq_nil_iff hids).2 h)⟩

theorem DeterministicValidator.validate_accepted
    (h : (validate ports inputIds output context).exec held = (.ok base, held'))
    (haccepted : base.val.outcome.accepted = true) :
    (∃ rules, ports.registry.resolve context.configuration.validationRulesVersion = some rules ∧
      Obeys ports.runtime rules inputIds output) ∧
    base.val.acceptedRecords = output.map StructuredOutputParser.frozenRecord := by
  cases hbound : ports.registry.resolve context.configuration.validationRulesVersion with
  | none =>
    obtain ⟨other, _, hother, hrejected⟩ :=
      @validate_unbound ports held inputIds output context hbound
    rw [h] at hother
    cases hother
    rw [haccepted] at hrejected
    cases hrejected
  | some rules =>
    by_cases hnamed : Named ports.runtime rules output
    · obtain ⟨ids, hids, hencodable⟩ := hnamed
      obtain ⟨other, _, hother, hfinished⟩ := @validate_bound ports held inputIds output context
        rules hbound ids hids hencodable
      rw [h] at hother
      cases hother
      have hnothing := hfinished.accepted_iff.1 haccepted
      exact ⟨⟨rules, rfl, (failures_eq_nil_iff hids).1 hnothing⟩, hfinished.frozen hnothing⟩
    · obtain ⟨e, _, he⟩ := @validate_raises ports held inputIds output context rules hbound hnamed
      rw [h] at he
      cases he

end Evidence

namespace TaskOutputValidator

section Fulfilled

variable {prepared : PreparedTask} {record : ProviderRecord} {records : List ProviderRecord}
  {inputIds : List String} {failing : ProviderRecord → Except PyError Bool}

def Fulfilled (prepared : PreparedTask) (record : ProviderRecord) : Prop :=
  match prepared.val.invocation.val.function with
  | .classify => ∃ value, record.lookup (CodeText.ofString "label") = some value ∧
      ∃ label ∈ allowedLabels prepared, label.equals value = true
  | .summarize => ∃ text maxWords limits,
      record.lookup (CodeText.ofString "summary") = some (.text text) ∧
      summaryConstraints prepared = some (maxWords, limits) ∧
      (text.words isSpacePoint).length ≤ maxWords ∧ text.length ≤ limits.maxSummaryCharacters

/-- Records that the rules of the task accept: the task has its constraints, each record fulfils
them and has an identifier, and each identifier asked for has a record. -/
structure TaskAccepts (prepared : PreparedTask) (inputIds : List String)
    (records : List ProviderRecord) : Prop where
  constrained : Constrained prepared
  values : ∀ record ∈ records, Fulfilled prepared record
  identified : ∀ record ∈ records, ∃ value,
    record.lookup (CodeText.ofString "id") = some value
  complete : ∀ identifier ∈ inputIds, ∃ record, Identified records identifier record

theorem anyRecord_false_iff :
    anyRecord failing records = .ok false ↔ ∀ record ∈ records, failing record = .ok false := by
  induction records with
  | nil => exact iff_of_true rfl fun _ h => (by cases h)
  | cons record rest ih =>
    rw [anyRecord, List.forall_mem_cons, except_bind_eq_ok, ← ih]
    constructor
    · rintro ⟨found, hfound, h⟩
      cases found with
      | true => cases h
      | false => exact ⟨hfound, h⟩
    · rintro ⟨hfound, h⟩
      exact ⟨false, hfound, h⟩

theorem field_eq_ok_iff {name : String} {value : Document} :
    field record name = .ok value ↔ record.lookup (CodeText.ofString name) = some value := by
  unfold field
  split
  · next found h => simp [h]
  · next h => simp [h]

theorem summary_eq_ok_iff {text : CodeText} : summary record = .ok text ↔
    record.lookup (CodeText.ofString "summary") = some (.text text) := by
  unfold summary
  rw [except_bind_eq_ok]
  simp only [field_eq_ok_iff]
  constructor
  · rintro ⟨value, hvalue, h⟩
    cases value with
    | text found => cases h; exact hvalue
    | _ => cases h
  · intro h
    exact ⟨_, h, rfl⟩

theorem labelOutside_false_iff : labelOutside prepared record = .ok false ↔
    ∃ value, record.lookup (CodeText.ofString "label") = some value ∧
      ∃ label ∈ allowedLabels prepared, label.equals value = true := by
  unfold labelOutside
  rw [except_bind_eq_ok]
  simp only [field_eq_ok_iff]
  refine exists_congr fun value => and_congr_right fun _ => ?_
  rw [← List.any_eq_true]
  cases (allowedLabels prepared).any (·.equals value) with
  | true => exact iff_of_true rfl rfl
  | false => exact iff_of_false (fun h => (by cases h)) (fun h => (by cases h))

theorem tooManyWords_false_iff {maxWords : Int} : tooManyWords maxWords record = .ok false ↔
    ∃ text, record.lookup (CodeText.ofString "summary") = some (.text text) ∧
      (text.words isSpacePoint).length ≤ maxWords := by
  unfold tooManyWords
  rw [except_bind_eq_ok]
  simp only [summary_eq_ok_iff]
  refine exists_congr fun text => and_congr_right fun _ => ?_
  rw [← not_lt, ← decide_eq_false_iff_not]
  exact ⟨fun h => Except.ok.inj h, fun h => congrArg Except.ok h⟩

theorem tooManyCharacters_false_iff {limits : SummaryLengthLimits} :
    tooManyCharacters limits record = .ok false ↔
      ∃ text, record.lookup (CodeText.ofString "summary") = some (.text text) ∧
        text.length ≤ limits.maxSummaryCharacters := by
  unfold tooManyCharacters
  rw [except_bind_eq_ok]
  simp only [summary_eq_ok_iff]
  refine exists_congr fun text => and_congr_right fun _ => ?_
  rw [← not_lt, ← decide_eq_false_iff_not]
  exact ⟨fun h => Except.ok.inj h, fun h => congrArg Except.ok h⟩

theorem taskFailures_classify_nil_iff
    (hfunction : prepared.val.invocation.val.function = .classify) :
    (∃ reasons, taskFailures prepared records = .ok ([], reasons)) ↔
      ∀ record ∈ records, labelOutside prepared record = .ok false := by
  unfold taskFailures
  rw [hfunction, ← anyRecord_false_iff]
  constructor
  · rintro ⟨reasons, h⟩
    obtain ⟨outside, houtside, h⟩ := except_bind_eq_ok.1 h
    cases outside with
    | true => cases h
    | false => exact houtside
  · intro h
    refine ⟨[], ?_⟩
    simp only [h]
    rfl

theorem taskFailures_summarize_nil_iff
    (hfunction : prepared.val.invocation.val.function = .summarize) {maxWords : Int}
    {limits : SummaryLengthLimits}
    (hconstraints : summaryConstraints prepared = some (maxWords, limits)) :
    (∃ reasons, taskFailures prepared records = .ok ([], reasons)) ↔
      ∀ record ∈ records, tooManyWords maxWords record = .ok false ∧
        tooManyCharacters limits record = .ok false := by
  unfold taskFailures
  rw [hfunction]
  simp only [hconstraints, forall₂_and, ← anyRecord_false_iff]
  constructor
  · rintro ⟨reasons, h⟩
    obtain ⟨wordy, hwordy, h⟩ := except_bind_eq_ok.1 h
    obtain ⟨long, hlong, h⟩ := except_bind_eq_ok.1 h
    cases wordy with
    | true => cases h
    | false =>
      cases long with
      | true => cases h
      | false => exact ⟨hwordy, hlong⟩
  · rintro ⟨hwordy, hlong⟩
    refine ⟨[], ?_⟩
    simp only [hwordy, hlong]
    rfl

/-- The checks of a task pass where all its records fulfil what is asked. -/
theorem taskFailures_nil_iff : (∃ reasons, taskFailures prepared records = .ok ([], reasons)) ↔
    Constrained prepared ∧ ∀ record ∈ records, Fulfilled prepared record := by
  unfold Fulfilled
  cases hfunction : prepared.val.invocation.val.function with
  | classify =>
    rw [taskFailures_classify_nil_iff hfunction, and_iff_right]
    · exact forall₂_congr fun record _ => labelOutside_false_iff
    · intro h
      rw [hfunction] at h
      cases h
  | summarize =>
    by_cases hconstrained : Constrained prepared
    · obtain ⟨⟨maxWords, limits⟩, hconstraints⟩ :=
        Option.isSome_iff_exists.1 (hconstrained hfunction)
      rw [taskFailures_summarize_nil_iff hfunction hconstraints, and_iff_right hconstrained]
      refine forall₂_congr fun record _ => ?_
      rw [tooManyWords_false_iff, tooManyCharacters_false_iff, hconstraints]
      constructor
      · rintro ⟨⟨text, htext, hwords⟩, ⟨_, htext', hcharacters⟩⟩
        rw [htext] at htext'
        cases htext'
        exact ⟨text, maxWords, limits, htext, rfl, hwords, hcharacters⟩
      · rintro ⟨text, _, _, htext, he, hwords, hcharacters⟩
        cases he
        exact ⟨⟨text, htext, hwords⟩, text, htext, hcharacters⟩
    · refine iff_of_false ?_ fun h => hconstrained h.1
      rintro ⟨reasons, h⟩
      exact taskFailures_raises hconstrained ⟨_, h⟩

theorem taskAccepts_iff : TaskAccepts prepared inputIds records ↔
    (∃ reasons, taskFailures prepared records = .ok ([], reasons)) ∧
      ∃ ordered, orderRecords records inputIds = .ok ordered := by
  rw [taskFailures_nil_iff, orderRecords_returns_iff]
  constructor
  · intro h
    exact ⟨⟨h.constrained, h.values⟩, h.identified, h.complete⟩
  · rintro ⟨⟨hconstrained, hvalues⟩, hidentified, hcomplete⟩
    exact ⟨hconstrained, hvalues, hidentified, hcomplete⟩

end Fulfilled

section Composed

variable {ports : ValidationPorts} {prepared : PreparedTask} {pack : PackedRequest}
  {output : List ProviderRecord} {context : ExecutionContext} {held held' : List ValidationMetadata}
  {base result : ValidatedOutput}

/-- What `validate` makes of the result of the deterministic rules. -/
def judge (prepared : PreparedTask) (pack : PackedRequest) (base : ValidatedOutput) :
    Except PyError ValidatedOutput := do
  if base.val.outcome.accepted = false then return base
  else
    let (failed, reasons) ← taskFailures prepared base.val.acceptedRecords
    if failed = [] then
      let ordered ← orderRecords base.val.acceptedRecords pack.val.inputIds
      Checked.make ValidatedOutput.postInit { base.val with acceptedRecords := ordered }
    else failedResult base failed reasons

theorem validate_unknown (h : pack ∉ prepared.val.packs) :
    ∃ e, (validate ports prepared pack output context).exec held = (.error e, held) := by
  unfold validate require
  rw [if_neg h]
  exact ⟨_, rfl⟩

theorem validate_of_error {e : PyError} (hpack : pack ∈ prepared.val.packs)
    (h : (DeterministicValidator.validate ports pack.val.inputIds output context).exec held =
      (.error e, held')) :
    (validate ports prepared pack output context).exec held = (.error e, held') := by
  unfold validate require
  rw [if_pos hpack]
  exact (exec_bind_of_ok rfl).trans (exec_bind_of_error h)

theorem validate_of_base (hpack : pack ∈ prepared.val.packs)
    (h : (DeterministicValidator.validate ports pack.val.inputIds output context).exec held =
      (.ok base, held')) :
    (validate ports prepared pack output context).exec held =
      (judge prepared pack base, held') := by
  unfold validate require
  rw [if_pos hpack]
  refine (exec_bind_of_ok rfl).trans ((exec_bind_of_ok h).trans ?_)
  unfold judge
  split
  · rfl
  · cases taskFailures prepared base.val.acceptedRecords with
    | error e => rfl
    | ok found =>
      obtain ⟨failed, reasons⟩ := found
      change exec (if failed = [] then _ else _) held' = (if failed = [] then _ else _, held')
      split
      · cases orderRecords base.val.acceptedRecords pack.val.inputIds <;> rfl
      · rfl

theorem judge_rejected (h : base.val.outcome.accepted = false) : judge prepared pack base =
    .ok base := by
  unfold judge
  rw [if_pos h]
  rfl

theorem judge_accepted_iff (h : base.val.outcome.accepted = true) :
    (∃ result, judge prepared pack base = .ok result ∧ result.val.outcome.accepted = true) ↔
      TaskAccepts prepared pack.val.inputIds base.val.acceptedRecords := by
  rw [taskAccepts_iff]
  unfold judge
  rw [if_neg (by simp [h])]
  constructor
  · rintro ⟨result, hresult, haccepted⟩
    obtain ⟨⟨failed, reasons⟩, hfailures, hresult⟩ := except_bind_eq_ok.1 hresult
    dsimp only at hresult
    split at hresult
    · next hnone =>
      obtain ⟨ordered, hordered, -⟩ := except_bind_eq_ok.1 hresult
      exact ⟨⟨reasons, by rw [hfailures, hnone]⟩, ordered, hordered⟩
    · obtain ⟨other, hother, hrejected⟩ := failedResult_returns base failed reasons
      rw [hother] at hresult
      cases hresult
      rw [hrejected] at haccepted
      cases haccepted
  · rintro ⟨⟨reasons, hfailures⟩, ordered, hordered⟩
    obtain ⟨result, hresult, hfields⟩ := make_returns { base.val with acceptedRecords := ordered }
      (Or.inl h)
    refine ⟨result, ?_, by rw [hfields]; exact h⟩
    rw [hfailures]
    refine (?_ : (orderRecords base.val.acceptedRecords pack.val.inputIds >>= _) = _)
    rw [hordered]
    exact hresult

theorem judge_accepted (h : judge prepared pack base = .ok result)
    (haccepted : result.val.outcome.accepted = true) :
    base.val.outcome = result.val.outcome ∧
      orderRecords base.val.acceptedRecords pack.val.inputIds = .ok result.val.acceptedRecords := by
  unfold judge at h
  split at h
  · next hrejected =>
    cases h
    rw [haccepted] at hrejected
    cases hrejected
  · obtain ⟨⟨failed, reasons⟩, hfailures, h⟩ := except_bind_eq_ok.1 h
    dsimp only at h
    split at h
    · obtain ⟨ordered, hordered, h⟩ := except_bind_eq_ok.1 h
      have hfields := Checked.make_eq_ok.1 h
      rw [hfields]
      exact ⟨rfl, hordered⟩
    · obtain ⟨other, hother, hrejected⟩ := failedResult_returns base failed reasons
      rw [hother] at h
      cases h
      rw [hrejected] at haccepted
      cases haccepted

end Composed

end TaskOutputValidator

end AiRetrieval
