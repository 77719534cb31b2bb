import AiRetrieval.Proofs.EscapingOutput

/-! The deterministic validator accepts what fits its rules and else reports exactly the rules
that are violated, unless the comparisons with a bound are left undecided by a `NaN`. -/

namespace AiRetrieval

open Program DeterministicValidator

namespace PyNumber

def AtMost (a b : PyNumber) : Prop := a.less b = true ∨ a.equal b = true

/-- `not a > b`, which is all the comparisons of the validator show. -/
def NotAbove (a b : PyNumber) : Prop := b.less a = false

/-- One of the numbers stands nowhere on the line. -/
def Unordered (a b : PyNumber) : Prop := a.rank = none ∨ b.rank = none

theorem atMost_iff {a b : PyNumber} : AtMost a b ↔ NotAbove a b ∧ ¬Unordered a b := by
  unfold AtMost NotAbove Unordered less equal
  cases a.rank with
  | none => simp
  | some x =>
    cases b.rank with
    | none => simp
    | some y =>
      obtain ⟨x, p⟩ := x
      obtain ⟨y, q⟩ := y
      simp only [decide_eq_true_eq, decide_eq_false_iff_not, Prod.mk.injEq, reduceCtorEq,
        or_self, not_false_eq_true, and_true]
      rcases lt_trichotomy x y with h | rfl | h
      · simp [h, h.not_gt, h.ne']
      · simp [← le_iff_lt_or_eq]
      · simp [h, h.not_gt, h.ne']

end PyNumber

section Rules

/-- A value is one of a rule's, where `bound a b` says that `a` does not exceed `b`. -/
structure ValueHolds (bound : PyNumber → PyNumber → Prop) (rule : FieldRule) (value : Document) :
    Prop where
  type : matchesType value rule.val.valueType = true
  allowed : ∀ allowed ∈ rule.val.allowedValues, ∃ other ∈ allowed, sameScalar value other = true
  minimum : ∀ number ∈ documentNumber value, ∀ minimum ∈ rule.val.minimum, bound minimum number
  maximum : ∀ number ∈ documentNumber value, ∀ maximum ∈ rule.val.maximum, bound number maximum

def RuleHolds (bound : PyNumber → PyNumber → Prop) (rule : FieldRule) (record : ProviderRecord) :
    Prop :=
  match record.lookup (CodeText.ofString rule.val.field) with
  | none => rule.val.required = false
  | some .null => rule.val.nullable = true
  | some value => ValueHolds bound rule value

/-- The comparisons with a bound tell nothing: the value or the bound is no number. -/
def Undecided (rule : FieldRule) (value : Document) : Prop :=
  ∃ number ∈ documentNumber value, (∃ minimum ∈ rule.val.minimum,
    PyNumber.Unordered minimum number) ∨ ∃ maximum ∈ rule.val.maximum,
      PyNumber.Unordered number maximum

/-- A record has under a rule's field a value that passes its comparisons undecided. -/
def Escapes (rule : FieldRule) (record : ProviderRecord) : Prop :=
  ∃ value, record.lookup (CodeText.ofString rule.val.field) = some value ∧
    ValueHolds PyNumber.NotAbove rule value ∧ Undecided rule value

inductive Violated (bound : PyNumber → PyNumber → Prop) (runtime : PythonRuntime)
    (rules : ValidationRules) (inputIds : List String) (output : List ProviderRecord) :
    String → Prop where
  | present (record : ProviderRecord) (h : record ∈ output)
      (hnone : identifierOf rules record = none) :
      Violated bound runtime rules inputIds output "identifiers.present"
  | additional (record : ProviderRecord) (h : record ∈ output)
      (hallowed : rules.val.allowAdditionalFields = false)
      (hextra : ¬∀ entry ∈ record,
        entry.1 ∈ rules.val.fieldRules.map fun rule => CodeText.ofString rule.val.field) :
      Violated bound runtime rules inputIds output "schema.additional_fields"
  | unique (ids : List CodeText) (hids : outputIds runtime rules output = .ok ids)
      (h : ¬ids.Nodup) : Violated bound runtime rules inputIds output "identifiers.unique"
  | exact (ids : List CodeText) (hids : outputIds runtime rules output = .ok ids)
      (h : ¬∀ text, text ∈ ids ↔ text ∈ inputIds.map CodeText.ofString) :
      Violated bound runtime rules inputIds output "identifiers.exact_set"
  | cardinality (h : output.length ≠ inputIds.length) :
      Violated bound runtime rules inputIds output "cardinality.equal"
  | field (record : ProviderRecord) (h : record ∈ output) (rule : FieldRule)
      (hrule : rule ∈ rules.val.fieldRules) (hfails : ¬RuleHolds bound rule record) :
      Violated bound runtime rules inputIds output rule.val.ruleId

/-- An output that fits: its identifiers are those asked for in some order, it has no field
without a rule unless these are allowed, and every rule holds in every record. -/
structure FitsRules (runtime : PythonRuntime) (rules : ValidationRules) (inputIds : List String)
    (output : List ProviderRecord) : Prop where
  identifiers : ∃ ids, outputIds runtime rules output = .ok ids ∧
    ids.Perm (inputIds.map CodeText.ofString)
  identified : ∀ record ∈ output, identifierOf rules record ≠ none
  known : rules.val.allowAdditionalFields = false → ∀ record ∈ output, ∀ entry ∈ record,
    entry.1 ∈ rules.val.fieldRules.map fun rule => CodeText.ofString rule.val.field
  fields : ∀ record ∈ output, ∀ rule ∈ rules.val.fieldRules, RuleHolds PyNumber.AtMost rule record

/-- The verdict the rules give: accepted where the output fits, and else the violated rules,
each once, and no record. -/
structure ExactVerdict (runtime : PythonRuntime) (rules : ValidationRules)
    (inputIds : List String) (output : List ProviderRecord) (result : ValidatedOutput) :
    Prop where
  accepted : result.val.outcome.accepted = true ↔ FitsRules runtime rules inputIds output
  failed : result.val.outcome.accepted = false → result.val.outcome.failedRuleIds.Nodup ∧
    ∀ id, id ∈ result.val.outcome.failedRuleIds ↔
      Violated PyNumber.AtMost runtime rules inputIds output id
  withheld : result.val.outcome.accepted = false → result.val.acceptedRecords = []

end Rules

section Failures

variable {rule : FieldRule} {record : ProviderRecord} {runtime : PythonRuntime}
  {rules : ValidationRules} {inputIds : List String} {output : List ProviderRecord}

theorem domainFailure_eq_none_iff {value : Document} :
    domainFailure rule value = none ↔ ValueHolds PyNumber.NotAbove rule value := by
  have hallowed : (rule.val.allowedValues.any fun allowed => !allowed.any (sameScalar value)) =
      false ↔ ∀ allowed ∈ rule.val.allowedValues, ∃ other ∈ allowed,
        sameScalar value other = true := by
    cases rule.val.allowedValues <;> simp
  have hminimum : ((documentNumber value).any fun number => rule.val.minimum.any number.less) =
      false ↔ ∀ number ∈ documentNumber value, ∀ minimum ∈ rule.val.minimum,
        PyNumber.NotAbove minimum number := by
    cases documentNumber value <;> cases rule.val.minimum <;> simp [PyNumber.NotAbove]
  have hmaximum : ((documentNumber value).any fun number =>
      rule.val.maximum.any (·.less number)) = false ↔ ∀ number ∈ documentNumber value,
        ∀ maximum ∈ rule.val.maximum, PyNumber.NotAbove number maximum := by
    cases documentNumber value <;> cases rule.val.maximum <;> simp [PyNumber.NotAbove]
  unfold domainFailure
  split
  · next htype => exact ⟨fun h => (by cases h), fun h => by simp [h.type] at htype⟩
  · next htype =>
    rw [Bool.not_eq_false] at htype
    split
    · next h => exact ⟨fun h => (by cases h), fun holds => by simp [hallowed.2 holds.allowed] at h⟩
    · next h =>
      rw [Bool.not_eq_true, hallowed] at h
      split
      · next h =>
        exact ⟨fun h => (by cases h), fun holds => by simp [hminimum.2 holds.minimum] at h⟩
      · next hmin =>
        rw [Bool.not_eq_true, hminimum] at hmin
        split
        · next h =>
          exact ⟨fun h => (by cases h), fun holds => by simp [hmaximum.2 holds.maximum] at h⟩
        · next hmax =>
          rw [Bool.not_eq_true, hmaximum] at hmax
          exact ⟨fun _ => ⟨htype, h, hmin, hmax⟩, fun _ => rfl⟩

theorem ruleFailure_eq_none_iff :
    ruleFailure record rule = none ↔ RuleHolds PyNumber.NotAbove rule record := by
  unfold ruleFailure RuleHolds
  cases record.lookup (CodeText.ofString rule.val.field) with
  | none => cases rule.val.required <;> simp
  | some value =>
    cases value with
    | null => cases rule.val.nullable <;> simp
    | _ => exact domainFailure_eq_none_iff

theorem valueHolds_iff {value : Document} : ValueHolds PyNumber.AtMost rule value ↔
    ValueHolds PyNumber.NotAbove rule value ∧ ¬Undecided rule value := by
  constructor
  · intro h
    refine ⟨⟨h.type, h.allowed, ?_, ?_⟩, ?_⟩
    · intro number hnumber minimum hminimum
      exact (PyNumber.atMost_iff.1 (h.minimum number hnumber minimum hminimum)).1
    · intro number hnumber maximum hmaximum
      exact (PyNumber.atMost_iff.1 (h.maximum number hnumber maximum hmaximum)).1
    · rintro ⟨number, hnumber, ⟨minimum, hminimum, hnan⟩ | ⟨maximum, hmaximum, hnan⟩⟩
      · exact (PyNumber.atMost_iff.1 (h.minimum number hnumber minimum hminimum)).2 hnan
      · exact (PyNumber.atMost_iff.1 (h.maximum number hnumber maximum hmaximum)).2 hnan
  · rintro ⟨h, hdecided⟩
    refine ⟨h.type, h.allowed, ?_, ?_⟩
    · intro number hnumber minimum hminimum
      refine PyNumber.atMost_iff.2 ⟨h.minimum number hnumber minimum hminimum, fun hnan => ?_⟩
      exact hdecided ⟨number, hnumber, Or.inl ⟨minimum, hminimum, hnan⟩⟩
    · intro number hnumber maximum hmaximum
      refine PyNumber.atMost_iff.2 ⟨h.maximum number hnumber maximum hmaximum, fun hnan => ?_⟩
      exact hdecided ⟨number, hnumber, Or.inr ⟨maximum, hmaximum, hnan⟩⟩

/-- A rule holds where the comparisons show nothing else, unless a value escapes them. -/
theorem ruleHolds_iff : RuleHolds PyNumber.AtMost rule record ↔
    RuleHolds PyNumber.NotAbove rule record ∧ ¬Escapes rule record := by
  unfold RuleHolds Escapes
  split
  · next h => simp [h]
  · next h => simp [h, Undecided, documentNumber]
  · next value hnull hlookup =>
    rw [hlookup, valueHolds_iff]
    refine and_congr_right fun h => not_congr ⟨fun hundecided => ⟨value, rfl, h, hundecided⟩, ?_⟩
    rintro ⟨_, he, -, hundecided⟩
    cases he
    exact hundecided

theorem mem_recordFailures_iff {id reason : String} :
    (id, reason) ∈ recordFailures rules record ↔
      (id = "identifiers.present" ∧ reason = "identifier_missing" ∧
        identifierOf rules record = none) ∨
      (id = "schema.additional_fields" ∧ reason = "additional_fields" ∧
        rules.val.allowAdditionalFields = false ∧ ¬∀ entry ∈ record,
          entry.1 ∈ rules.val.fieldRules.map fun rule => CodeText.ofString rule.val.field) ∨
      ∃ rule ∈ rules.val.fieldRules, ruleFailure record rule = some reason ∧
        rule.val.ruleId = id := by
  unfold recordFailures
  rw [List.mem_append, List.mem_append, or_assoc]
  refine or_congr ?_ (or_congr ?_ ?_)
  · cases identifierOf rules record <;> simp
  · split
    · next h =>
      simp only [List.mem_singleton, Prod.mk.injEq, h, not_false_eq_true, and_self, and_true]
    · next h =>
      refine ⟨fun h => (by cases h), ?_⟩
      rintro ⟨-, -, hextra⟩
      exact absurd hextra h
  · rw [List.mem_filterMap]
    simp only [Option.map_eq_some_iff, Prod.mk.injEq, existsAndEq, and_true]

theorem mem_setFailures_iff {ids : List CodeText} {count : Nat} {id : String} :
    (∃ reason, (id, reason) ∈ setFailures inputIds ids count) ↔
      (id = "identifiers.unique" ∧ ¬ids.Nodup) ∨
      (id = "identifiers.exact_set" ∧ ¬∀ text, text ∈ ids ↔ text ∈ inputIds.map CodeText.ofString) ∨
      (id = "cardinality.equal" ∧ count ≠ inputIds.length) := by
  have hadded {p : Prop} [Decidable p] {rule reason : String} :
      (∃ found, (id, found) ∈ if p then [] else [(rule, reason)]) ↔ id = rule ∧ ¬p := by
    by_cases h : p <;> simp [h]
  unfold setFailures
  simp only [List.mem_append, exists_or, hadded, or_assoc]
  refine or_congr Iff.rfl (or_congr (and_congr_right fun _ => not_congr ?_) Iff.rfl)
  exact ⟨fun h text => ⟨h.1 text, h.2 text⟩, fun h => ⟨fun text => (h text).1, fun text =>
    (h text).2⟩⟩

/-- The rules the failures name are the violated ones, as the comparisons show them. -/
theorem mem_failures_iff {ids : List CodeText} (hids : outputIds runtime rules output = .ok ids)
    {id : String} : id ∈ distinct ((failures rules inputIds ids output).map Prod.fst) ↔
      Violated PyNumber.NotAbove runtime rules inputIds output id := by
  rw [mem_distinct]
  constructor
  · intro h
    obtain ⟨⟨_, reason⟩, hfailure, rfl⟩ := List.mem_map.1 h
    unfold failures at hfailure
    rcases List.mem_append.1 hfailure with hfailure | hfailure
    · obtain ⟨record, hrecord, hfailure⟩ := List.mem_flatMap.1 hfailure
      rcases mem_recordFailures_iff.1 hfailure with ⟨rfl, -, hnone⟩ | ⟨rfl, -, hclosed, hextra⟩ |
        ⟨rule, hrule, hreason, rfl⟩
      · exact .present record hrecord hnone
      · exact .additional record hrecord hclosed hextra
      · refine .field record hrecord rule hrule fun holds => ?_
        rw [ruleFailure_eq_none_iff.2 holds] at hreason
        cases hreason
    · rcases mem_setFailures_iff.1 ⟨reason, hfailure⟩ with ⟨rfl, hset⟩ | ⟨rfl, hset⟩ | ⟨rfl, hset⟩
      · exact .unique ids hids hset
      · exact .exact ids hids hset
      · exact .cardinality hset
  · intro h
    have hrecord {record : ProviderRecord} {id reason : String} (h : record ∈ output)
        (hmem : (id, reason) ∈ recordFailures rules record) :
        id ∈ (failures rules inputIds ids output).map Prod.fst :=
      List.mem_map_of_mem (List.mem_append_left _ (List.mem_flatMap.2 ⟨record, h, hmem⟩))
    have hset {id : String}
        (h : ∃ reason, (id, reason) ∈ setFailures inputIds ids output.length) :
        id ∈ (failures rules inputIds ids output).map Prod.fst := by
      obtain ⟨reason, hmem⟩ := h
      exact List.mem_map_of_mem (List.mem_append_right _ hmem)
    cases h with
    | present record h hnone =>
      exact hrecord h (mem_recordFailures_iff.2 (Or.inl ⟨rfl, rfl, hnone⟩))
    | additional record h hclosed hextra =>
      exact hrecord h (mem_recordFailures_iff.2 (Or.inr (Or.inl ⟨rfl, rfl, hclosed, hextra⟩)))
    | unique others hothers h =>
      cases hids.symm.trans hothers
      exact hset (mem_setFailures_iff.2 (Or.inl ⟨rfl, h⟩))
    | exact others hothers h =>
      cases hids.symm.trans hothers
      exact hset (mem_setFailures_iff.2 (Or.inr (Or.inl ⟨rfl, h⟩)))
    | cardinality h => exact hset (mem_setFailures_iff.2 (Or.inr (Or.inr ⟨rfl, h⟩)))
    | field record h rule hrule hfails =>
      rw [← ruleFailure_eq_none_iff, ← ne_eq, Option.ne_none_iff_exists'] at hfails
      obtain ⟨reason, hreason⟩ := hfails
      exact hrecord h (mem_recordFailures_iff.2 (Or.inr (Or.inr ⟨rule, hrule, hreason, rfl⟩)))

theorem violated_of_notAbove {id : String}
    (h : Violated PyNumber.NotAbove runtime rules inputIds output id) :
    Violated PyNumber.AtMost runtime rules inputIds output id := by
  cases h with
  | present record h hnone => exact .present record h hnone
  | additional record h hallowed hextra => exact .additional record h hallowed hextra
  | unique ids hids h => exact .unique ids hids h
  | exact ids hids h => exact .exact ids hids h
  | cardinality h => exact .cardinality h
  | field record h rule hrule hfails =>
    exact .field record h rule hrule fun holds => hfails (ruleHolds_iff.1 holds).1

theorem fitsRules_iff (hdistinct : inputIds.Nodup) {ids : List CodeText}
    (hids : outputIds runtime rules output = .ok ids) :
    FitsRules runtime rules inputIds output ↔
      ∀ id, ¬Violated PyNumber.AtMost runtime rules inputIds output id := by
  have hasked : (inputIds.map CodeText.ofString).Nodup :=
    hdistinct.map fun _ _ h => CodeText.ofString_injective h
  constructor
  · intro h id hviolated
    obtain ⟨found, hfound, hperm⟩ := h.identifiers
    have hsame {others : List CodeText} (hothers : outputIds runtime rules output = .ok others) :
        others = found := Except.ok.inj (hothers.symm.trans hfound)
    cases hviolated with
    | present record hrecord hnone => exact h.identified record hrecord hnone
    | additional record hrecord hclosed hextra => exact hextra (h.known hclosed record hrecord)
    | unique others hothers hnot => exact hnot (hsame hothers ▸ hperm.nodup_iff.2 hasked)
    | exact others hothers hnot => exact hnot fun text => hsame hothers ▸ hperm.mem_iff
    | cardinality hnot =>
      refine hnot ?_
      have hlength := hperm.length_eq
      rw [outputIds_length hfound, List.length_map] at hlength
      rw [← hlength, List.filterMap_length_eq_length.2 fun record hrecord =>
        Option.isSome_iff_ne_none.2 (h.identified record hrecord)]
    | field record hrecord rule hrule hfails => exact hfails (h.fields record hrecord rule hrule)
  · intro h
    refine ⟨?_, ?_, ?_, ?_⟩
    · refine ⟨ids, hids, (List.perm_ext_iff_of_nodup ?_ hasked).2 ?_⟩
      · exact not_not.1 fun hnot => h _ (.unique ids hids hnot)
      · exact not_not.1 fun hnot => h _ (.exact ids hids hnot)
    · intro record hrecord hnone
      exact h _ (.present record hrecord hnone)
    · intro hclosed record hrecord
      exact not_not.1 fun hextra => h _ (.additional record hrecord hclosed hextra)
    · intro record hrecord rule hrule
      exact not_not.1 fun hfails => h _ (.field record hrecord rule hrule hfails)

end Failures

section Verdicts

variable {ports : ValidationPorts} {context : ExecutionContext} {rules : ValidationRules}
  {inputIds : List String} {output : List ProviderRecord} {records : List ProviderRecord}
  {result : ValidatedOutput}

theorem exactVerdict_iff (hdistinct : inputIds.Nodup) {ids : List CodeText}
    (hids : outputIds ports.runtime rules output = .ok ids) (h : Finished
      (distinct ((failures rules inputIds ids output).map Prod.fst)) records result) :
    ExactVerdict ports.runtime rules inputIds output result ↔
      ∀ id, Violated PyNumber.AtMost ports.runtime rules inputIds output id →
        Violated PyNumber.NotAbove ports.runtime rules inputIds output id := by
  have hfailed (id : String) : id ∈ result.val.outcome.failedRuleIds ↔
      Violated PyNumber.NotAbove ports.runtime rules inputIds output id := by
    rw [h.failedRules]
    exact mem_failures_iff hids
  have haccepted : result.val.outcome.accepted = true ↔
      ∀ id, id ∉ result.val.outcome.failedRuleIds := by
    rw [h.accepted, h.failedRules, List.isEmpty_iff, List.eq_nil_iff_forall_not_mem]
  constructor
  · intro hverdict id hviolated
    rw [← hfailed]
    by_cases haccept : result.val.outcome.accepted = true
    · exact absurd hviolated ((fitsRules_iff hdistinct hids).1 (hverdict.accepted.1 haccept) id)
    · rw [Bool.not_eq_true] at haccept
      exact ((hverdict.failed haccept).2 id).2 hviolated
  · intro hshown
    have hsame (id : String) : id ∈ result.val.outcome.failedRuleIds ↔
        Violated PyNumber.AtMost ports.runtime rules inputIds output id :=
      (hfailed id).trans ⟨violated_of_notAbove, hshown id⟩
    refine ⟨?_, fun _ => ⟨?_, hsame⟩, fun hnot => ?_⟩
    · rw [haccepted, fitsRules_iff hdistinct hids]
      simp only [hsame]
    · rw [h.failedRules]
      exact distinct_nodup _
    · rw [h.acceptedRecords, ← h.accepted, hnot]
      rfl

theorem violated_shown_iff :
    (∀ id, Violated PyNumber.AtMost ports.runtime rules inputIds output id →
      Violated PyNumber.NotAbove ports.runtime rules inputIds output id) ↔
    ∀ record ∈ output, ∀ rule ∈ rules.val.fieldRules, Escapes rule record →
      Violated PyNumber.NotAbove ports.runtime rules inputIds output rule.val.ruleId := by
  constructor
  · intro hshown record hrecord rule hrule hescapes
    refine hshown _ (.field record hrecord rule hrule fun holds => ?_)
    exact (ruleHolds_iff.1 holds).2 hescapes
  · intro hescaped id hviolated
    cases hviolated with
    | present record hrecord hnone => exact .present record hrecord hnone
    | additional record hrecord hclosed hextra => exact .additional record hrecord hclosed hextra
    | unique ids hids hnot => exact .unique ids hids hnot
    | exact ids hids hnot => exact .exact ids hids hnot
    | cardinality hnot => exact .cardinality hnot
    | field record hrecord rule hrule hfails =>
      by_cases hholds : RuleHolds PyNumber.NotAbove rule record
      · rw [ruleHolds_iff, not_and, not_not] at hfails
        exact hescaped record hrecord rule hrule (hfails hholds)
      · exact .field record hrecord rule hrule hholds

/-- Of an output whose identifiers can be encoded, the verdict is the one of the rules where no
identifier is too long to be written and each rule that a value escapes is violated otherwise. -/
theorem verdict_exact (held : List ValidationMetadata)
    (hbound : ports.registry.resolve context.configuration.validationRulesVersion = some rules)
    (hdistinct : inputIds.Nodup)
    (hencodable : ∀ ids, outputIds ports.runtime rules output = .ok ids →
      ∀ text ∈ ids, (text.string?).isSome = true) :
    (∃ result held', (validate ports inputIds output context).exec held = (.ok result, held') ∧
      ExactVerdict ports.runtime rules inputIds output result) ↔
    (∀ record ∈ output, ∀ identifier ∈ identifierOf rules record,
      CanonicalPayload.printable identifier = true) ∧
    ∀ record ∈ output, ∀ rule ∈ rules.val.fieldRules, Escapes rule record →
      Violated PyNumber.NotAbove ports.runtime rules inputIds output rule.val.ruleId := by
  rw [← @outputIds_returns_iff ports.runtime, ← violated_shown_iff]
  constructor
  · rintro ⟨result, held', hrun, hverdict⟩
    by_cases hnamed : Named ports.runtime rules output
    · obtain ⟨ids, hids, -⟩ := hnamed
      obtain ⟨other, _, hother, hfinished⟩ := @validate_bound ports held inputIds output context
        rules hbound ids hids (hencodable ids hids)
      cases hrun.symm.trans hother
      exact ⟨⟨ids, hids⟩, (exactVerdict_iff hdistinct hids hfinished).1 hverdict⟩
    · obtain ⟨e, _, he⟩ := @validate_raises ports held inputIds output context rules hbound hnamed
      cases hrun.symm.trans he
  · rintro ⟨⟨ids, hids⟩, hshown⟩
    obtain ⟨result, held', hrun, hfinished⟩ := @validate_bound ports held inputIds output context
      rules hbound ids hids (hencodable ids hids)
    exact ⟨result, held', hrun, (exactVerdict_iff hdistinct hids hfinished).2 hshown⟩

end Verdicts

namespace Sample

def identifierRule : FieldRule.Fields where
  ruleId := "schema.id.string"
  field := "id"
  valueType := .string

theorem identifierRule_passes : FieldRule.postInit identifierRule = .ok () := by decide +kernel

def domainRule : FieldRule.Fields where
  ruleId := "domain.score"
  field := "score"
  valueType := .number
  minimum := some (.int 0)
  maximum := some (.int 1)

theorem domainRule_passes : FieldRule.postInit domainRule = .ok () := by decide +kernel

def scoreFields : ValidationRules.Fields where
  version := "rules-1"
  identifierField := "id"
  fieldRules := [⟨identifierRule, identifierRule_passes⟩, ⟨domainRule, domainRule_passes⟩]

theorem scoreFields_pass : ValidationRules.postInit scoreFields = .ok () := by decide +kernel

/-- A rule set with a bounded number. -/
def scoreRules : ValidationRules := ⟨scoreFields, scoreFields_pass⟩

def scoring : ValidationPorts :=
  { validation with registry := Dict.empty.insert "rules-1" scoreRules }

def scored (identifier : String) (score : PyFloat) : ProviderRecord :=
  [(CodeText.ofString "id", .text (CodeText.ofString identifier)),
    (CodeText.ofString "score", .float score)]

/-- Two records, the second with a score above the maximum. -/
def twoScores : List ProviderRecord :=
  [scored "row-2" (.finite false (1 / 2)), scored "row-1" (.finite false 2)]

theorem scored_not_escapes (identifier : String) (negative : Bool) (magnitude : Rat)
    (rule : FieldRule) (hrule : rule ∈ scoreRules.val.fieldRules) :
    ¬Escapes rule (scored identifier (.finite negative magnitude)) := by
  rintro ⟨value, hvalue, -, number, hnumber, hbounds⟩
  rcases List.mem_pair.1 hrule with rfl | rfl
  · rcases hbounds with ⟨_, hminimum, -⟩ | ⟨_, hmaximum, -⟩
    · cases hminimum
    · cases hmaximum
  · cases hvalue
    cases hnumber
    rcases hbounds with ⟨_, hminimum, hnone | hnone⟩ | ⟨_, hmaximum, hnone | hnone⟩
    · cases hminimum
      cases hnone
    · cases hnone
    · cases hnone
    · cases hmaximum
      cases hnone

end Sample

theorem verdict_exact_sample : ∃ result held',
    (validate Sample.scoring ["row-1", "row-2"] Sample.twoScores Sample.context).exec [] =
      (.ok result, held') ∧
    ExactVerdict Sample.runtime Sample.scoreRules ["row-1", "row-2"] Sample.twoScores result := by
  refine (@verdict_exact Sample.scoring Sample.context Sample.scoreRules ["row-1", "row-2"]
    Sample.twoScores [] rfl (by decide) ?_).2 ⟨by decide +kernel, ?_⟩
  · intro ids hids
    cases hids
    decide +kernel
  · intro record hrecord rule hrule hescapes
    rcases List.mem_pair.1 hrecord with rfl | rfl
    · exact absurd hescapes (Sample.scored_not_escapes _ _ _ rule hrule)
    · exact absurd hescapes (Sample.scored_not_escapes _ _ _ rule hrule)

/-- A score that is no number is accepted. -/
theorem nan_accepted : ¬∀ (ports : ValidationPorts) (context : ExecutionContext)
    (rules : ValidationRules) (inputIds : List String) (output : List ProviderRecord)
    (held : List ValidationMetadata),
    ports.registry.resolve context.configuration.validationRulesVersion = some rules →
    inputIds.Nodup →
    (∀ ids, outputIds ports.runtime rules output = .ok ids →
      ∀ text ∈ ids, (text.string?).isSome = true) →
    ∃ result held', (validate ports inputIds output context).exec held = (.ok result, held') ∧
      ExactVerdict ports.runtime rules inputIds output result := by
  intro h
  have hids : outputIds Sample.runtime Sample.scoreRules [Sample.scored "row-1" (.nan 0)] =
      .ok [CodeText.ofString "row-1"] := rfl
  have hencodable : ∀ text ∈ [CodeText.ofString "row-1"], (text.string?).isSome = true := by
    decide +kernel
  obtain ⟨result, held', hrun, hverdict⟩ := h Sample.scoring Sample.context Sample.scoreRules
    ["row-1"] [Sample.scored "row-1" (.nan 0)] [] rfl (List.nodup_singleton _) (by
      intro ids hfound
      cases hids.symm.trans hfound
      exact hencodable)
  obtain ⟨other, _, hother, hfinished⟩ := @validate_bound Sample.scoring [] ["row-1"]
    [Sample.scored "row-1" (.nan 0)] Sample.context Sample.scoreRules rfl _ hids hencodable
  rw [hother] at hrun
  cases hrun
  have haccepted : result.val.outcome.accepted = true := hfinished.accepted_iff.2 rfl
  have hholds := (hverdict.accepted.1 haccepted).fields _ (List.mem_singleton_self _)
    _ (List.mem_cons_of_mem _ (List.mem_singleton_self _))
  rcases ValueHolds.minimum hholds (.float (.nan 0)) rfl (.int 0) rfl with hless | hequal
  · cases hless
  · cases hequal

end AiRetrieval
