import AiRetrieval.Library.SortedKeys
import AiRetrieval.Sanity.PackVerdicts

/-! The verdict on all packs is made of the verdicts on each: it does not depend on the order in
which the outputs are given, and accepts every pack or returns no record. -/

namespace AiRetrieval

open Program DeterministicValidator TaskOutputValidator

section Verdicts

variable (ports : ValidationPorts) (prepared : PreparedTask) (context : ExecutionContext)

/-- The verdict on the output of one pack, which is the same whatever the sink holds. -/
def Verdict (pack : PackedRequest) (output : List ProviderRecord)
    (result : ValidatedOutput) : Prop :=
  ∀ held, ∃ returned held',
    (TaskOutputValidator.validate ports prepared pack output context).exec held =
      (.ok returned, held') ∧ ValidatedOutput.Same returned result

/-- The output of one pack is accepted on its own. -/
def AcceptedAlone (item : PackedRequest × List ProviderRecord) : Prop :=
  ∃ result, Verdict ports prepared context item.1 item.2 result ∧
    result.val.outcome.accepted = true

structure CombinedVerdict (outputs : List (PackedRequest × List ProviderRecord))
    (result : ValidatedOutput) (verdicts : List ValidatedOutput) : Prop where
  judged : List.Forall₂ (fun pack verdict => ∃ output, (pack, output) ∈ outputs ∧
    Verdict ports prepared context pack output verdict) prepared.val.packs verdicts
  each : ∀ item ∈ outputs, ∃ verdict ∈ verdicts,
    Verdict ports prepared context item.1 item.2 verdict
  accepted_iff : result.val.outcome.accepted = true ↔
    ∀ verdict ∈ verdicts, verdict.val.outcome.accepted = true
  records : result.val.outcome.accepted = true →
    result.val.acceptedRecords = verdicts.flatMap (·.val.acceptedRecords)
  identifiers : result.val.outcome.accepted = true → List.Forall₂ (fun row record =>
      record.lookup (CodeText.ofString "id") = some (.text (CodeText.ofString row.val.identifier)))
    prepared.val.invocation.val.rows result.val.acceptedRecords
  digests : result.val.outcome.accepted = true →
    result.val.outcome.inputIdentifierDigest = result.val.outcome.outputIdentifierDigest
  withheld : result.val.outcome.accepted = false → result.val.acceptedRecords = []
  failed : result.val.outcome.failedRuleIds =
    distinct (verdicts.flatMap (·.val.outcome.failedRuleIds))
  once : result.val.outcome.failedRuleIds.Nodup
  union : ∀ id, id ∈ result.val.outcome.failedRuleIds ↔
    ∃ verdict ∈ verdicts, id ∈ verdict.val.outcome.failedRuleIds

end Verdicts

section Order

variable {ports : ValidationPorts} {prepared : PreparedTask} {context : ExecutionContext}
  {outputs outputs' : List (PackedRequest × List ProviderRecord)}

def Placed (prepared : PreparedTask)
    (outputs : List (PackedRequest × List ProviderRecord)) : Prop :=
  (byPackIndex outputs).map (fun item => item.1.val.packIndex) =
    List.range prepared.val.packs.length

theorem byPackIndex_perm (outputs : List (PackedRequest × List ProviderRecord)) :
    (byPackIndex outputs).Perm outputs :=
  List.perm_insertionSort _ outputs

theorem placed_of_perm (h : outputs.Perm outputs') :
    Placed prepared outputs ↔ Placed prepared outputs' := by
  have hkeys : (byPackIndex outputs).map (fun item => item.1.val.packIndex) =
      (byPackIndex outputs').map fun item => item.1.val.packIndex :=
    SortedKeys.sorted_keys_of_perm h
  unfold Placed
  rw [hkeys]

theorem Placed.sorted_eq (hplaced : Placed prepared outputs) (h : outputs.Perm outputs') :
    byPackIndex outputs = byPackIndex outputs' := by
  refine SortedKeys.sorted_of_perm h ?_
  change ((byPackIndex outputs).map fun item => item.1.val.packIndex).Nodup
  rw [show (byPackIndex outputs).map (fun item => item.1.val.packIndex) = _ from hplaced]
  exact List.nodup_range

theorem validatePacks_unplaced (h : ¬Placed prepared outputs) (held : List ValidationMetadata) :
    (validatePacks ports prepared outputs context).exec held =
      (.error (.valueError "pack outputs must contain every prepared pack exactly once"),
        held) := by
  unfold Placed at h
  unfold validatePacks require
  dsimp only
  rw [if_neg h]
  rfl

theorem validatePacks_of_perm (h : outputs.Perm outputs') (held : List ValidationMetadata) :
    (validatePacks ports prepared outputs context).exec held =
      (validatePacks ports prepared outputs' context).exec held := by
  by_cases hplaced : Placed prepared outputs
  · unfold validatePacks
    rw [hplaced.sorted_eq h]
  · rw [validatePacks_unplaced hplaced,
      validatePacks_unplaced fun h' => hplaced ((placed_of_perm h).2 h')]

theorem places_from {definition : TaskDefinition} {index : Nat}
    {pairs : List (PackedRequest × ModelWork)}
    (h : PreparedTask.checkPacks definition index pairs = .ok ()) :
    pairs.map (fun pair => pair.1.val.packIndex) = List.range' index pairs.length := by
  induction pairs generalizing index with
  | nil => rfl
  | cons pair rest ih =>
    obtain ⟨pack, work⟩ := pair
    rw [PreparedTask.checkPacks, except_seq_eq_ok, PreparedTask.checkPack] at h
    simp only [except_seq_eq_ok, require_eq_ok] at h
    obtain ⟨⟨-, -, hindex, -⟩, hrest⟩ := h
    rw [List.map_cons, List.length_cons, List.range'_succ, ih hrest, hindex]

theorem prepared_some (prepared : PreparedTask) : prepared.val.packs ≠ [] := by
  have h := prepared.passed
  simp only [PreparedTask.postInit, except_seq_eq_ok, require_eq_ok] at h
  exact h.2.1

theorem prepared_places (prepared : PreparedTask) :
    prepared.val.packs.map (·.val.packIndex) = List.range prepared.val.packs.length ∧
      prepared.val.packs.flatMap (·.val.inputIds) =
        prepared.val.invocation.val.rows.map (·.val.identifier) := by
  have h := prepared.passed
  simp only [PreparedTask.postInit, except_seq_eq_ok, require_eq_ok] at h
  obtain ⟨-, -, hlength, hrows, hpacks⟩ := h
  have hplaces := places_from hpacks
  rw [List.length_zip, ← hlength, Nat.min_self, ← List.range_eq_range'] at hplaces
  refine ⟨?_, hrows⟩
  calc prepared.val.packs.map (·.val.packIndex)
      = ((prepared.val.packs.zip prepared.val.modelWork).map Prod.fst).map (·.val.packIndex) := by
        rw [List.map_fst_zip hlength.le]
    _ = List.range prepared.val.packs.length := by
        rw [List.map_map, ← hplaces]
        rfl

/-- The outputs that hold each prepared pack once are those whose packs, in order, are the
prepared ones. -/
theorem packs_eq_iff : (byPackIndex outputs).map Prod.fst = prepared.val.packs ↔
    (outputs.map Prod.fst).Perm prepared.val.packs := by
  have hperm : ((byPackIndex outputs).map Prod.fst).Perm (outputs.map Prod.fst) :=
    (byPackIndex_perm outputs).map Prod.fst
  constructor
  · intro h
    rw [← h]
    exact hperm.symm
  · intro h
    have hplaces := (prepared_places prepared).1
    have hordered : ((byPackIndex outputs).map Prod.fst).Pairwise
        fun a b => a.val.packIndex ≤ b.val.packIndex :=
      List.pairwise_map.2 (SortedKeys.sorted_ordered (fun item => item.1.val.packIndex) outputs)
    have hprepared : prepared.val.packs.Pairwise fun a b => a.val.packIndex ≤ b.val.packIndex := by
      rw [← List.pairwise_map (R := (· ≤ ·)), hplaces]
      exact List.pairwise_le_range
    refine (SortedKeys.eq_of_keys_nodup (hperm.trans h).symm hprepared hordered ?_).symm
    rw [hplaces]
    exact List.nodup_range

end Order

section Loop

variable {ports : ValidationPorts} {prepared : PreparedTask} {context : ExecutionContext}
  {pack : PackedRequest} {output : List ProviderRecord} {result : ValidatedOutput}
  {held held' : List ValidationMetadata}

theorem verdict_of_exec
    (h : (TaskOutputValidator.validate ports prepared pack output context).exec held =
      (.ok result, held')) : Verdict ports prepared context pack output result := by
  intro other
  have halike := @TaskOutputValidator.validate_alike ports prepared pack output context other held
  rw [h] at halike
  rcases hrun : (TaskOutputValidator.validate ports prepared pack output context).exec other with
    ⟨returned, other'⟩
  rw [hrun] at halike
  cases halike with
  | ok hsame => exact ⟨_, other', rfl, hsame⟩

theorem Verdict.identified (h : Verdict ports prepared context pack output result)
    (haccepted : result.val.outcome.accepted = true) :
    List.Forall₂ (fun identifier record =>
        record.lookup (CodeText.ofString "id") = some (.text (CodeText.ofString identifier)))
      pack.val.inputIds result.val.acceptedRecords := by
  obtain ⟨returned, held', hrun, hsame⟩ := h []
  rw [← hsame.1] at haccepted
  rw [← hsame.2]
  by_cases hpack : pack ∈ prepared.val.packs
  swap
  · obtain ⟨e, he⟩ := @validate_unknown ports prepared pack output context [] hpack
    rw [hrun] at he
    cases he
  rcases hbase : (DeterministicValidator.validate ports pack.val.inputIds output context).exec []
    with ⟨e | base, held''⟩
  · rw [validate_of_error hpack hbase] at hrun
    cases hrun
  · rw [validate_of_base hpack hbase] at hrun
    have hordered := (judge_accepted (congrArg Prod.fst hrun) haccepted).2
    exact (orderRecords_identified hordered).imp fun _ _ hidentified => hidentified.2

theorem validateEach_verdicts {items : List PackOutput} {verdicts : List ValidatedOutput}
    (h : (validateEach ports prepared context items).exec held = (.ok verdicts, held')) :
    List.Forall₂ (fun item verdict => item.2.1 = item.1 ∧
      Verdict ports prepared context item.2.1 item.2.2 verdict) items verdicts := by
  induction items generalizing held verdicts with
  | nil =>
    cases h
    exact List.Forall₂.nil
  | cons item rest ih =>
    obtain ⟨expected, pack, output⟩ := item
    unfold validateEach at h
    obtain ⟨_, t, hsame, h⟩ := bind_returns h
    obtain ⟨hchecked, rfl⟩ := Prod.mk.inj hsame
    replace hsame := require_eq_ok.1 hchecked
    obtain ⟨verdict, t, hverdict, h⟩ := bind_returns h
    obtain ⟨others, u, hothers, h⟩ := bind_returns h
    cases h
    exact List.Forall₂.cons ⟨hsame, verdict_of_exec hverdict⟩ (ih hothers)

theorem validateEach_returns {items : List PackOutput}
    (h : ∀ item ∈ items, item.2.1 = item.1 ∧
      ∃ verdict, Verdict ports prepared context item.2.1 item.2.2 verdict)
    (held : List ValidationMetadata) : ∃ verdicts held',
      (validateEach ports prepared context items).exec held = (.ok verdicts, held') := by
  induction items generalizing held with
  | nil => exact ⟨[], held, rfl⟩
  | cons item rest ih =>
    obtain ⟨expected, pack, output⟩ := item
    rw [List.forall_mem_cons] at h
    obtain ⟨⟨hsame, verdict, hverdict⟩, hrest⟩ := h
    obtain ⟨returned, t, hrun, -⟩ := hverdict held
    obtain ⟨others, u, hothers⟩ := ih hrest t
    refine ⟨returned :: others, u, ?_⟩
    unfold validateEach
    rw [require_of hsame]
    refine (exec_bind_of_ok rfl).trans ((exec_bind_of_ok hrun).trans ?_)
    exact (exec_bind_of_ok hothers).trans rfl

end Loop

section Combined

variable {ports : ValidationPorts} {prepared : PreparedTask} {context : ExecutionContext}
  {outputs : List (PackedRequest × List ProviderRecord)} {verdicts : List ValidatedOutput}
  {result : ValidatedOutput} {held held' : List ValidationMetadata}

/-- What follows the loop. -/
def combine (runtime : PythonRuntime) (prepared : PreparedTask) (verdicts : List ValidatedOutput) :
    Except PyError ValidatedOutput :=
  let outcomes := verdicts.map (·.val.outcome)
  if outcomes.any fun outcome => !outcome.accepted then do
    let outcome ← combinedOutcome runtime prepared outcomes false
    Checked.make ValidatedOutput.postInit { outcome := outcome }
  else do
    let outcome ← combinedOutcome runtime prepared outcomes true
    Checked.make ValidatedOutput.postInit {
      outcome := outcome
      acceptedRecords := (verdicts.filter (·.val.outcome.accepted)).flatMap (·.val.acceptedRecords)
      metadataRecorded := verdicts.all (·.val.metadataRecorded) }

theorem validatePacks_placed (h : Placed prepared outputs) (held : List ValidationMetadata) :
    (validatePacks ports prepared outputs context).exec held =
      match (validateEach ports prepared context
        (prepared.val.packs.zip (byPackIndex outputs))).exec held with
      | (.ok verdicts, t) => (combine ports.runtime prepared verdicts, t)
      | (.error e, t) => (.error e, t) := by
  have hchecked : require ((byPackIndex outputs).map (fun item => item.1.val.packIndex) =
      List.range prepared.val.packs.length)
      (PyError.valueError "pack outputs must contain every prepared pack exactly once") = .ok () :=
    require_of h
  unfold validatePacks
  dsimp only
  rw [hchecked]
  refine (exec_bind_of_ok rfl).trans ?_
  rw [exec_bind]
  rcases (validateEach ports prepared context
    (prepared.val.packs.zip (byPackIndex outputs))).exec held with ⟨e | verdicts, t⟩
  · rfl
  simp only
  unfold combine
  dsimp only
  split
  · cases combinedOutcome ports.runtime prepared (verdicts.map (·.val.outcome)) false <;> rfl
  · cases combinedOutcome ports.runtime prepared (verdicts.map (·.val.outcome)) true <;> rfl

theorem combinedOutputDigest_returns (runtime : PythonRuntime)
    (outcomes : List DeterministicOutcome) :
    ∃ digest, combinedOutputDigest runtime outcomes = .ok digest := by
  have hencodable := JsonValue.render_encodable_iff runtime.numberText_clean
    (.array ((outcomes.map fun outcome =>
      CodeText.ofString outcome.outputIdentifierDigest).map JsonValue.text))
  rw [JsonValue.Encodable, JsonValue.encodableItems_texts, List.map_map] at hencodable
  have htexts : ∀ text ∈ outcomes.map fun outcome =>
      CodeText.ofString outcome.outputIdentifierDigest, (text.string?).isSome = true := by
    intro text htext
    obtain ⟨outcome, -, rfl⟩ := List.mem_map.1 htext
    rw [CodeText.string?_ofString]
    rfl
  obtain ⟨encoded, hencoded⟩ := Option.isSome_iff_exists.1 (hencodable.2 htexts)
  refine ⟨runtime.sha256 (encodeUtf8 encoded), ?_⟩
  have hbytes : encodeText ((JsonValue.array (outcomes.map fun outcome =>
      JsonValue.text (CodeText.ofString outcome.outputIdentifierDigest))).render
        runtime.numberText) = .ok (encodeUtf8 encoded) := by
    rw [encodeText, show (outcomes.map fun outcome => JsonValue.text
      (CodeText.ofString outcome.outputIdentifierDigest)) = outcomes.map (JsonValue.text ∘
        fun outcome => CodeText.ofString outcome.outputIdentifierDigest) from rfl, hencoded]
  unfold combinedOutputDigest
  dsimp only
  rw [hbytes]
  rfl

theorem combinedOutcome_returns (hsome : verdicts ≠ []) (accepted : Bool) :
    ∃ outcome, combinedOutcome ports.runtime prepared (verdicts.map (·.val.outcome)) accepted =
        .ok outcome ∧ outcome.accepted = accepted ∧
      outcome.failedRuleIds = distinct (verdicts.flatMap (·.val.outcome.failedRuleIds)) ∧
      (accepted = true → outcome.inputIdentifierDigest = outcome.outputIdentifierDigest) := by
  obtain ⟨first, rest, rfl⟩ := List.exists_cons_of_ne_nil hsome
  obtain ⟨inputDigest, hinput⟩ := inputDigest_returns ports.runtime
    (prepared.val.packs.flatMap (·.val.inputIds))
  obtain ⟨outputDigest, houtput⟩ := combinedOutputDigest_returns ports.runtime
    ((first :: rest).map (·.val.outcome))
  have hfailed : distinct (((first :: rest).map (·.val.outcome)).flatMap (·.failedRuleIds)) =
      distinct ((first :: rest).flatMap (·.val.outcome.failedRuleIds)) := by
    rw [List.flatMap_map]
  rw [List.map_cons] at houtput hfailed ⊢
  unfold combinedOutcome
  dsimp only
  rw [hinput]
  cases accepted with
  | true => exact ⟨_, rfl, rfl, hfailed, fun _ => rfl⟩
  | false =>
    rw [houtput]
    exact ⟨_, rfl, rfl, hfailed, fun h => by cases h⟩

/-- What becomes of the verdicts on the packs. -/
theorem combine_verdicts (hsome : verdicts ≠ []) :
    ∃ result, combine ports.runtime prepared verdicts = .ok result ∧
      (result.val.outcome.accepted = true ↔
        ∀ verdict ∈ verdicts, verdict.val.outcome.accepted = true) ∧
      (result.val.outcome.accepted = true →
        result.val.acceptedRecords = verdicts.flatMap (·.val.acceptedRecords) ∧
        result.val.outcome.inputIdentifierDigest = result.val.outcome.outputIdentifierDigest) ∧
      (result.val.outcome.accepted = false → result.val.acceptedRecords = []) ∧
      result.val.outcome.failedRuleIds =
        distinct (verdicts.flatMap (·.val.outcome.failedRuleIds)) := by
  by_cases hall : ∀ verdict ∈ verdicts, verdict.val.outcome.accepted = true
  · obtain ⟨outcome, houtcome, haccepted, hfailed, hdigests⟩ :=
      @combinedOutcome_returns ports prepared verdicts hsome true
    have hany : ((verdicts.map (·.val.outcome)).any fun outcome => !outcome.accepted) = false := by
      rw [List.any_eq_false]
      intro outcome hmem
      obtain ⟨verdict, hverdict, rfl⟩ := List.mem_map.1 hmem
      simp [hall verdict hverdict]
    have hkept : verdicts.filter (·.val.outcome.accepted) = verdicts := List.filter_eq_self.2 hall
    obtain ⟨result, hresult, hfields⟩ := make_returns {
      outcome := outcome
      acceptedRecords := verdicts.flatMap (·.val.acceptedRecords)
      metadataRecorded := verdicts.all (·.val.metadataRecorded) } (Or.inl haccepted)
    refine ⟨result, ?_, ?_⟩
    · unfold combine
      dsimp only
      rw [hany, houtcome, hkept]
      exact hresult
    · rw [hfields]
      exact ⟨iff_of_true haccepted hall, fun _ => ⟨rfl, hdigests rfl⟩,
        fun h => (by cases haccepted.symm.trans h), hfailed⟩
  · obtain ⟨outcome, houtcome, haccepted, hfailed, -⟩ :=
      @combinedOutcome_returns ports prepared verdicts hsome false
    have hany : ((verdicts.map (·.val.outcome)).any fun outcome => !outcome.accepted) = true := by
      rw [List.any_eq_true]
      by_contra hnone
      refine hall fun verdict hverdict => ?_
      by_contra hrejected
      exact hnone ⟨_, List.mem_map_of_mem hverdict, by simp [hrejected]⟩
    obtain ⟨result, hresult, hfields⟩ := make_returns { outcome := outcome } (Or.inr rfl)
    refine ⟨result, ?_, ?_⟩
    · unfold combine
      dsimp only
      rw [hany, houtcome]
      exact hresult
    · rw [hfields]
      exact ⟨iff_of_false (by rw [haccepted]; simp) hall,
        fun h => (by cases haccepted.symm.trans h), fun _ => rfl, hfailed⟩

theorem identifiers_flatMap {packs : List PackedRequest}
    (h : List.Forall₂ (fun pack verdict => List.Forall₂ (fun identifier record =>
        record.lookup (CodeText.ofString "id") = some (.text (CodeText.ofString identifier)))
      pack.val.inputIds verdict.val.acceptedRecords) packs verdicts) :
    List.Forall₂ (fun identifier record =>
        record.lookup (CodeText.ofString "id") = some (.text (CodeText.ofString identifier)))
      (packs.flatMap (·.val.inputIds)) (verdicts.flatMap (·.val.acceptedRecords)) := by
  induction h with
  | nil => exact List.Forall₂.nil
  | cons hfirst _ ih =>
    rw [List.flatMap_cons, List.flatMap_cons]
    exact List.rel_append hfirst ih

theorem Placed.zip_snd (h : Placed prepared outputs) :
    (prepared.val.packs.zip (byPackIndex outputs)).map Prod.snd = byPackIndex outputs ∧
      (prepared.val.packs.zip (byPackIndex outputs)).map Prod.fst = prepared.val.packs := by
  have hlength : (byPackIndex outputs).length = prepared.val.packs.length := by
    have hlength := congrArg List.length h
    rwa [List.length_map, List.length_range] at hlength
  exact ⟨List.map_snd_zip hlength.le, List.map_fst_zip hlength.ge⟩

theorem returned_packs {items : List PackOutput}
    (h : List.Forall₂ (fun item verdict => item.2.1 = item.1 ∧
      Verdict ports prepared context item.2.1 item.2.2 verdict) items verdicts) :
    items.map (fun item => item.2.1) = items.map Prod.fst := by
  induction h with
  | nil => rfl
  | cons hfirst _ ih => rw [List.map_cons, List.map_cons, ih, hfirst.1]

theorem returned_judged {items : List PackOutput} (hgiven : ∀ item ∈ items, item.2 ∈ outputs)
    (h : List.Forall₂ (fun item verdict => item.2.1 = item.1 ∧
      Verdict ports prepared context item.2.1 item.2.2 verdict) items verdicts) :
    List.Forall₂ (fun pack verdict => ∃ output, (pack, output) ∈ outputs ∧
      Verdict ports prepared context pack output verdict) (items.map Prod.fst) verdicts := by
  induction h with
  | nil => exact List.Forall₂.nil
  | @cons item verdict rest others hfirst hrest ih =>
    obtain ⟨hsame, hverdict⟩ := hfirst
    rw [List.forall_mem_cons] at hgiven
    rw [List.map_cons, ← hsame]
    exact List.Forall₂.cons ⟨item.2.2, hgiven.1, hverdict⟩ (ih hgiven.2)

theorem Verdict.same {pack : PackedRequest} {output : List ProviderRecord}
    {verdict other : ValidatedOutput} (h : Verdict ports prepared context pack output verdict)
    (h' : Verdict ports prepared context pack output other) :
    verdict.val.outcome = other.val.outcome := by
  obtain ⟨returned, t, hrun, hsame⟩ := h []
  obtain ⟨returned', t', hrun', hsame'⟩ := h' []
  rw [hrun] at hrun'
  cases hrun'
  exact hsame.1.symm.trans hsame'.1

theorem returned_accepted {items : List PackOutput}
    (h : List.Forall₂ (fun item verdict => item.2.1 = item.1 ∧
      Verdict ports prepared context item.2.1 item.2.2 verdict) items verdicts)
    (hall : ∀ item ∈ items.map Prod.snd, AcceptedAlone ports prepared context item) :
    ∀ verdict ∈ verdicts, verdict.val.outcome.accepted = true := by
  induction h with
  | nil => exact fun _ h => (by cases h)
  | cons hfirst _ ih =>
    rw [List.map_cons, List.forall_mem_cons] at hall
    rw [List.forall_mem_cons]
    obtain ⟨⟨other, hother, haccepted⟩, hrest⟩ := hall
    exact ⟨by rw [hfirst.2.same hother]; exact haccepted, ih hrest⟩

theorem returned_each {items : List PackOutput}
    (h : List.Forall₂ (fun item verdict => item.2.1 = item.1 ∧
      Verdict ports prepared context item.2.1 item.2.2 verdict) items verdicts) :
    ∀ item ∈ items.map Prod.snd, ∃ verdict ∈ verdicts,
      Verdict ports prepared context item.1 item.2 verdict := by
  induction h with
  | nil => exact fun _ h => (by cases h)
  | cons hfirst _ ih =>
    rw [List.map_cons, List.forall_mem_cons]
    refine ⟨⟨_, List.mem_cons_self .., hfirst.2⟩, fun item hitem => ?_⟩
    obtain ⟨verdict, hmem, hverdict⟩ := ih item hitem
    exact ⟨verdict, List.mem_cons_of_mem _ hmem, hverdict⟩

theorem validatePacks_returned
    (h : (validatePacks ports prepared outputs context).exec held = (.ok result, held')) :
    (outputs.map Prod.fst).Perm prepared.val.packs ∧
      ∃ verdicts, CombinedVerdict ports prepared context outputs result verdicts := by
  by_cases hplaced : Placed prepared outputs
  swap
  · rw [validatePacks_unplaced hplaced] at h
    cases h
  rw [validatePacks_placed hplaced] at h
  rcases hloop : (validateEach ports prepared context
    (prepared.val.packs.zip (byPackIndex outputs))).exec held with ⟨e | verdicts, t⟩
  · rw [hloop] at h
    cases h
  rw [hloop] at h
  have hverdicts := validateEach_verdicts hloop
  obtain ⟨hgiven, hprepared⟩ := hplaced.zip_snd
  have hpacks : (byPackIndex outputs).map Prod.fst = prepared.val.packs := by
    rw [← hgiven, List.map_map, ← hprepared]
    have hreturned := returned_packs hverdicts
    rw [hprepared] at hreturned ⊢
    exact hreturned
  have hmembers : ∀ item ∈ prepared.val.packs.zip (byPackIndex outputs), item.2 ∈ outputs :=
    fun item hitem => (byPackIndex_perm outputs).mem_iff.1 (List.of_mem_zip hitem).2
  have hjudged := returned_judged hmembers hverdicts
  rw [hprepared] at hjudged
  have hsome : verdicts ≠ [] := by
    rintro rfl
    exact prepared_some prepared (List.forall₂_nil_right_iff.1 hjudged)
  have heach := returned_each hverdicts
  rw [hgiven] at heach
  obtain ⟨combined, hcombined, haccepted, hrecords, hwithheld, hfailed⟩ :=
    @combine_verdicts ports prepared verdicts hsome
  simp only [hcombined] at h
  cases h
  refine ⟨packs_eq_iff.1 hpacks, verdicts, hjudged,
    fun item hitem => heach item ((byPackIndex_perm outputs).mem_iff.2 hitem), haccepted, fun h =>
      (hrecords h).1, ?_,
    fun h => (hrecords h).2, hwithheld, hfailed, ?_, ?_⟩
  · intro hresult
    have hidentified := identifiers_flatMap
      (List.forall₂_iff_zip.2 ⟨hjudged.length_eq, fun hpair => by
      obtain ⟨output, -, hverdict⟩ := (List.forall₂_iff_zip.1 hjudged).2 hpair
      exact hverdict.identified (haccepted.1 hresult _ (List.of_mem_zip hpair).2)⟩)
    rw [(prepared_places prepared).2, List.forall₂_map_left_iff] at hidentified
    rw [(hrecords hresult).1]
    exact hidentified
  · rw [hfailed]
    exact distinct_nodup _
  · intro id
    rw [hfailed, mem_distinct, List.mem_flatMap]

theorem validatePacks_accepts (hpacks : (outputs.map Prod.fst).Perm prepared.val.packs)
    (hall : ∀ item ∈ outputs, AcceptedAlone ports prepared context item)
    (held : List ValidationMetadata) :
    Returns (fun result _ => result.val.outcome.accepted = true)
      (validatePacks ports prepared outputs context) held := by
  have hordered := packs_eq_iff.2 hpacks
  have hplaced : Placed prepared outputs := by
    unfold Placed
    rw [← (prepared_places prepared).1, ← hordered, List.map_map]
    rfl
  obtain ⟨hgiven, hprepared⟩ := hplaced.zip_snd
  have hsame : ∀ item ∈ prepared.val.packs.zip (byPackIndex outputs), item.2.1 = item.1 := by
    have heq : (prepared.val.packs.zip (byPackIndex outputs)).map (fun item => item.2.1) =
        (prepared.val.packs.zip (byPackIndex outputs)).map Prod.fst := by
      have hfirst := congrArg (List.map Prod.fst) hgiven
      rw [List.map_map, hordered] at hfirst
      rw [hprepared]
      exact hfirst
    exact List.map_inj_left.1 heq
  have heach : ∀ item ∈ prepared.val.packs.zip (byPackIndex outputs), item.2.1 = item.1 ∧
      ∃ verdict, Verdict ports prepared context item.2.1 item.2.2 verdict := by
    intro item hitem
    obtain ⟨verdict, hverdict, -⟩ := hall item.2
      ((byPackIndex_perm outputs).mem_iff.1 (List.of_mem_zip hitem).2)
    exact ⟨hsame item hitem, verdict, hverdict⟩
  obtain ⟨verdicts, held', hloop⟩ := validateEach_returns heach held
  have hverdicts := validateEach_verdicts hloop
  have hsome : verdicts ≠ [] := by
    rintro rfl
    have hnone := List.forall₂_nil_right_iff.1 hverdicts
    rw [hnone] at hprepared
    exact prepared_some prepared hprepared.symm
  obtain ⟨result, hresult, haccepted, -⟩ := @combine_verdicts ports prepared verdicts hsome
  refine ⟨result, held', ?_, haccepted.2 fun verdict hmem => ?_⟩
  · rw [validatePacks_placed hplaced, hloop]
    simp only [hresult]
  · refine returned_accepted hverdicts (fun item hitem => hall item ?_) verdict hmem
    rw [hgiven] at hitem
    exact (byPackIndex_perm outputs).mem_iff.1 hitem

/-- The validation of all packs does not depend on their order, raises unless each prepared pack
is there once, accepts exactly where each pack is accepted on its own, and returns the verdict
combined of theirs. -/
theorem packs_all_or_nothing (ports : ValidationPorts) (prepared : PreparedTask)
    (context : ExecutionContext) (outputs : List (PackedRequest × List ProviderRecord)) :
    (∀ outputs', outputs.Perm outputs' → ∀ held,
      (validatePacks ports prepared outputs context).exec held =
        (validatePacks ports prepared outputs' context).exec held) ∧
    (¬(outputs.map Prod.fst).Perm prepared.val.packs → ∀ held,
      Raises (validatePacks ports prepared outputs context) held) ∧
    (∀ held, Returns (fun result _ => result.val.outcome.accepted = true)
        (validatePacks ports prepared outputs context) held ↔
      (outputs.map Prod.fst).Perm prepared.val.packs ∧
        ∀ item ∈ outputs, AcceptedAlone ports prepared context item) ∧
    ∀ held result held', (validatePacks ports prepared outputs context).exec held =
        (.ok result, held') →
      ∃ verdicts, CombinedVerdict ports prepared context outputs result verdicts := by
  refine ⟨fun outputs' h held => validatePacks_of_perm h held, fun hpacks held => ?_,
    fun held => ⟨?_, fun h => validatePacks_accepts h.1 h.2 held⟩,
    fun held result held' h => (validatePacks_returned h).2⟩
  · rcases hrun : (validatePacks ports prepared outputs context).exec held with ⟨e | result, held'⟩
    · exact ⟨e, held', hrun⟩
    · exact absurd (validatePacks_returned hrun).1 hpacks
  · rintro ⟨result, held', hrun, haccepted⟩
    obtain ⟨hpacks, verdicts, hcombined⟩ := validatePacks_returned hrun
    refine ⟨hpacks, fun item hitem => ?_⟩
    obtain ⟨verdict, hmem, hverdict⟩ := hcombined.each item hitem
    exact ⟨verdict, hverdict, hcombined.accepted_iff.1 haccepted verdict hmem⟩

end Combined

end AiRetrieval
