import AiRetrieval.Proofs.EscapingOutput
import AiRetrieval.Sanity.PackVerdicts

/-! The evidence of a validation is recorded before the rules of the task are checked: it matches
the decision exactly where these accept what the deterministic rules accepted. -/

namespace AiRetrieval

open Program DeterministicValidator TaskOutputValidator

section Runs

/-- The validation of a pack: how it ended and what it handed to the sink. -/
structure PackRun where
  ended : Except PyError ValidatedOutput
  recorded : List ValidationMetadata

def packRun (x : Validating ValidatedOutput) (held : List ValidationMetadata) : PackRun :=
  ⟨(x.exec held).1, (x.after held).drop held.length⟩

/-- The evidence of a run matches its decision: it says that the output is accepted only where
it is, and has the status and the failed rules of the result. -/
structure PackRun.Matches (run : PackRun) : Prop where
  accepted : ∀ metadata ∈ run.recorded, metadata.outcome = .accepted →
    ∃ result, run.ended = .ok result ∧ result.val.outcome.accepted = true
  returned : ∀ metadata ∈ run.recorded, ∀ result, run.ended = .ok result →
    metadata.outcome = result.val.outcome.status ∧
      metadata.failedRuleIds = result.val.outcome.failedRuleIds

variable (ports : ValidationPorts) (prepared : PreparedTask) (context : ExecutionContext)

def loopRuns : List PackOutput → List ValidationMetadata → List PackRun
  | [], _ => []
  | (expected, pack, output) :: rest, held =>
    if pack = expected then
      let x := TaskOutputValidator.validate ports prepared pack output context
      packRun x held :: match x.exec held with
        | (.ok _, held') => loopRuns rest held'
        | (.error _, _) => []
    else []

def packOutputs (outputs : List (PackedRequest × List ProviderRecord)) : List PackOutput :=
  if (byPackIndex outputs).map (fun item => item.1.val.packIndex) =
    List.range prepared.val.packs.length then prepared.val.packs.zip (byPackIndex outputs) else []

def packRuns (outputs : List (PackedRequest × List ProviderRecord))
    (held : List ValidationMetadata) : List PackRun :=
  loopRuns ports prepared context (packOutputs prepared outputs) held

def Agrees (pack : PackedRequest) (output : List ProviderRecord) : Prop :=
  pack ∈ prepared.val.packs → ∀ rules, Bound ports context rules →
    Obeys ports.runtime rules pack.val.inputIds output →
      TaskAccepts prepared pack.val.inputIds
        (output.map StructuredOutputParser.frozenRecord)

/-- Each output that is validated in turn agrees: those before a pack that was not prepared or
one whose identifiers cannot be written or encoded. -/
def LoopAgrees : List PackOutput → Prop
  | [] => True
  | (expected, pack, output) :: rest => pack = expected →
    Agrees ports prepared context pack output ∧
      ((∀ rules, Bound ports context rules → Named ports.runtime rules output) → LoopAgrees rest)

end Runs

section Single

variable {ports : ValidationPorts} {prepared : PreparedTask} {pack : PackedRequest}
  {output : List ProviderRecord} {context : ExecutionContext} {held : List ValidationMetadata}

theorem matches_nothing {ended : Except PyError ValidatedOutput} : (PackRun.mk ended []).Matches :=
  ⟨fun _ h => (by cases h), fun _ h => (by cases h)⟩

theorem noted_recording (hsink : ∀ held metadata, ports.sinkRecords held metadata = true)
    (outcome : DeterministicOutcome) : noted ports held outcome = held ++ [outcome.evidence] := by
  unfold noted
  rw [hsink, if_pos rfl]

theorem evidence_matches_iff {base : ValidatedOutput} (hconsistent : base.val.outcome.Consistent) :
    (PackRun.mk (judge prepared pack base) [base.val.outcome.evidence]).Matches ↔
      (base.val.outcome.accepted = true →
        TaskAccepts prepared pack.val.inputIds base.val.acceptedRecords) := by
  constructor
  · intro h haccepted
    rw [← judge_accepted_iff haccepted]
    exact h.accepted _ (List.mem_singleton_self _) (hconsistent.status.2 haccepted)
  · intro h
    by_cases haccepted : base.val.outcome.accepted = true
    · obtain ⟨result, hresult, hkept⟩ := (judge_accepted_iff haccepted).2 (h haccepted)
      have houtcome := (judge_accepted hresult hkept).1
      rw [hresult]
      refine ⟨fun _ _ _ => ⟨result, rfl, hkept⟩, ?_⟩
      intro metadata hmetadata other hother
      cases hother
      rw [List.mem_singleton.1 hmetadata, ← houtcome]
      exact ⟨rfl, rfl⟩
    · rw [judge_rejected (Bool.not_eq_true _ ▸ haccepted)]
      constructor
      · intro metadata hmetadata hstatus
        rw [List.mem_singleton.1 hmetadata] at hstatus
        exact absurd (hconsistent.status.1 hstatus) haccepted
      · intro metadata hmetadata other hother
        cases hother
        rw [List.mem_singleton.1 hmetadata]
        exact ⟨rfl, rfl⟩

theorem packRun_matches_iff (hsink : ∀ held metadata, ports.sinkRecords held metadata = true) :
    (packRun (TaskOutputValidator.validate ports prepared pack output context) held).Matches ↔
      Agrees ports prepared context pack output := by
  unfold packRun Program.after
  by_cases hpack : pack ∈ prepared.val.packs
  swap
  · obtain ⟨e, he⟩ := @validate_unknown ports prepared pack output context held hpack
    rw [he, List.drop_length]
    exact iff_of_true matches_nothing fun h => absurd h hpack
  have hunique {rules other : ValidationRules} (h : Bound ports context rules)
      (h' : Bound ports context other) : rules = other := Option.some.inj (h.symm.trans h')
  rcases @DeterministicValidator.validate_notes ports pack.val.inputIds output context held
    with ⟨base, hbase, hconsistent⟩ | ⟨e, he⟩
  · rw [validate_of_base hpack hbase, noted_recording hsink, List.drop_left,
      evidence_matches_iff hconsistent]
    constructor
    · intro h _ rules hbound hobeys
      obtain ⟨other, _, hother, haccepted⟩ := @DeterministicValidator.validate_obeys ports _ output
        context held rules hbound hobeys
      rw [hbase] at hother
      cases hother
      rw [← (DeterministicValidator.validate_accepted hbase haccepted).2]
      exact h haccepted
    · intro h haccepted
      obtain ⟨⟨rules, hbound, hobeys⟩, hrecords⟩ :=
        DeterministicValidator.validate_accepted hbase haccepted
      rw [hrecords]
      exact h hpack rules hbound hobeys
  · rw [validate_of_error hpack he, List.drop_length]
    refine iff_of_true matches_nothing fun _ rules hbound hobeys => ?_
    obtain ⟨other, _, hother, -⟩ := @DeterministicValidator.validate_obeys ports _ output
      context held rules hbound hobeys
    rw [he] at hother
    cases hother

/-- A validation that agrees ends where the identifiers of the output can be written and
encoded. -/
theorem validate_returns_iff (hpack : pack ∈ prepared.val.packs)
    (hagrees : Agrees ports prepared context pack output) :
    (∃ result held', (TaskOutputValidator.validate ports prepared pack output context).exec held =
      (.ok result, held')) ↔
        ∀ rules, Bound ports context rules → Named ports.runtime rules output := by
  constructor
  · rintro ⟨result, held', hrun⟩ rules hbound
    by_contra hnamed
    obtain ⟨e, _, he⟩ := @validate_raises ports held pack.val.inputIds output context rules hbound
      hnamed
    rw [validate_of_error hpack he] at hrun
    cases hrun
  · intro hnamed
    have hbase : ∃ base held',
        (DeterministicValidator.validate ports pack.val.inputIds output context).exec held =
          (.ok base, held') := by
      cases hbound : ports.registry.resolve context.configuration.validationRulesVersion with
      | none =>
        obtain ⟨base, held', hbase, -⟩ := @validate_unbound ports held pack.val.inputIds output
          context hbound
        exact ⟨base, held', hbase⟩
      | some rules =>
        obtain ⟨ids, hids, hencodable⟩ := hnamed rules hbound
        obtain ⟨base, held', hbase, -⟩ := @validate_bound ports held pack.val.inputIds output
          context rules hbound ids hids hencodable
        exact ⟨base, held', hbase⟩
    obtain ⟨base, held', hbase⟩ := hbase
    rw [validate_of_base hpack hbase]
    by_cases haccepted : base.val.outcome.accepted = true
    · obtain ⟨⟨rules, hbound, hobeys⟩, hrecords⟩ :=
        DeterministicValidator.validate_accepted hbase haccepted
      have haccepts := hagrees hpack rules hbound hobeys
      rw [← hrecords] at haccepts
      obtain ⟨result, hresult, -⟩ := (judge_accepted_iff haccepted).2 haccepts
      exact ⟨result, held', by rw [hresult]⟩
    · exact ⟨base, held', by rw [judge_rejected (Bool.not_eq_true _ ▸ haccepted)]⟩

theorem validate_recorded :
    (TaskOutputValidator.validate ports prepared pack output context).after held =
      held ++ (packRun (TaskOutputValidator.validate ports prepared pack output context)
        held).recorded := by
  have hbegins : held <+:
    (TaskOutputValidator.validate ports prepared pack output context).after held := by
    unfold Program.after
    by_cases hpack : pack ∈ prepared.val.packs
    · rcases @DeterministicValidator.validate_notes ports pack.val.inputIds output context held with
        ⟨base, hbase, -⟩ | ⟨e, he⟩
      · rw [validate_of_base hpack hbase]
        unfold noted
        split
        · exact List.prefix_append _ _
        · exact List.prefix_refl _
      · rewrite [validate_of_error hpack he]
        exact List.prefix_refl _
    · obtain ⟨e, he⟩ := @validate_unknown ports prepared pack output context held hpack
      rewrite [he]
      exact List.prefix_refl _
  exact (List.prefix_iff_eq_append.1 hbegins).symm

end Single

section Packs

variable {ports : ValidationPorts} {prepared : PreparedTask} {context : ExecutionContext}

theorem validateEach_after (l : List PackOutput) (held : List ValidationMetadata) :
    (validateEach ports prepared context l).after held =
      held ++ (loopRuns ports prepared context l held).flatMap PackRun.recorded := by
  induction l generalizing held with
  | nil => exact (List.append_nil held).symm
  | cons item rest ih =>
    obtain ⟨expected, pack, output⟩ := item
    unfold validateEach loopRuns require
    have hrecorded := @validate_recorded ports prepared pack output context held
    split
    · unfold Program.after at hrecorded ⊢
      rw [exec_bind_of_ok (exec_liftExcept (Except.ok ()) held)]
      rcases hrun : (TaskOutputValidator.validate ports prepared pack output context).exec held with
        ⟨e | result, held'⟩
      · rw [hrun] at hrecorded
        dsimp only
        rw [exec_bind_of_error hrun, hrun, List.flatMap_cons, List.flatMap_nil, List.append_nil]
        exact hrecorded
      · rw [hrun] at hrecorded
        have hstill : ∀ validated : List ValidatedOutput,
            Moves Eq (pure (result :: validated) : Validating (List ValidatedOutput)) :=
          fun _ => moves_pure _
        have hrest := after_bind_of_still (x :=
          validateEach ports prepared context rest) hstill held'
        dsimp only
        rw [exec_bind_of_ok hrun, hrun, List.flatMap_cons, ← List.append_assoc, ← hrecorded]
        exact hrest.trans (ih held')
    · exact (List.append_nil held).symm

theorem validatePacks_after (outputs : List (PackedRequest × List ProviderRecord))
    (held : List ValidationMetadata) :
    (validatePacks ports prepared outputs context).after held =
      held ++ (packRuns ports prepared context outputs held).flatMap PackRun.recorded := by
  unfold validatePacks packRuns packOutputs require
  dsimp only
  split
  · have hchecked (x : Validating ValidatedOutput) :
        (do (liftM (Except.ok () : Except PyError Unit) : Validating Unit); x).after held =
          x.after held := rfl
    rw [hchecked]
    refine Eq.trans ?_ (validateEach_after _ held)
    refine after_bind_of_still (fun validated => ?_) held
    refine moves_ite ?_ ?_
    · exact moves_bind (moves_lift _) fun _ => moves_lift _
    · exact moves_bind (moves_lift _) fun _ => moves_lift _
  · exact (List.append_nil held).symm

theorem loopRuns_match_iff (hsink : ∀ held metadata, ports.sinkRecords held metadata = true)
    (l : List PackOutput) (hprepared : ∀ item ∈ l, item.1 ∈ prepared.val.packs)
    (held : List ValidationMetadata) :
    (∀ run ∈ loopRuns ports prepared context l held, run.Matches) ↔
      LoopAgrees ports prepared context l := by
  induction l generalizing held with
  | nil => exact iff_of_true (fun _ h => (by cases h)) trivial
  | cons item rest ih =>
    obtain ⟨expected, pack, output⟩ := item
    rw [List.forall_mem_cons] at hprepared
    unfold loopRuns LoopAgrees
    split
    · next hsame =>
      subst hsame
      rw [List.forall_mem_cons, packRun_matches_iff hsink]
      refine Iff.trans (and_congr_right fun hagrees => ?_) ⟨fun h _ => h, fun h => h rfl⟩
      have hreturns := @validate_returns_iff ports prepared pack output context held
        hprepared.1 hagrees
      rcases hrun : (TaskOutputValidator.validate ports prepared pack output context).exec held with
        ⟨e | result, held'⟩
      · refine iff_of_true (fun _ h => (by cases h)) fun hnamed => ?_
        obtain ⟨result, _, hresult⟩ := hreturns.2 hnamed
        rw [hrun] at hresult
        cases hresult
      · rw [ih hprepared.2 held', forall_prop_of_true (hreturns.1 ⟨result, held', hrun⟩)]
    · next hother => exact iff_of_true (fun _ h => (by cases h)) fun h => absurd h hother

/-- The evidence of a pack matches its decision exactly where the output agrees, and the evidence
of all packs where each output that is validated in turn agrees. -/
theorem evidence_matches (hsink : ∀ held metadata, ports.sinkRecords held metadata = true) :
    (∀ pack output held,
      (TaskOutputValidator.validate ports prepared pack output context).after held = held ++
        (packRun (TaskOutputValidator.validate ports prepared pack output context) held).recorded ∧
      ((packRun (TaskOutputValidator.validate ports prepared pack output context) held).Matches ↔
        Agrees ports prepared context pack output)) ∧
    ∀ outputs held,
      (validatePacks ports prepared outputs context).after held = held ++
        (packRuns ports prepared context outputs held).flatMap PackRun.recorded ∧
      ((∀ run ∈ packRuns ports prepared context outputs held, run.Matches) ↔
        LoopAgrees ports prepared context (packOutputs prepared outputs)) := by
  refine ⟨fun pack output held => ⟨validate_recorded, packRun_matches_iff hsink⟩,
    fun outputs held => ⟨validatePacks_after outputs held, ?_⟩⟩
  refine loopRuns_match_iff hsink _ (fun item hitem => ?_) held
  unfold packOutputs at hitem
  split at hitem
  · exact (List.of_mem_zip hitem).1
  · cases hitem

end Packs

namespace Sample

def mislabelled : ProviderRecord :=
  [(CodeText.ofString "id", .text (CodeText.ofString "row-1")),
    (CodeText.ofString "label", .text (CodeText.ofString "ugly"))]

end Sample

theorem evidence_matches_sample :
    (packRun (TaskOutputValidator.validate Sample.validation Sample.prepared Sample.pack
      [Sample.mislabelled] Sample.context) []).Matches ↔
    Agrees Sample.validation Sample.prepared Sample.context Sample.pack [Sample.mislabelled] :=
  ((@evidence_matches Sample.validation Sample.prepared Sample.context fun _ _ => rfl).1
    Sample.pack [Sample.mislabelled] []).2

/-- The evidence says that the output is accepted, the result that it is not. -/
theorem mislabelled_accepted : ¬∀ (ports : ValidationPorts) (prepared : PreparedTask)
    (pack : PackedRequest) (output : List ProviderRecord) (context : ExecutionContext)
    (held : List ValidationMetadata), (∀ held metadata, ports.sinkRecords held metadata = true) →
    (packRun (TaskOutputValidator.validate ports prepared pack output context) held).Matches := by
  intro h
  have hagrees := (packRun_matches_iff fun _ _ => rfl).1 (h Sample.validation Sample.prepared
    Sample.pack [Sample.mislabelled] Sample.context [] fun _ _ => rfl)
  have hobeys : Obeys Sample.runtime Sample.rules ["row-1"] [Sample.mislabelled] :=
    (failures_eq_nil_iff rfl).1 rfl
  have hvalues := (hagrees (List.mem_singleton_self _) Sample.rules rfl hobeys).values
  obtain ⟨value, hvalue, label, hlabel, hequals⟩ := hvalues _ (List.mem_singleton_self _)
  cases hvalue
  rcases List.mem_pair.1 hlabel with rfl | rfl
  · exact absurd hequals (by decide +kernel)
  · exact absurd hequals (by decide +kernel)

end AiRetrieval
