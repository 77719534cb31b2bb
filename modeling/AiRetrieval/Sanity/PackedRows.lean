import AiRetrieval.Library.GreedyPacking
import AiRetrieval.Sanity.FrozenValues
import AiRetrieval.Spec.TaskPacker

/-! How the loop of the packer cuts rows, what its candidates raise, and what is stored for
them. -/

namespace AiRetrieval

namespace DeterministicTaskPacker

variable {packer : DeterministicTaskPacker} {definition : TaskDefinition}
  {parameters : FrozenMapping}

section Fitting

/-- The rows have a payload and estimates, within the limits. -/
def Fits (packer : DeterministicTaskPacker) (definition : TaskDefinition)
    (parameters : FrozenMapping) (rows : List RowInput) : Prop :=
  ∃ pack, packer.candidate definition parameters rows = .ok pack ∧ fits definition pack = true

instance (rows : List RowInput) : Decidable (Fits packer definition parameters rows) :=
  decidable_of_iff ((packer.candidate definition parameters rows).map (fits definition) = .ok true)
    (by cases h : packer.candidate definition parameters rows <;> simp [Fits, h, Except.map])

/-- The rows have a payload and estimates, and one of them is over its limit. -/
def Exceeds (packer : DeterministicTaskPacker) (definition : TaskDefinition)
    (parameters : FrozenMapping) (rows : List RowInput) : Prop :=
  ∃ pack, packer.candidate definition parameters rows = .ok pack ∧ fits definition pack = false

theorem Exceeds.not_fits {rows : List RowInput}
    (h : Exceeds packer definition parameters rows) : ¬Fits packer definition parameters rows := by
  obtain ⟨pack, hpack, hover⟩ := h
  rintro ⟨other, hother, hfits⟩
  cases hpack.symm.trans hother
  rw [hover] at hfits
  cases hfits

theorem candidate_rows {rows : List RowInput} {pack : CandidatePack}
    (h : packer.candidate definition parameters rows = .ok pack) : pack.rows = rows := by
  obtain ⟨payload, -, h⟩ := except_bind_eq_ok.1 h
  obtain ⟨inputTokens, -, h⟩ := except_bind_eq_ok.1 h
  obtain ⟨outputTokens, -, h⟩ := except_bind_eq_ok.1 h
  cases h
  rfl

end Fitting

section Cutting

structure Cut (packer : DeterministicTaskPacker) (definition : TaskDefinition)
    (parameters : FrozenMapping) (rows : List RowInput) (packs : List CandidatePack) : Prop where
  packing : Packing (Fits packer definition parameters) rows (packs.map CandidatePack.rows)
  maximal : (packs.map CandidatePack.rows).IsChain fun run next =>
    ∀ row, next.head? = some row → Exceeds packer definition parameters (run ++ [row])
  made : ∀ pack ∈ packs, packer.candidate definition parameters pack.rows = .ok pack

/-- All that cutting rows onto an open pack can come to. -/
inductive BuildOutcome (packer : DeterministicTaskPacker) (definition : TaskDefinition)
    (parameters : FrozenMapping) (current rows : List RowInput) :
    Except PackingStop (List CandidatePack) → Prop
  | cut (packs : List CandidatePack) :
      Cut packer definition parameters (current ++ rows) packs →
      (current ≠ [] → ∃ first others, packs = first :: others ∧ current <+: first.rows) →
      BuildOutcome packer definition parameters current rows (.ok packs)
  | oversized (before after : List RowInput) (row : RowInput) :
      rows = before ++ row :: after → Exceeds packer definition parameters [row] →
      (∀ earlier ∈ before, ∃ run, run <:+: current ++ rows ∧
        Fits packer definition parameters run ∧ [earlier] <:+: run) →
      BuildOutcome packer definition parameters current rows
        (.error (.oversizedRow row.val.identifier))
  | raised (run : List RowInput) (error : PyError) : run <:+: current ++ rows → run ≠ [] →
      packer.candidate definition parameters run = .error error →
      BuildOutcome packer definition parameters current rows (.error (.raised error))

theorem Cut.nil : Cut packer definition parameters [] [] :=
  ⟨Packing.nil, List.IsChain.nil, fun _ h => absurd h List.not_mem_nil⟩

theorem Cut.cons {rows : List RowInput} {pack first : CandidatePack} {others : List CandidatePack}
    {row : RowInput} (hmade : packer.candidate definition parameters pack.rows = .ok pack)
    (hfits : fits definition pack = true) (hnonempty : pack.rows ≠ [])
    (hexceeds : Exceeds packer definition parameters (pack.rows ++ [row]))
    (hrow : [row] <+: first.rows) (h : Cut packer definition parameters rows (first :: others)) :
    Cut packer definition parameters (pack.rows ++ rows) (pack :: first :: others) := by
  refine ⟨Packing.cons hnonempty ⟨pack, hmade, hfits⟩ h.packing, ?_,
    List.forall_mem_cons.2 ⟨hmade, h.made⟩⟩
  rw [List.map_cons, List.map_cons, List.isChain_cons_cons]
  refine ⟨fun head hhead => ?_, h.maximal⟩
  obtain ⟨rest, hfirst⟩ := hrow
  rw [← hfirst] at hhead
  cases hhead
  exact hexceeds

theorem Cut.last {current : List RowInput} {pack : CandidatePack} (hnonempty : current ≠ [])
    (hmade : packer.candidate definition parameters current = .ok pack)
    (hfits : fits definition pack = true) : Cut packer definition parameters current [pack] := by
  have hrows := candidate_rows hmade
  refine ⟨?_, List.isChain_singleton _, fun other hother => ?_⟩
  · have hsingle : Packing (Fits packer definition parameters) (current ++ []) [current] :=
      Packing.cons hnonempty ⟨pack, hmade, hfits⟩ Packing.nil
    rw [List.append_nil] at hsingle
    rwa [List.map_singleton, hrows]
  · rw [List.mem_singleton.1 hother, hrows]
    exact hmade

theorem buildFrom_outcome {current : List RowInput} (rows : List RowInput)
    (hcurrent : current ≠ [] → Fits packer definition parameters current) :
    BuildOutcome packer definition parameters current rows
      (packer.buildFrom definition parameters current rows) := by
  induction rows generalizing current with
  | nil =>
    rw [buildFrom]
    by_cases hempty : current = []
    · rw [hempty]
      exact .cut [] Cut.nil fun h => absurd rfl h
    · rw [if_neg (by rwa [List.isEmpty_iff])]
      obtain ⟨pack, hmade, hfits⟩ := hcurrent hempty
      rw [hmade]
      refine BuildOutcome.cut [pack] ?_ ?_
      · rw [List.append_nil]
        exact Cut.last hempty hmade hfits
      · intro _
        exact ⟨pack, [], rfl, by rw [candidate_rows hmade]⟩
  | cons row rest ih =>
    rw [buildFrom]
    cases hproposed : packer.candidate definition parameters (current ++ [row]) with
    | error error =>
      exact .raised (current ++ [row]) error ⟨[], rest, by simp⟩ (by simp) hproposed
    | ok proposed =>
      have hrows := candidate_rows hproposed
      have hwhole : current ++ row :: rest = (current ++ [row]) ++ rest := by simp
      dsimp only [Except.mapError, bind, Except.bind]
      cases hfits : fits definition proposed with
      | true =>
        -- the row joins the open pack
        rw [if_pos rfl, hrows]
        have hopen : Fits packer definition parameters (current ++ [row]) :=
          ⟨proposed, hproposed, hfits⟩
        generalize hrest : packer.buildFrom definition parameters (current ++ [row]) rest = result
        have hnext := hrest ▸ ih fun _ => hopen
        cases hnext with
        | cut packs hcut hfirst =>
          rw [← hwhole] at hcut
          refine .cut packs hcut fun _ => ?_
          obtain ⟨first, others, hpacks, hbegins⟩ := hfirst (by simp)
          exact ⟨first, others, hpacks, (List.prefix_append _ _).trans hbegins⟩
        | oversized before after large hsplit hlarge hbefore =>
          refine .oversized (row :: before) after large (by rw [hsplit]; rfl) hlarge ?_
          rw [hwhole]
          exact List.forall_mem_cons.2 ⟨⟨_, (List.prefix_append _ _).isInfix, hopen,
            (List.suffix_append current [row]).isInfix⟩, hbefore⟩
        | raised run error hrun hnonempty herror =>
          exact .raised run error (by rwa [hwhole]) hnonempty herror
      | false =>
        rw [if_neg (by decide)]
        by_cases hempty : current = []
        · rw [hempty, List.isEmpty_nil, if_pos rfl]
          rw [hempty, List.nil_append] at hproposed
          exact .oversized [] rest row rfl ⟨proposed, hproposed, hfits⟩
            fun _ h => absurd h List.not_mem_nil
        · -- the open pack is full, and the row opens the next
          rw [if_neg (by rwa [List.isEmpty_iff])]
          obtain ⟨full, hfull, hfullFits⟩ := hcurrent hempty
          have hfullRows := candidate_rows hfull
          rw [hfull]
          cases hsingle : packer.candidate definition parameters [row] with
          | error error =>
            exact .raised [row] error ⟨current, rest, by simp⟩ (List.cons_ne_nil _ _) hsingle
          | ok single =>
            have hsingleRows := candidate_rows hsingle
            dsimp only
            cases hsingleFits : fits definition single with
            | false =>
              rw [if_neg (by decide)]
              exact .oversized [] rest row rfl ⟨single, hsingle, hsingleFits⟩
                fun _ h => absurd h List.not_mem_nil
            | true =>
              rw [if_pos rfl, hsingleRows]
              have hopen : Fits packer definition parameters [row] := ⟨single, hsingle, hsingleFits⟩
              generalize hrest : packer.buildFrom definition parameters [row] rest = result
              have hnext := hrest ▸ ih fun _ => hopen
              cases hnext with
              | cut packs hcut hfirst =>
                obtain ⟨first, others, rfl, hbegins⟩ := hfirst (List.cons_ne_nil _ _)
                refine .cut (full :: first :: others) ?_
                  fun _ => ⟨full, first :: others, rfl, by rw [hfullRows]⟩
                have hjoined := Cut.cons (by rw [hfullRows]; exact hfull) hfullFits
                  (by rwa [hfullRows]) (by rw [hfullRows]; exact ⟨proposed, hproposed, hfits⟩)
                  hbegins hcut
                rwa [hfullRows] at hjoined
              | oversized before after large hsplit hlarge hbefore =>
                refine .oversized (row :: before) after large (by rw [hsplit]; rfl) hlarge ?_
                have hlater : [row] ++ rest <:+: current ++ row :: rest :=
                  (List.suffix_append current _).isInfix
                refine List.forall_mem_cons.2 ⟨⟨[row], ?_, hopen, List.infix_rfl⟩, ?_⟩
                · exact (List.prefix_append _ _).isInfix.trans hlater
                · intro earlier hearlier
                  obtain ⟨run, hrun, hfitting, hpart⟩ := hbefore earlier hearlier
                  exact ⟨run, hrun.trans hlater, hfitting, hpart⟩
              | raised run error hrun hnonempty herror =>
                exact .raised run error (hrun.trans (List.suffix_append _ _).isInfix) hnonempty
                  herror

end Cutting

end DeterministicTaskPacker

section Raising

open CanonicalPayload DeterministicTaskPacker

/-- A value that cannot be encoded is answered as `CanonicalSerializationError`. -/
def Unencodable (error : PyError) : Prop :=
  ∃ message, serializationError error = .raised (.other "CanonicalSerializationError") message

theorem plain_raises (value : FrozenValue) : OnlyRaises Unencodable (plain value) := by
  have hitems {items : List FrozenValue} (ih : ∀ v ∈ items, OnlyRaises Unencodable (plain v)) :
      OnlyRaises Unencodable (plainItems items) := by
    induction items with
    | nil => exact onlyRaises_ok []
    | cons first rest ihrest =>
      rw [List.forall_mem_cons] at ih
      rw [plainItems]
      exact ih.1.bind fun a _ => (ihrest ih.2).bind fun others _ => onlyRaises_ok (a :: others)
  induction value using FrozenValue.induction with
  | leaf value hleaf =>
    cases value with
    | float number =>
      rw [plain]
      split
      · exact onlyRaises_ok _
      · exact onlyRaises_error ⟨_, rfl⟩
    | none | bool | int | str =>
      rw [plain]
      exact onlyRaises_ok _
    | tuple | frozenset | mapping => cases hleaf
  | tuple items ih =>
    rw [plain]
    exact (hitems ih).map _
  | frozenset items ih =>
    rw [plain]
    exact onlyRaises_error ⟨_, rfl⟩
  | mapping items ih =>
    rw [plain]
    refine OnlyRaises.map ?_ _
    generalize ([] : List String) = seen
    induction items generalizing seen with
    | nil => exact onlyRaises_ok []
    | cons entry rest ihrest =>
      obtain ⟨key, value⟩ := entry
      rw [List.forall_mem_cons] at ih
      rw [plainEntries]
      split
      · exact ihrest ih.2 seen
      · exact ih.1.bind fun a _ => (ihrest ih.2 (key :: seen)).bind fun others _ =>
          onlyRaises_ok ((CodeText.ofString key, a) :: others)

theorem payloadObject_raises (definition : TaskDefinition) (parameters : FrozenMapping)
    (rows : List RowInput) :
    OnlyRaises Unencodable (payloadObject definition parameters rows) := by
  refine (plain_raises _).bind fun _ _ => OnlyRaises.bind (onlyRaises_mapM fun row _ => ?_)
    fun _ _ => (plain_raises _).bind fun _ _ => onlyRaises_ok _
  exact (plain_raises _).bind fun _ _ => onlyRaises_ok _

theorem payloadBytes_raises (runtime : PythonRuntime) (definition : TaskDefinition)
    (parameters : FrozenMapping) (rows : List RowInput) :
    OnlyRaises (fun error => ∃ message,
      error = .raised (.other "CanonicalSerializationError") message)
      (payloadBytes runtime definition parameters rows) := by
  refine OnlyRaises.mapError ((payloadObject_raises _ _ _).bind fun document _ => ?_)
  refine OnlyRaises.bind ?_ fun text _ => ?_
  · unfold dumps
    split
    · exact onlyRaises_ok _
    · exact onlyRaises_error ⟨_, rfl⟩
  · unfold encodeText
    split
    · exact onlyRaises_ok _
    · exact onlyRaises_error ⟨_, rfl⟩

theorem estimate_raises (value : PyValue) (name : String) :
    OnlyRaises (fun error => ∃ message, error = .valueError message) (estimate value name) := by
  unfold estimate PyValue.natural
  split
  · split
    · exact onlyRaises_ok _
    · exact onlyRaises_error ⟨_, rfl⟩
  · exact onlyRaises_error ⟨_, rfl⟩

theorem TaskFailure.passes_of_rule {stage : TaskFailureStage} {code : TaskFailureCode}
    {ruleId : String} {details : FrozenMapping} (h : blank ruleId = false) :
    TaskFailure.postInit ⟨stage, code, [ruleId], details⟩ = .ok () :=
  except_seq_eq_ok.2 ⟨require_of fun other hother => by rwa [List.mem_singleton.1 hother],
    require_of (List.nodup_singleton ruleId)⟩

theorem candidate_raises (packer : DeterministicTaskPacker) (definition : TaskDefinition)
    (parameters : FrozenMapping) (rows : List RowInput) :
    OnlyRaises (fun error => ∃ failure, stopped (.raised error) = .ok failure ∧
      failure.val.code = .invalidTaskInvocation)
      (packer.candidate definition parameters rows) := by
  have hmade {code : TaskFailureCode} {ruleId : String} {details : FrozenMapping}
      (h : blank ruleId = false) : ∃ failure, packingFailure code ruleId details = .ok failure ∧
        failure.val.code = code :=
    ⟨⟨_, TaskFailure.passes_of_rule h⟩, Checked.make_of_passed _, rfl⟩
  have hvalue {value : PyValue} {name : String} :
      OnlyRaises (fun error => ∃ failure, stopped (.raised error) = .ok failure ∧
        failure.val.code = .invalidTaskInvocation) (estimate value name) := by
    intro error herror
    obtain ⟨message, rfl⟩ := estimate_raises value name error herror
    exact hmade (by decide +kernel)
  refine OnlyRaises.bind (fun error herror => ?_) fun _ _ => hvalue.bind fun _ _ =>
    hvalue.bind fun _ _ => onlyRaises_ok _
  obtain ⟨message, rfl⟩ := payloadBytes_raises _ _ _ _ error herror
  exact hmade (by decide +kernel)

end Raising

section Storing

open CanonicalPayload DeterministicTaskPacker Program

variable {packer : DeterministicTaskPacker} {definition : TaskDefinition}
  {parameters : FrozenMapping}

/-- The payload of rows is never empty: it is an object. -/
theorem payloadBytes_ne_nil {runtime : PythonRuntime} {rows : List RowInput} {payload : Bytes}
    (h : payloadBytes runtime definition parameters rows = .ok payload) : payload ≠ [] := by
  unfold payloadBytes at h
  rw [except_mapError_eq_ok] at h
  obtain ⟨document, hdocument, h⟩ := except_bind_eq_ok.1 h
  obtain ⟨text, htext, h⟩ := except_bind_eq_ok.1 h
  obtain ⟨plainParameters, -, hdocument⟩ := except_bind_eq_ok.1 hdocument
  obtain ⟨plainRows, -, hdocument⟩ := except_bind_eq_ok.1 hdocument
  obtain ⟨plainSchema, -, hdocument⟩ := except_bind_eq_ok.1 hdocument
  cases hdocument
  unfold dumps at htext
  split at htext
  · cases htext
    unfold encodeText at h
    split at h
    · next s hs =>
      rintro rfl
      have hbytes : encodeUtf8 s = encodeUtf8 "" := (Except.ok.inj h).trans (by decide +kernel)
      have hempty : s = "" := CodeText.utf8_injective hbytes
      rw [CodeText.string?_eq_some, hempty] at hs
      cases hs
    · cases h
  · cases htext

structure Storable (packer : DeterministicTaskPacker) (definition : TaskDefinition)
    (parameters : FrozenMapping) (candidate : CandidatePack) : Prop where
  made : packer.candidate definition parameters candidate.rows = .ok candidate
  nonempty : candidate.rows ≠ []
  distinct : (candidate.rows.map (·.val.identifier)).Nodup

theorem identifier_named (row : RowInput) : blank row.val.identifier = false :=
  require_eq_ok.1 row.passed

theorem candidate_payload {rows : List RowInput} {pack : CandidatePack}
    (h : packer.candidate definition parameters rows = .ok pack) :
    payloadBytes packer.runtime definition parameters rows = .ok pack.payload ∧
      estimate (packer.estimator.estimateInput pack.payload) "input token estimate" =
        .ok pack.inputTokens ∧
      estimate (packer.estimator.estimateOutput definition rows.length) "output token estimate" =
        .ok pack.outputTokens := by
  obtain ⟨payload, hpayload, h⟩ := except_bind_eq_ok.1 h
  obtain ⟨inputTokens, hinput, h⟩ := except_bind_eq_ok.1 h
  obtain ⟨outputTokens, houtput, h⟩ := except_bind_eq_ok.1 h
  cases h
  exact ⟨hpayload, hinput, houtput⟩

theorem packed_passes {candidate : CandidatePack} (index : Nat)
    (h : Storable packer definition parameters candidate)
    (hversion : blank definition.version = false) :
    ∃ pack, packed definition index candidate = .ok pack := by
  have hpassed : PackedRequest.postInit {
      function := definition.function
      definitionVersion := definition.version
      packIndex := index
      inputIds := candidate.rows.map (·.val.identifier)
      payload := candidate.payload
      estimatedInputTokens := candidate.inputTokens
      estimatedOutputTokens := candidate.outputTokens } = .ok () := by
    refine except_seq_eq_ok.2 ⟨require_of hversion, except_seq_eq_ok.2 ⟨require_of ⟨?_, ?_⟩,
      except_seq_eq_ok.2 ⟨require_of h.distinct,
        require_of (payloadBytes_ne_nil (candidate_payload h.made).1)⟩⟩⟩
    · exact fun hempty => h.nonempty (List.map_eq_nil_iff.1 hempty)
    · rw [List.forall_mem_map]
      exact fun row _ => identifier_named row
  exact ⟨_, Checked.make_of_passed hpassed⟩

theorem TaskFunction.value_named (function : TaskFunction) : blank function.value = false := by
  cases function with
  | classify => decide +kernel
  | summarize => decide +kernel

theorem modelWork_passes (definition : TaskDefinition) (candidate : CandidatePack)
    {reference : String}
    (hreference : blank reference = false) (hversion : blank definition.version = false) :
    ∃ work, modelWork definition reference candidate = .ok work := by
  have hpassed : ModelWork.postInit {
      taskType := definition.function.value
      payloadReference := reference
      inputIds := candidate.rows.map (·.val.identifier)
      requiredCapabilities := definition.requiredCapabilities
      taskDefinitionVersion := some definition.version
      estimatedInputTokens := some candidate.inputTokens
      estimatedOutputTokens := some candidate.outputTokens } = .ok () := by
    refine except_seq_eq_ok.2 ⟨require_of ⟨definition.function.value_named, hreference⟩,
      except_seq_eq_ok.2 ⟨require_of ?_, require_of ?_⟩⟩
    · rw [List.forall_mem_map]
      exact fun row _ => identifier_named row
    · rw [Option.all_some, decide_eq_true hversion]
  exact ⟨_, Checked.make_of_passed hpassed⟩

def putOf (packer : DeterministicTaskPacker) (payload : Bytes) : Bytes × String :=
  (payload, packer.runtime.sha256 payload)

/-- The packs and the model work of candidates, from an index on and after what is stored. -/
inductive Filed (packer : DeterministicTaskPacker) (definition : TaskDefinition) :
    List (Bytes × String) → Nat → List CandidatePack → List (PackedRequest × ModelWork) → Prop
  | nil (stored : List (Bytes × String)) (index : Nat) : Filed packer definition stored index [] []
  | cons {stored : List (Bytes × String)} {index : Nat} {candidate : CandidatePack}
      {candidates : List CandidatePack} {pack : PackedRequest} {work : ModelWork}
      {out : List (PackedRequest × ModelWork)} : packed definition index candidate = .ok pack →
      modelWork definition (packer.payloadStore stored candidate.payload
        (packer.runtime.sha256 candidate.payload)) candidate = .ok work →
      Filed packer definition (stored ++ [putOf packer candidate.payload]) (index + 1) candidates
        out →
      Filed packer definition stored index (candidate :: candidates) ((pack, work) :: out)

theorem storeFrom_exec {candidates : List CandidatePack}
    (h : ∀ candidate ∈ candidates, Storable packer definition parameters candidate)
    (hversion : blank definition.version = false)
    (hput : ∀ stored payload contentHash,
      blank (packer.payloadStore stored payload contentHash) = false)
    (index : Nat) (stored : List (Bytes × String)) :
    ∃ out, (packer.storeFrom definition index candidates).exec stored =
      (.ok out, stored ++ candidates.map (putOf packer ·.payload)) ∧
      Filed packer definition stored index candidates out := by
  induction candidates generalizing index stored with
  | nil => exact ⟨[], by rw [List.map_nil, List.append_nil]; rfl, .nil stored index⟩
  | cons candidate rest ih =>
    rw [List.forall_mem_cons] at h
    obtain ⟨pack, hpack⟩ := packed_passes index h.1 hversion
    obtain ⟨work, hwork⟩ := modelWork_passes definition candidate
      (hput stored candidate.payload (packer.runtime.sha256 candidate.payload)) hversion
    obtain ⟨out, hout, hfiled⟩ := ih h.2 (index + 1) (stored ++ [putOf packer candidate.payload])
    refine ⟨(pack, work) :: out, ?_, .cons hpack hwork hfiled⟩
    have hstored : (packer.put candidate.payload).exec stored =
        (.ok (packer.payloadStore stored candidate.payload
          (packer.runtime.sha256 candidate.payload)), stored ++
            [putOf packer candidate.payload]) := rfl
    rw [storeFrom, exec_bind_of_ok hstored, exec_bind, exec_liftExcept, hpack]
    dsimp only
    rw [exec_bind, exec_liftExcept, hwork]
    dsimp only
    rw [exec_bind_of_ok hout, List.map_cons, List.append_assoc, List.singleton_append]
    rfl

namespace Filed

variable {stored : List (Bytes × String)} {index : Nat} {candidates : List CandidatePack}
  {out : List (PackedRequest × ModelWork)}

theorem inputIds (h : Filed packer definition stored index candidates out) :
    (out.map Prod.fst).flatMap (·.val.inputIds) =
      (candidates.flatMap CandidatePack.rows).map (·.val.identifier) := by
  induction h with
  | nil => rfl
  | cons hpack hwork _ ih =>
    rw [List.map_cons, List.flatMap_cons, ih, List.flatMap_cons, List.map_append,
      Checked.make_eq_ok.1 hpack]

theorem checkPacks (h : Filed packer definition stored index candidates out) :
    PreparedTask.checkPacks definition index out = .ok () := by
  induction h with
  | nil => rfl
  | cons hpack hwork _ ih =>
    rw [PreparedTask.checkPacks, except_seq_eq_ok, PreparedTask.checkPack]
    refine ⟨?_, ih⟩
    rw [Checked.make_eq_ok.1 hpack, Checked.make_eq_ok.1 hwork]
    exact except_seq_eq_ok.2 ⟨require_of rfl, except_seq_eq_ok.2 ⟨require_of rfl,
      except_seq_eq_ok.2 ⟨require_of rfl, require_of ⟨rfl, rfl⟩⟩⟩⟩

theorem packs (h : Filed packer definition stored index candidates out) :
    List.Forall₂ (fun candidate pack => ∃ index, packed definition index candidate = .ok pack)
      candidates (out.map Prod.fst) := by
  induction h with
  | nil => exact .nil
  | cons hpack _ _ ih => exact .cons ⟨_, hpack⟩ ih

theorem work (h : Filed packer definition stored index candidates out) :
    List.Forall₂ (fun pack work => index ≤ pack.val.packIndex ∧ work.val =
      { taskType := definition.function.value
        payloadReference := packer.payloadStore
          (stored ++ (candidates.map (putOf packer ·.payload)).take (pack.val.packIndex - index))
          pack.val.payload (packer.runtime.sha256 pack.val.payload)
        inputIds := pack.val.inputIds
        requiredCapabilities := definition.requiredCapabilities
        taskDefinitionVersion := some definition.version
        estimatedInputTokens := some pack.val.estimatedInputTokens
        estimatedOutputTokens := some pack.val.estimatedOutputTokens })
      (out.map Prod.fst) (out.map Prod.snd) := by
  induction h with
  | nil => exact .nil
  | @cons stored index candidate candidates pack work out hpack hwork _ ih =>
    refine .cons ?_ (ih.imp fun pack work h => ?_)
    · rw [Checked.make_eq_ok.1 hpack, Checked.make_eq_ok.1 hwork, Nat.sub_self, List.take_zero,
        List.append_nil]
      exact ⟨Nat.le_refl _, rfl⟩
    · obtain ⟨hindex, hwork⟩ := h
      refine ⟨by omega, ?_⟩
      rw [hwork, List.append_assoc, List.singleton_append,
        show pack.val.packIndex - index = pack.val.packIndex - (index + 1) + 1 by omega,
        List.map_cons, List.take_succ_cons]

theorem passes {resolved : ResolvedTask}
    (h : Filed packer resolved.val.definition stored index candidates out) (hindex : index = 0)
    (hrows : candidates.flatMap CandidatePack.rows = resolved.val.invocation.val.rows) :
    PreparedTask.postInit {
      definition := resolved.val.definition
      invocation := resolved.val.invocation
      packs := out.map Prod.fst
      modelWork := out.map Prod.snd } = .ok () := by
  subst hindex
  have hids := h.inputIds
  rw [hrows] at hids
  have hnonempty : resolved.val.invocation.val.rows.isEmpty = false :=
    require_eq_ok.1 (except_seq_eq_ok.1 resolved.val.invocation.passed).1
  refine except_seq_eq_ok.2 ⟨require_of (require_eq_ok.1 resolved.passed),
    except_seq_eq_ok.2 ⟨require_of ?_, except_seq_eq_ok.2 ⟨require_of ?_,
      except_seq_eq_ok.2 ⟨require_of hids, ?_⟩⟩⟩⟩
  · intro hempty
    rw [List.map_eq_nil_iff.1 hempty] at hids
    rw [List.map_eq_nil_iff.1 hids.symm] at hnonempty
    cases hnonempty
  · rw [List.length_map, List.length_map]
  · rw [List.zip_map', List.map_id']
    exact h.checkPacks

end Filed

end Storing

end AiRetrieval
