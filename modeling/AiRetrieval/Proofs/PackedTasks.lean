import AiRetrieval.Proofs.EscapingOutput
import AiRetrieval.Sanity.PackedRows

/-! What `prepare` makes of a resolved task: a failure, or packs that hold its rows in order,
each as full as the next row leaves it. -/

namespace AiRetrieval

open CanonicalPayload DeterministicTaskPacker Program

variable {packer : DeterministicTaskPacker} {resolved : ResolvedTask}

section Resolution

theorem resolve_versioned {registry : TaskDefinitionLookup} {invocation : TaskInvocation}
    {context : ExecutionContext} {resolved : ResolvedTask}
    (h : TaskRuntime.resolve registry invocation context = .ok (.ok resolved)) :
    blank resolved.val.definition.version = false := by
  have hfailure {code : TaskFailureCode} {ruleId reason : String} {function : TaskFunction}
      {bound requested : Option String} :
      TaskRuntime.resolutionFailure code ruleId reason function bound requested ≠
        .ok (.ok resolved) := by
    intro h
    obtain ⟨failure, -, h⟩ := except_bind_eq_ok.1 h
    cases h
  unfold TaskRuntime.resolve at h
  dsimp only at h
  split at h
  · exact absurd h hfailure
  · split at h
    · exact absurd h hfailure
    · next bindings _ version hversion =>
      split at h
      · exact absurd h hfailure
      · split at h
        · exact absurd h hfailure
        · split at h
          · exact absurd h hfailure
          · next definition _ hmatches =>
            have hnamed : blank version = false := by
              unfold TaskRuntime.boundVersion at hversion
              split at hversion
              · split at hversion
                · cases hversion
                · next hblank =>
                  cases hversion
                  exact Bool.eq_false_of_not_eq_true hblank
              · cases hversion
            cases hmade : Checked.make ResolvedTask.postInit ⟨definition, invocation⟩ with
            | error e =>
              rw [hmade] at h
              cases h
            | ok task =>
              rw [hmade] at h
              cases h
              rw [Checked.make_eq_ok.1 hmade]
              rw [not_or, not_not, not_not] at hmatches
              rw [hmatches.2]
              exact hnamed
  · exact absurd h hfailure

end Resolution

section Outcome

/-- The rows of a run fit one pack of the task. -/
def Fitting (packer : DeterministicTaskPacker) (resolved : ResolvedTask) : List RowInput → Prop :=
  Fits packer resolved.val.definition resolved.val.invocation.val.parameters

/-- Some pack could be made of the rows of a run, if it were within the limits. -/
def Encodable (packer : DeterministicTaskPacker) (resolved : ResolvedTask)
    (run : List RowInput) : Prop :=
  ∃ pack, packer.candidate resolved.val.definition resolved.val.invocation.val.parameters run =
    .ok pack

/-- All that `prepare` can come to, with what is stored then. -/
inductive PrepareOutcome (packer : DeterministicTaskPacker) (resolved : ResolvedTask)
    (stored : List (Bytes × String)) :
    Except TaskFailure PreparedTask → List (Bytes × String) → Prop
  | oversized (before after : List RowInput) (row : RowInput) (failure : TaskFailure) :
      resolved.val.invocation.val.rows = before ++ row :: after →
      Exceeds packer resolved.val.definition resolved.val.invocation.val.parameters [row] →
      (∀ earlier ∈ before, ∃ run, run <:+: resolved.val.invocation.val.rows ∧
        Fitting packer resolved run ∧ [earlier] <:+: run) →
      failure.val = ⟨.packing, .oversizedRow, ["task_payload.row_fits_empty_pack"],
        [("reason", .str "oversized_row"), ("row_id", .str row.val.identifier)]⟩ →
      PrepareOutcome packer resolved stored (.error failure) stored
  | unencoded (run : List RowInput) (failure : TaskFailure) :
      run <:+: resolved.val.invocation.val.rows → run ≠ [] → ¬Encodable packer resolved run →
      failure.val.code = .invalidTaskInvocation →
      PrepareOutcome packer resolved stored (.error failure) stored
  | prepared (candidates : List CandidatePack) (out : List (PackedRequest × ModelWork))
      (task : PreparedTask) :
      Cut packer resolved.val.definition resolved.val.invocation.val.parameters
        resolved.val.invocation.val.rows candidates →
      Filed packer resolved.val.definition stored 0 candidates out →
      task.val = ⟨resolved.val.definition, resolved.val.invocation, out.map Prod.fst,
        out.map Prod.snd⟩ →
      PrepareOutcome packer resolved stored (.ok task)
        (stored ++ candidates.map (putOf packer ·.payload))

theorem prepare_outcome (hversion : blank resolved.val.definition.version = false)
    (hput : ∀ stored payload contentHash,
      blank (packer.payloadStore stored payload contentHash) = false)
    (stored : List (Bytes × String)) :
    ∃ result after, (packer.prepare resolved).exec stored = (.ok result, after) ∧
      PrepareOutcome packer resolved stored result after := by
  have houtcome : BuildOutcome packer resolved.val.definition resolved.val.invocation.val.parameters
      [] resolved.val.invocation.val.rows (packer.buildCandidates resolved) :=
    buildFrom_outcome _ fun h => absurd rfl h
  unfold prepare
  generalize packer.buildCandidates resolved = built at houtcome
  cases houtcome with
  | cut candidates hcut _ =>
    rw [List.nil_append] at hcut
    have hrows : candidates.flatMap CandidatePack.rows = resolved.val.invocation.val.rows := by
      rw [List.flatMap_def, hcut.packing.joined]
    have hdistinct : (resolved.val.invocation.val.rows.map (·.val.identifier)).Nodup :=
      require_eq_ok.1 (except_seq_eq_ok.1 (except_seq_eq_ok.1 resolved.val.invocation.passed).2).1
    have hstorable : ∀ candidate ∈ candidates, Storable packer resolved.val.definition
        resolved.val.invocation.val.parameters candidate := by
      intro candidate hcandidate
      refine ⟨hcut.made candidate hcandidate,
        hcut.packing.nonempty _ (List.mem_map_of_mem hcandidate), hdistinct.sublist ?_⟩
      rw [← hrows]
      exact (List.sublist_flatten_of_mem (List.mem_map_of_mem hcandidate)).map _
    obtain ⟨out, hout, hfiled⟩ := storeFrom_exec hstorable hversion hput 0 stored
    have hpassed := hfiled.passes rfl hrows
    refine ⟨.ok ⟨_, hpassed⟩, _, ?_, .prepared candidates out _ hcut hfiled rfl⟩
    dsimp only
    rw [exec_bind_of_ok hout, exec_bind, exec_liftExcept, Checked.make_of_passed hpassed]
    rfl
  | oversized before after row hsplit hlarge hbefore =>
    have hpassed : TaskFailure.postInit ⟨.packing, .oversizedRow,
        ["task_payload.row_fits_empty_pack"],
        [("reason", .str "oversized_row"), ("row_id", .str row.val.identifier)]⟩ = .ok () :=
      TaskFailure.passes_of_rule (by decide +kernel)
    refine ⟨.error ⟨_, hpassed⟩, stored, ?_,
      .oversized before after row _ hsplit hlarge hbefore rfl⟩
    dsimp only [stopped, packingFailure]
    rw [exec_bind, exec_liftExcept, Checked.make_of_passed hpassed]
    rfl
  | raised run error hrun hnonempty herror =>
    obtain ⟨failure, hfailure, hcode⟩ := candidate_raises _ _ _ _ error herror
    rw [List.nil_append] at hrun
    have hnot : ¬Encodable packer resolved run := by
      rintro ⟨pack, hpack⟩
      rw [herror] at hpack
      cases hpack
    refine ⟨.error failure, stored, ?_, .unencoded run failure hrun hnonempty hnot hcode⟩
    dsimp only
    rw [exec_bind, exec_liftExcept, hfailure]
    rfl

end Outcome

section Faithful

structure PackOf (packer : DeterministicTaskPacker) (resolved : ResolvedTask)
    (run : List RowInput) (pack : PackedRequest) : Prop where
  nonempty : run ≠ []
  inputIds : pack.val.inputIds = run.map (·.val.identifier)
  payload : payloadBytes packer.runtime resolved.val.definition
    resolved.val.invocation.val.parameters run = .ok pack.val.payload
  inputTokens : packer.estimator.estimateInput pack.val.payload =
    .int pack.val.estimatedInputTokens
  outputTokens : packer.estimator.estimateOutput resolved.val.definition run.length =
    .int pack.val.estimatedOutputTokens
  items : run.length ≤ resolved.val.definition.packingLimits.maxItems
  inputLimit : pack.val.estimatedInputTokens ≤ resolved.val.definition.packingLimits.maxInputTokens
  outputLimit :
    pack.val.estimatedOutputTokens ≤ resolved.val.definition.packingLimits.maxOutputTokens
  bytes : pack.val.payload.length ≤ resolved.val.definition.packingLimits.maxPayloadBytes

/-- What the store holds of packs. -/
def puts (packer : DeterministicTaskPacker) (packs : List PackedRequest) : List (Bytes × String) :=
  packs.map (putOf packer ·.val.payload)

/-- A prepared task holds the rows of its invocation, cut into runs as full as they can be. -/
structure FaithfullyPacked (packer : DeterministicTaskPacker) (resolved : ResolvedTask)
    (stored : List (Bytes × String)) (task : PreparedTask) (runs : List (List RowInput)) :
    Prop where
  definition : task.val.definition = resolved.val.definition
  invocation : task.val.invocation = resolved.val.invocation
  complete : runs.flatten = resolved.val.invocation.val.rows
  packs : List.Forall₂ (PackOf packer resolved) runs task.val.packs
  work : List.Forall₂ (fun pack work => work.val =
    { taskType := resolved.val.definition.function.value
      payloadReference := packer.payloadStore
        (stored ++ (puts packer task.val.packs).take pack.val.packIndex)
        pack.val.payload (packer.runtime.sha256 pack.val.payload)
      inputIds := pack.val.inputIds
      requiredCapabilities := resolved.val.definition.requiredCapabilities
      taskDefinitionVersion := some resolved.val.definition.version
      estimatedInputTokens := some pack.val.estimatedInputTokens
      estimatedOutputTokens := some pack.val.estimatedOutputTokens })
    task.val.packs task.val.modelWork
  maximal : runs.IsChain fun run next => ∀ row, next.head? = some row →
    Exceeds packer resolved.val.definition resolved.val.invocation.val.parameters (run ++ [row])

theorem estimate_eq_ok {value : PyValue} {name : String} {n : Nat}
    (h : estimate value name = .ok n) : value = .int n := by
  unfold estimate PyValue.natural at h
  split at h
  · next number =>
    split at h
    · next hnatural =>
      cases h
      rw [Int.toNat_of_nonneg hnatural]
    · cases h
  · cases h

theorem fits_iff {definition : TaskDefinition} {candidate : CandidatePack} :
    fits definition candidate = true ↔
      candidate.rows.length ≤ definition.packingLimits.maxItems ∧
      candidate.inputTokens ≤ definition.packingLimits.maxInputTokens ∧
      candidate.outputTokens ≤ definition.packingLimits.maxOutputTokens ∧
      candidate.payload.length ≤ definition.packingLimits.maxPayloadBytes := by
  unfold fits
  simp only [Bool.and_eq_true, decide_eq_true_iff, and_assoc]

theorem packOf {candidate : CandidatePack} {pack : PackedRequest} {index : Nat}
    (hmade : packer.candidate resolved.val.definition resolved.val.invocation.val.parameters
      candidate.rows = .ok candidate)
    (hfits : Fitting packer resolved candidate.rows) (hnonempty : candidate.rows ≠ [])
    (hpack : packed resolved.val.definition index candidate = .ok pack) :
    PackOf packer resolved candidate.rows pack := by
  obtain ⟨found, hfound, hwithin⟩ := hfits
  cases hmade.symm.trans hfound
  obtain ⟨hitems, hinput, houtput, hbytes⟩ := fits_iff.1 hwithin
  obtain ⟨hpayload, hinputTokens, houtputTokens⟩ := candidate_payload hmade
  have hfields := Checked.make_eq_ok.1 hpack
  refine ⟨hnonempty, ?_, ?_, ?_, ?_, hitems, ?_, ?_, ?_⟩
  all_goals rw [hfields]
  · exact hpayload
  · exact estimate_eq_ok hinputTokens
  · exact estimate_eq_ok houtputTokens
  · exact hinput
  · exact houtput
  · exact hbytes

theorem faithfullyPacked {stored : List (Bytes × String)} {candidates : List CandidatePack}
    {out : List (PackedRequest × ModelWork)} {task : PreparedTask}
    (hcut : Cut packer resolved.val.definition resolved.val.invocation.val.parameters
      resolved.val.invocation.val.rows candidates)
    (hfiled : Filed packer resolved.val.definition stored 0 candidates out)
    (htask : task.val = ⟨resolved.val.definition, resolved.val.invocation, out.map Prod.fst,
      out.map Prod.snd⟩) :
    FaithfullyPacked packer resolved stored task (candidates.map CandidatePack.rows) ∧
      candidates.map (putOf packer ·.payload) = puts packer task.val.packs := by
  have hputs : candidates.map (putOf packer ·.payload) = puts packer task.val.packs := by
    have hpayloads := hfiled.packs
    rw [htask]
    generalize out.map Prod.fst = packs at hpayloads ⊢
    clear hcut hfiled htask
    induction hpayloads with
    | nil => rfl
    | cons hpack _ ih =>
      obtain ⟨index, hpack⟩ := hpack
      rw [List.map_cons, ih, puts, puts, List.map_cons, Checked.make_eq_ok.1 hpack]
  refine ⟨⟨by rw [htask], by rw [htask], hcut.packing.joined, ?_, ?_, hcut.maximal⟩, hputs⟩
  · rw [htask, List.forall₂_map_left_iff]
    have hall : ∀ candidate ∈ candidates, ∀ pack index,
        packed resolved.val.definition index candidate = .ok pack →
          PackOf packer resolved candidate.rows pack := by
      intro candidate hcandidate pack index hpack
      have hmem := List.mem_map_of_mem (f := CandidatePack.rows) hcandidate
      exact packOf (hcut.made candidate hcandidate) (hcut.packing.fits _ hmem)
        (hcut.packing.nonempty _ hmem) hpack
    have hpacks := hfiled.packs
    dsimp only
    generalize out.map Prod.fst = packs at hpacks ⊢
    clear hcut hfiled htask hputs
    induction hpacks with
    | nil => exact .nil
    | cons hpack _ ih =>
      rw [List.forall_mem_cons] at hall
      obtain ⟨index, hpack⟩ := hpack
      exact .cons (hall.1 _ index hpack) (ih hall.2)
  · have hwork := hfiled.work
    rw [hputs] at hwork
    rw [htask] at hwork ⊢
    exact hwork.imp fun pack work h => h.2

end Faithful

section Fewest

def RefusesOversized (packer : DeterministicTaskPacker) (resolved : ResolvedTask)
    (stored : List (Bytes × String)) : Prop :=
  ∃ failure after, (packer.prepare resolved).exec stored = (.ok (.error failure), after) ∧
    failure.val.code = .oversizedRow

/-- Packs are as few as can be, and a row is named oversized when it is the first that does not
fit alone. -/
structure OptimallyPacked (packer : DeterministicTaskPacker) (resolved : ResolvedTask)
    (stored : List (Bytes × String)) : Prop where
  fewest : ∀ task after, (packer.prepare resolved).exec stored = (.ok (.ok task), after) →
    (∀ row ∈ resolved.val.invocation.val.rows, Fitting packer resolved [row]) ∧
    ∀ runs, Packing (Fitting packer resolved) resolved.val.invocation.val.rows runs →
      task.val.packs.length ≤ runs.length
  named : ∀ failure after, (packer.prepare resolved).exec stored = (.ok (.error failure), after) →
    failure.val.code = .oversizedRow → ∃ earlier row later,
      resolved.val.invocation.val.rows = earlier ++ row :: later ∧
      (∀ other ∈ earlier, Fitting packer resolved [other]) ∧ ¬Fitting packer resolved [row] ∧
      FrozenMapping.get failure.val.details "row_id" = some (.str row.val.identifier)
  refused : (∃ row ∈ resolved.val.invocation.val.rows, ¬Fitting packer resolved [row]) →
    ∃ failure, (packer.prepare resolved).exec stored = (.ok (.error failure), stored)
  encodable : (∀ run, run <:+: resolved.val.invocation.val.rows → run ≠ [] →
      Encodable packer resolved run) →
    (RefusesOversized packer resolved stored ↔
      ∃ row ∈ resolved.val.invocation.val.rows, ¬Fitting packer resolved [row]) ∧
    ((∀ row ∈ resolved.val.invocation.val.rows, Fitting packer resolved [row]) →
      ∃ task after, (packer.prepare resolved).exec stored = (.ok (.ok task), after))

theorem DeterministicTaskPacker.Cut.packed {rows : List RowInput} {candidates : List CandidatePack}
    (h : Cut packer resolved.val.definition resolved.val.invocation.val.parameters rows
      candidates) :
    Packed (Fitting packer resolved) (candidates.map CandidatePack.rows) :=
  h.maximal.imp fun _ _ hnext row hrow => (hnext row hrow).not_fits

end Fewest

namespace Sample

def taskPacker : DeterministicTaskPacker where
  runtime := runtime
  estimator := ⟨fun payload => .int ((payload.length + 3) / 4), fun _ rows => .int (8 * rows)⟩
  payloadStore := fun _ _ contentHash => "payload:" ++ contentHash

theorem taskPacker_puts (stored : List (Bytes × String)) (payload : Bytes) (contentHash : String) :
    blank (taskPacker.payloadStore stored payload contentHash) = false :=
  blank_append_left contentHash (by decide +kernel)

def packsOf (maxItems maxPayloadBytes : Int) : TaskDefinition :=
  { definition with packingLimits := ⟨maxItems, 1000, 1000, maxPayloadBytes⟩ }

def longRow : RowInput := ⟨⟨"row-2", [("text", .str "too long")]⟩, by decide +kernel⟩

def threeRows : ResolvedTask := ⟨⟨packsOf 2 10000, ⟨{
  function := .classify
  parameters := [("labels", .tuple [.str "good", .str "bad"])]
  rows := [⟨⟨"row-1", [("text", .str "good")]⟩, by decide +kernel⟩, longRow,
    ⟨⟨"row-3", [("text", .str "bad")]⟩, by decide +kernel⟩] }, by decide +kernel⟩⟩,
  by decide +kernel⟩

/-- The first row has a set, and no row fits one byte. -/
def setFirst : ResolvedTask := ⟨⟨packsOf 2 1, ⟨{
  function := .classify
  parameters := [("labels", .tuple [.str "good", .str "bad"])]
  rows := [⟨⟨"row-1", [("tags", .frozenset [.str "x"])]⟩, by decide +kernel⟩,
    longRow] }, by decide +kernel⟩⟩,
  by decide +kernel⟩

theorem fitting_items {run : List RowInput} {resolved : ResolvedTask}
    (h : Fitting taskPacker resolved run) :
    run.length ≤ resolved.val.definition.packingLimits.maxItems := by
  obtain ⟨pack, hmade, hwithin⟩ := h
  have hitems := (fits_iff.1 hwithin).1
  rwa [candidate_rows hmade] at hitems

theorem threeRows_partsFit :
    PartsFit (Fitting taskPacker threeRows) threeRows.val.invocation.val.rows := by
  have hshort : ∀ tail ∈ threeRows.val.invocation.val.rows.tails, ∀ run ∈ tail.inits,
      run ≠ [] → run.length ≤ 2 → Fits taskPacker threeRows.val.definition
        threeRows.val.invocation.val.parameters run := by
    decide +kernel
  intro run part hrun hfits hpart hnonempty
  have hitems : run.length ≤ 2 := Int.ofNat_le.1 (fitting_items hfits)
  obtain ⟨tail, hprefix, hsuffix⟩ := List.infix_iff_prefix_suffix.1 (hpart.trans hrun)
  exact hshort tail ((List.mem_tails _ _).2 hsuffix) part ((List.mem_inits _ _).2 hprefix) hnonempty
    (hpart.length_le.trans hitems)

theorem setFirst_partsFit :
    PartsFit (Fitting taskPacker setFirst) setFirst.val.invocation.val.rows := by
  have hnone : ∀ tail ∈ setFirst.val.invocation.val.rows.tails, ∀ run ∈ tail.inits,
      ¬Fits taskPacker setFirst.val.definition setFirst.val.invocation.val.parameters run := by
    decide +kernel
  intro run part hrun hfits
  obtain ⟨tail, hprefix, hsuffix⟩ := List.infix_iff_prefix_suffix.1 hrun
  exact absurd hfits (hnone tail ((List.mem_tails _ _).2 hsuffix) run
    ((List.mem_inits _ _).2 hprefix))

theorem threeRows_packs : ((taskPacker.prepare threeRows).exec []).1.map
    (fun result => (result.map (·.val.packs.length)).toOption) = .ok (some 2) := by
  decide +kernel

end Sample

end AiRetrieval
