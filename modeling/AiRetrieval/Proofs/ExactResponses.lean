import AiRetrieval.Proofs.CapacityRefusals
import AiRetrieval.Sanity.CoordinatedRuns
import Mathlib.Data.List.Basic

/-! An interactive execution answers with one response that splits the requested operations,
exactly where the read, the preparation and every model operation it starts end in a way the
coordinator has an answer to. -/

namespace AiRetrieval

namespace InteractiveCoordinator

open Program PartialAggregator

section OperationIds

theorem toString_nat_inj {m n : Nat} (h : toString m = toString n) : m = n := by
  have hdigits := congrArg (fun text => Nat.ofDigitChars 10 text.toList 0) h
  simpa only [Nat.toString_eq_ofList_toDigits, String.toList_ofList,
    Nat.ofDigitChars_ten_toDigits] using hdigits

theorem takeWhile_toString (n : Nat) (rest : List Char) :
    ((toString n).toList ++ ':' :: rest).takeWhile (· ≠ ':') = (toString n).toList := by
  have hdigits : ∀ c ∈ (toString n).toList, decide (c ≠ ':') = true := by
    intro c hc
    have hdigit : c.isDigit = true :=
      Nat.isDigit_of_mem_toDigits (b := 10) (n := n) (by omega) (by omega)
        (by rwa [← Nat.toList_repr])
    rw [decide_eq_true_eq]
    rintro rfl
    exact absurd hdigit (by decide)
  rw [List.takeWhile_append_of_pos hdigits]
  simp

theorem modelId_index {i j : Nat} {work other : ModelWork} (h : modelId i work = modelId j other) :
    i = j := by
  unfold modelId at h
  have hlists := congrArg String.toList h
  simp only [String.toList_append, List.append_assoc] at hlists
  -- the index ends at the next colon
  have htail : (toString i).toList ++ ':' :: work.val.taskType.toList =
      (toString j).toList ++ ':' :: other.val.taskType.toList := List.append_cancel_left hlists
  have hindex := congrArg (List.takeWhile (· ≠ ':')) htail
  rw [takeWhile_toString, takeWhile_toString] at hindex
  exact toString_nat_inj (String.toList_injective hindex)

theorem modelIds_nodup (request : InteractiveRequest) : (modelIds request).Nodup := by
  unfold modelIds
  rw [List.nodup_iff_injective_get]
  intro i j h
  simp only [List.get_eq_getElem, List.getElem_mapIdx] at h
  exact Fin.ext (modelId_index h)

def packIdAt (definition : TaskDefinition) (index : Nat) : String :=
  "task:" ++ definition.function.value ++ ":" ++ definition.version ++ ":pack:" ++ toString index

theorem packIds_from {definition : TaskDefinition} {index : Nat}
    {pairs : List (PackedRequest × ModelWork)}
    (h : PreparedTask.checkPacks definition index pairs = .ok ()) :
    pairs.map (fun pair => packId pair.1) =
      (List.range' index pairs.length).map (packIdAt definition) := by
  induction pairs generalizing index with
  | nil => rfl
  | cons pair rest ih =>
    obtain ⟨pack, work⟩ := pair
    rw [PreparedTask.checkPacks, except_seq_eq_ok, PreparedTask.checkPack] at h
    simp only [except_seq_eq_ok, require_eq_ok] at h
    obtain ⟨⟨hfunction, hversion, hindex, -⟩, hrest⟩ := h
    rw [List.map_cons, List.length_cons, List.range'_succ, List.map_cons, ih hrest]
    congr 1
    unfold packId packIdAt
    rw [hfunction, hversion, hindex]

theorem packIds (prepared : PreparedTask) : prepared.val.packs.map packId =
    (List.range prepared.val.packs.length).map (packIdAt prepared.val.definition) := by
  have h := prepared.passed
  simp only [PreparedTask.postInit, except_seq_eq_ok, require_eq_ok] at h
  obtain ⟨-, -, hlength, -, hpacks⟩ := h
  have hids := packIds_from hpacks
  rw [List.length_zip, ← hlength, Nat.min_self, ← List.range_eq_range'] at hids
  calc prepared.val.packs.map packId
      = ((prepared.val.packs.zip prepared.val.modelWork).map Prod.fst).map packId := by
        rw [List.map_fst_zip hlength.le]
    _ = (List.range prepared.val.packs.length).map (packIdAt prepared.val.definition) := by
        rw [List.map_map, ← hids]
        rfl

theorem packIds_nodup (prepared : PreparedTask) : (prepared.val.packs.map packId).Nodup := by
  rw [packIds]
  refine List.nodup_range.map_on ?_
  intro i _ j _ h
  unfold packIdAt at h
  exact toString_nat_inj (String.append_right_inj _ |>.1 h)

theorem queryId_named (request : InteractiveRequest) : blank (queryId request) = false :=
  blank_append_left _ rfl

theorem taskPreparationId_named (task : InteractiveTaskWork) :
    blank (taskPreparationId task) = false :=
  blank_append_left _ (blank_append_left _ rfl)

theorem modelId_named (index : Nat) (work : ModelWork) : blank (modelId index work) = false :=
  blank_append_left _ (blank_append_left _ (blank_append_left _ rfl))

theorem packId_named (pack : PackedRequest) : blank (packId pack) = false :=
  blank_append_left _ (blank_append_left _ (blank_append_left _ (blank_append_left _
    (blank_append_left _ rfl))))

/-- Identifiers that start with different letters are different. -/
theorem ne_of_head {a b : String} {c d : Char} (ha : a.toList.head? = some c)
    (hb : b.toList.head? = some d) (hcd : c ≠ d) : a ≠ b := by
  rintro rfl
  exact hcd (Option.some.inj (ha.symm.trans hb))

theorem head_append {a : String} {c : Char} (b : String) (h : a.toList.head? = some c) :
    (a ++ b).toList.head? = some c := by
  rw [String.toList_append, List.head?_append, h]
  rfl

theorem queryId_head (request : InteractiveRequest) :
    (queryId request).toList.head? = some 'q' := head_append _ rfl

theorem query_ne_task (request : InteractiveRequest) (task : InteractiveTaskWork) :
    queryId request ≠ taskPreparationId task :=
  ne_of_head (queryId_head request) (head_append _ (head_append _ rfl)) (by decide : 'q' ≠ 't')

theorem query_ne_model (request : InteractiveRequest) {index : Nat} {work : ModelWork} :
    queryId request ≠ modelId index work :=
  ne_of_head (queryId_head request) (head_append _ (head_append _ (head_append _ rfl)))
    (by decide : 'q' ≠ 'm')

theorem query_ne_pack (request : InteractiveRequest) (pack : PackedRequest) :
    queryId request ≠ packId pack :=
  ne_of_head (queryId_head request) (head_append _ (head_append _ (head_append _ (head_append _
    (head_append _ rfl))))) (by decide : 'q' ≠ 't')

theorem modelIds_mem {request : InteractiveRequest} {operationId : String}
    (h : operationId ∈ modelIds request) :
    ∃ index work, modelId index work = operationId := by
  unfold modelIds at h
  rw [List.mem_mapIdx] at h
  obtain ⟨index, hindex, he⟩ := h
  exact ⟨index, _, he⟩

/-- The identifiers the first aggregator is made of. -/
theorem initialOperationIds_sound (request : InteractiveRequest) :
    initialOperationIds request ≠ [] ∧ (initialOperationIds request).Nodup ∧
      ∀ operationId ∈ initialOperationIds request, blank operationId = false := by
  unfold initialOperationIds
  split
  · next task _ =>
    refine ⟨List.cons_ne_nil _ _, ?_, ?_⟩
    · rw [List.nodup_cons, List.mem_singleton]
      exact ⟨query_ne_task request _, List.nodup_singleton _⟩
    · intro operationId hmem
      rcases List.mem_cons.1 hmem with rfl | hmem
      · exact queryId_named request
      · rw [List.mem_singleton.1 hmem]
        exact taskPreparationId_named task
  · refine ⟨List.cons_ne_nil _ _, ?_, ?_⟩
    · rw [List.nodup_cons]
      refine ⟨fun hmem => ?_, modelIds_nodup request⟩
      obtain ⟨index, work, he⟩ := modelIds_mem hmem
      exact query_ne_model request he.symm
    · intro operationId hmem
      rcases List.mem_cons.1 hmem with rfl | hmem
      · exact queryId_named request
      · obtain ⟨index, work, rfl⟩ := modelIds_mem hmem
        exact modelId_named index work

/-- The identifiers of the aggregator of a prepared task. -/
theorem packedOperationIds_sound (request : InteractiveRequest) (prepared : PreparedTask) :
    (queryId request :: prepared.val.packs.map packId).Nodup ∧
      ∀ operationId ∈ queryId request :: prepared.val.packs.map packId,
        blank operationId = false := by
  constructor
  · rw [List.nodup_cons]
    refine ⟨fun hmem => ?_, packIds_nodup prepared⟩
    obtain ⟨pack, -, he⟩ := List.mem_map.1 hmem
    exact query_ne_pack request pack he.symm
  · intro operationId hmem
    rcases List.mem_cons.1 hmem with rfl | hmem
    · exact queryId_named request
    · obtain ⟨pack, -, rfl⟩ := List.mem_map.1 hmem
      exact packId_named pack

end OperationIds

section Responses

variable {ν : Type} {ports : InteractivePorts ν} {deadline : DateTime}
  {request : InteractiveRequest} {context : ExecutionContext} {n : Nat} {a : PartialAggregator ν}

/-- Every requested operation is listed once, in the order requested, among the results or in
the incompleteness, and the response is complete exactly without incompleteness. -/
structure ExactPartition (operationIds : List String) (response : InteractiveResponse ν) :
    Prop where
  nodup : operationIds.Nodup
  split : ∃ included : String → Bool,
    response.val.results.map (·.operationId) = operationIds.filter included ∧
    response.val.incompleteness.map (·.val.operationId) =
      operationIds.filter fun operationId => !included operationId
  complete : response.val.complete = true ↔ response.val.incompleteness = []

/-- The query and the operations that stand for the request's model work: each pack once the
task is prepared, its preparation until then, or each model operation. -/
def requestedOperations (ports : InteractivePorts ν) (deadline : DateTime)
    (request : InteractiveRequest) : List String :=
  match request.val.task, ports.read, ports.prepare with
  | some _, .returned _, some (.ok (.ok prepared)) =>
    if TimeLeft ports deadline 1 then queryId request :: prepared.val.packs.map packId
    else initialOperationIds request
  | _, _, _ => initialOperationIds request

/-- Every one of the operations that the loop starts ends in a way there is an answer to. -/
def AllAnswerable (ports : InteractivePorts ν) (deadline : DateTime)
    (operationIds : List String) : Prop :=
  ∀ operationId ∈ startedFrom ports deadline 2 operationIds,
    Answerable (ports.modelOperation operationId)

/-- What follows a read that returned ends in ways there is an answer to. -/
def WorkAnswerable (ports : InteractivePorts ν) (deadline : DateTime)
    (request : InteractiveRequest) : Prop :=
  match request.val.task, ports.prepare with
  | none, _ => AllAnswerable ports deadline (modelIds request)
  | some _, none => True
  | some _, some (.error _) => False
  | some _, some (.ok (.error _)) => True
  | some _, some (.ok (.ok prepared)) =>
    AllAnswerable ports deadline (prepared.val.packs.map packId)

/-- The deadline has a time zone, and when there is time for work, the read, the preparation
and every started model operation end neither in a cancellation nor in an exception that
cannot be described. -/
def Handled (ports : InteractivePorts ν) (deadline : DateTime) (request : InteractiveRequest) :
    Prop :=
  deadline.aware = true ∧ (TimeLeft ports deadline 1 → Answerable ports.read ∧
    ∀ source, ports.read = .returned source → WorkAnswerable ports deadline request)

theorem respond_returns (haware : ∀ n, (ports.clock n).aware = true)
    (hdeadline : deadline.aware = true) (h : a.Sound) :
    Returns (fun response _ => ExactPartition a.operationIds response)
      (respond ports deadline request context a) n := by
  obtain ⟨b, hb, hsound, hsame, hdone⟩ := finalize_returns h
    (by decide : InteractiveTerminalReason.deadlineExceeded ≠ .complete)
  obtain ⟨reason, hreason, hcomplete⟩ := terminalReason_returns hsound
  have hsplit := listings_split hsound hdone
  have hbefore : deadline.before (ports.clock n) =
      .ok (decide (deadline.instant < (ports.clock n).instant)) := by
    unfold DateTime.before
    rw [if_pos (hdeadline.trans (haware n).symm)]
  generalize hearly : decide (deadline.instant < (ports.clock n).instant) = early at hbefore
  let fields : InteractiveResponse.Fields ν := {
    requestId := request.val.requestId
    complete := b.completeResult
    terminalReason := reason
    results := b.included
    incompleteness := b.incompleteness
    deadline := deadline
    emittedAt := if early then deadline else ports.clock n
    configurationVersion := context.configuration.reference.val.version }
  have hpassed : InteractiveResponse.postInit fields = .ok () := by
    have hrequest := request.passed
    simp only [InteractiveRequest.postInit, except_seq_eq_ok, require_eq_ok] at hrequest
    have hempty : b.completeResult = b.incompleteness.isEmpty := completeResult_eq hsound hdone
    simp only [InteractiveResponse.postInit, except_seq_eq_ok, require_eq_ok, fields]
    refine ⟨hrequest.1, hempty, hempty.trans hcomplete, ?_⟩
    intro operationId hresult hincomplete
    rw [included_operationIds, List.mem_filter] at hresult
    rw [hsplit, List.mem_filter, hresult.2] at hincomplete
    cases hincomplete.2
  refine ⟨⟨fields, hpassed⟩, n + 1, ?_, ?_, ⟨fun operationId => b.results.contains operationId,
    ?_, ?_⟩, ?_⟩
  · unfold respond
    rw [own_bind_exec hb]
    unfold InteractiveCoordinator.now own
    simp only [exec_bind, exec_get, exec_set, exec_pure, exec_liftExcept, hbefore, hreason,
      Except.mapError, Checked.make_of_passed hpassed, fields]
  · exact h.nodup
  · rw [← hsame]
    exact included_operationIds
  · rw [← hsame]
    exact hsplit
  · change b.completeResult = true ↔ b.incompleteness = []
    rw [completeResult_eq hsound hdone, List.isEmpty_iff]

theorem completed_query {others : List String} (source : ν)
    (hnodup : (queryId request :: others).Nodup)
    (hnamed : ∀ operationId ∈ queryId request :: others, blank operationId = false) :
    ∃ a b : PartialAggregator ν, of (queryId request :: others) = .ok a ∧
      a.complete (queryId request) source = .ok b ∧ b.Sound ∧
      b.operationIds = queryId request :: others ∧ b.pending = others := by
  obtain ⟨a, ha, hsound, hids, hpending⟩ := of_returns (ν := ν) (List.cons_ne_nil _ _) hnodup hnamed
  have hquery : queryId request ∈ a.pending := by
    rw [hpending]
    exact List.mem_cons_self ..
  obtain ⟨b, hb, hsettles⟩ := complete_pending hsound hquery source
  refine ⟨a, b, ha, hb, hsettles.sound, hsettles.same.trans hids, ?_⟩
  rw [hsettles.pending, hpending, List.filter_cons_of_neg (by simp), List.filter_eq_self]
  intro operationId hmem
  rw [decide_eq_true_eq, List.mem_singleton]
  rintro rfl
  exact (List.nodup_cons.1 hnodup).1 hmem

theorem unprepared_returns {task : InteractiveTaskWork} {frozen : Except PyError FrozenMapping}
    (htask : request.val.task = some task) (source : ν)
    (hfrozen : ∃ details, frozen = .ok details) :
    Returns (fun b _ => b.Sound ∧ b.operationIds = initialOperationIds request) (do
      let a ← own (PartialAggregator.of [queryId request, taskPreparationId task])
      let a ← own (a.complete (queryId request) source)
      let frozen ← own frozen
      own (a.omitOperation (taskPreparationId task) .validationFailed frozen .omitted)) n := by
  have hinitial : initialOperationIds request = [queryId request, taskPreparationId task] := by
    unfold initialOperationIds
    rw [htask]
  have hids := initialOperationIds_sound request
  rw [hinitial] at hids ⊢
  obtain ⟨a, b, ha, hb, hsound, hoperations, hpending⟩ := completed_query source hids.2.1 hids.2.2
  obtain ⟨details, hdetails⟩ := hfrozen
  obtain ⟨c, hc, hsettles⟩ := omit_pending hsound
    (by rw [hpending]; exact List.mem_singleton_self _)
    (by decide : InteractiveTerminalReason.validationFailed ≠ .complete) details
    (by decide : InteractiveOperationState.omitted ≠ .completed)
  refine ⟨c, n, ?_, hsettles.sound, hsettles.same.trans hoperations⟩
  rw [own_bind_exec ha, own_bind_exec hb, own_bind_exec hdetails, hc]
  rfl

theorem runTaskRequest_returns (haware : ∀ n, (ports.clock n).aware = true)
    (hdeadline : deadline.aware = true) (hleft : TimeLeft ports deadline 1)
    {task : InteractiveTaskWork} (htask : request.val.task = some task) {source : ν}
    (hread : ports.read = .returned source) (h : WorkAnswerable ports deadline request) :
    Returns (fun b _ => b.Sound ∧ b.operationIds = requestedOperations ports deadline request)
      (runTaskRequest ports deadline request task source) 2 := by
  unfold WorkAnswerable at h
  unfold runTaskRequest requestedOperations
  rw [htask] at h ⊢
  rw [hread]
  cases hprepare : ports.prepare with
  | none => exact unprepared_returns htask source unavailableDetails_returns
  | some prepare =>
    rw [hprepare] at h
    rcases prepare with escape | failure | prepared
    · exact h.elim
    · exact unprepared_returns htask source (taskFailureDetails_returns failure)
    · obtain ⟨hnodup, hnamed⟩ := packedOperationIds_sound request prepared
      obtain ⟨a, b, ha, hb, hsound, hoperations, hpending⟩ := completed_query source hnodup hnamed
      obtain ⟨c, m, hc, hend, hsame⟩ := models_returns haware hdeadline (packIds_nodup prepared)
        hsound (fun operationId hmem => by rwa [hpending]) h
      refine ⟨c, m, ?_, hend, ?_⟩
      · change (own (PartialAggregator.of _) >>= fun a => own (a.complete _ source) >>= fun a =>
          runTaskModels ports deadline prepared a).exec 2 = _
        rw [own_bind_exec ha, own_bind_exec hb]
        exact hc
      · simp only [if_pos hleft]
        exact hsame.trans hoperations

theorem runTaskRequest_raises (haware : ∀ n, (ports.clock n).aware = true)
    (hdeadline : deadline.aware = true) {task : InteractiveTaskWork}
    (htask : request.val.task = some task) {source : ν}
    (h : ¬WorkAnswerable ports deadline request) :
    Raises (runTaskRequest ports deadline request task source) 2 := by
  unfold WorkAnswerable at h
  unfold runTaskRequest
  rw [htask] at h
  cases hprepare : ports.prepare with
  | none =>
    rw [hprepare] at h
    exact absurd trivial h
  | some prepare =>
    rw [hprepare] at h
    rcases prepare with escape | failure | prepared
    · exact ⟨escape, 2, rfl⟩
    · exact absurd trivial h
    · obtain ⟨hnodup, hnamed⟩ := packedOperationIds_sound request prepared
      obtain ⟨a, b, ha, hb, hsound, -, hpending⟩ := completed_query source hnodup hnamed
      obtain ⟨e, m, he⟩ := models_raises haware hdeadline (packIds_nodup prepared)
        hsound (fun operationId hmem => by rwa [hpending]) h
      refine ⟨e, m, ?_⟩
      change (own (PartialAggregator.of _) >>= fun a => own (a.complete _ source) >>= fun a =>
        runTaskModels ports deadline prepared a).exec 2 = _
      rw [own_bind_exec ha, own_bind_exec hb]
      exact he

/-- The first aggregator, before anything is settled. -/
structure Initial (request : InteractiveRequest) (a : PartialAggregator ν) : Prop where
  sound : a.Sound
  operations : a.operationIds = initialOperationIds request
  pending : a.pending = initialOperationIds request

theorem Initial.query_pending (h : Initial request a) : queryId request ∈ a.pending := by
  rw [h.pending]
  unfold initialOperationIds
  split
  · exact List.mem_cons_self ..
  · exact List.mem_cons_self ..

theorem requestedOperations_of_not_returned (h : ∀ source, ports.read ≠ .returned source) :
    requestedOperations ports deadline request = initialOperationIds request := by
  unfold requestedOperations
  split
  · next hread _ => exact absurd hread (h _)
  · rfl

theorem requestedOperations_legacy (h : request.val.task = none) :
    requestedOperations ports deadline request = queryId request :: modelIds request := by
  unfold requestedOperations initialOperationIds
  rw [h]

theorem runModels_ready (h : Initial request a) (htask : request.val.task = none) (source : ν) :
    ∃ b, a.complete (queryId request) source = .ok b ∧ b.Sound ∧
      b.operationIds = queryId request :: modelIds request ∧
      ∀ operationId ∈ modelIds request, operationId ∈ b.pending := by
  have hinitial : initialOperationIds request = queryId request :: modelIds request := by
    unfold initialOperationIds
    rw [htask]
  obtain ⟨b, hb, hsettles⟩ := complete_pending h.sound h.query_pending source
  refine ⟨b, hb, hsettles.sound, hsettles.same.trans (h.operations.trans hinitial), ?_⟩
  intro operationId hmem
  rw [hsettles.mem_pending, h.pending, hinitial, List.mem_singleton]
  refine ⟨List.mem_cons_of_mem _ hmem, ?_⟩
  rintro rfl
  obtain ⟨index, work, he⟩ := modelIds_mem hmem
  exact query_ne_model request he.symm

theorem dependents_omitted (h : Initial request a) {error : InteractiveError}
    (herror : Describable error) :
    ∃ b c, omitRaised (queryId request) error a = .ok b ∧
      omitAll .dependencyFailed .omitted b.pending b = .ok c ∧ c.Sound ∧
      c.operationIds = initialOperationIds request := by
  obtain ⟨b, hb, hsettles⟩ := omitRaised_returns herror h.sound h.query_pending
  obtain ⟨c, hc, hsettles'⟩ := omitAll_pending
    (by decide : InteractiveTerminalReason.dependencyFailed ≠ .complete)
    (by decide : InteractiveOperationState.omitted ≠ .completed)
    (hsettles.sound.nodup.filter _) hsettles.sound fun _ hmem => hmem
  exact ⟨b, c, hb, hc, hsettles'.sound, hsettles'.same.trans (hsettles.same.trans h.operations)⟩

theorem work_returns (haware : ∀ n, (ports.clock n).aware = true)
    (hdeadline : deadline.aware = true) (hleft : TimeLeft ports deadline 1)
    (hinitial : Initial request a) (hread : Answerable ports.read)
    (hwork : ∀ source, ports.read = .returned source → WorkAnswerable ports deadline request) :
    Returns (fun b _ => b.Sound ∧ b.operationIds = requestedOperations ports deadline request)
      (work ports deadline request a) 2 := by
  unfold work
  cases hend : ports.read with
  | unfinished =>
    obtain ⟨b, hb, hsound, hsame, -⟩ := finalize_returns hinitial.sound
      (by decide : InteractiveTerminalReason.deadlineExceeded ≠ .complete)
    refine own_returns hb ⟨hsound, ?_⟩
    rw [requestedOperations_of_not_returned fun source h => by rw [hend] at h; cases h]
    exact hsame.trans hinitial.operations
  | cancelled =>
    rw [hend] at hread
    exact hread.elim
  | raised error =>
    rw [hend] at hread
    obtain ⟨b, c, hb, hc, hsound, hsame⟩ := dependents_omitted hinitial hread
    refine ⟨c, 2, ?_, hsound, ?_⟩
    · dsimp only
      rw [own_bind_exec hb, hc]
      rfl
    · rw [requestedOperations_of_not_returned fun source h => by rw [hend] at h; cases h]
      exact hsame
  | returned source =>
    have hanswer := hwork source hend
    cases htask : request.val.task with
    | none =>
      unfold WorkAnswerable at hanswer
      rw [htask] at hanswer
      obtain ⟨b, hb, hsound, hsame, hpending⟩ := runModels_ready hinitial htask source
      obtain ⟨c, m, hc, hsound', hsame'⟩ :=
        models_returns haware hdeadline (modelIds_nodup request) hsound hpending hanswer
      refine ⟨c, m, (own_bind_exec hb _).trans hc, hsound', ?_⟩
      rw [requestedOperations_legacy htask]
      exact hsame'.trans hsame
    | some task => exact runTaskRequest_returns haware hdeadline hleft htask hend hanswer

theorem work_raises (haware : ∀ n, (ports.clock n).aware = true)
    (hdeadline : deadline.aware = true) (hinitial : Initial request a)
    (hnot : ¬(Answerable ports.read ∧
      ∀ source, ports.read = .returned source → WorkAnswerable ports deadline request)) :
    Raises (work ports deadline request a) 2 := by
  unfold work
  cases hend : ports.read with
  | unfinished =>
    rw [hend] at hnot
    exact absurd ⟨trivial, fun _ h => by cases h⟩ hnot
  | cancelled => exact raises_throw _ _
  | raised error =>
    rw [hend] at hnot
    refine raises_bind (own_raises (omitRaised_raises ?_ _))
    intro herror
    exact hnot ⟨herror, fun _ h => by cases h⟩
  | returned source =>
    rw [hend] at hnot
    have hanswer : ¬WorkAnswerable ports deadline request := fun h => hnot ⟨trivial, fun _ _ => h⟩
    cases htask : request.val.task with
    | none =>
      unfold WorkAnswerable at hanswer
      rw [htask] at hanswer
      obtain ⟨b, hb, hsound, -, hpending⟩ := runModels_ready hinitial htask source
      obtain ⟨e, m, he⟩ :=
        models_raises haware hdeadline (modelIds_nodup request) hsound hpending hanswer
      exact ⟨e, m, (own_bind_exec hb _).trans he⟩
    | some task => exact runTaskRequest_raises haware hdeadline htask hanswer

end Responses

end InteractiveCoordinator

open InteractiveCoordinator Program PartialAggregator

/-- The execution of a request with a deadline, over clock readings that have a time zone,
returns one response that splits the requested operations, exactly where it is handled. -/
theorem exact_responses_iff {ν : Type} (ports : InteractivePorts ν)
    (haware : ∀ n, (ports.clock n).aware = true) (request : InteractiveRequest)
    (context : ExecutionContext) (deadline : DateTime)
    (hdeadline : context.timing.val.deadline = some deadline) :
    Returns (fun response _ => ExactPartition (requestedOperations ports deadline request) response)
      (execute ports request context) 0 ↔ Handled ports deadline request := by
  obtain ⟨hne, hnodup, hnamed⟩ := initialOperationIds_sound request
  obtain ⟨a, ha, hsound, hids, hpending⟩ := of_returns (ν := ν) hne hnodup hnamed
  have hinitial : Initial request a := ⟨hsound, hids, hpending⟩
  -- up to the first decision, the clock was read twice
  have hexec : (execute ports request context).exec 0 = (do
      let left ← remaining ports deadline
      let a ← if left - responseReserve ports ≤ 0 then own (a.finalizePending .deadlineExceeded)
        else work ports deadline request a
      respond ports deadline request context a).exec 1 := by
    unfold execute
    rw [hdeadline]
    dsimp only
    rw [own_bind_exec ha]
    rfl
  have hmoved (R : InteractiveResponse ν → Nat → Prop) :
      Returns R (execute ports request context) 0 ↔ Returns R (do
        let left ← remaining ports deadline
        let a ← if left - responseReserve ports ≤ 0 then own (a.finalizePending .deadlineExceeded)
          else work ports deadline request a
        respond ports deadline request context a) 1 := by
    unfold Returns
    rw [hexec]
  rw [hmoved]
  cases hzone : deadline.aware with
  | false =>
    have hraises := remaining_raises (haware 1) hzone
    refine ⟨fun h => absurd h (raises_bind hraises).not_returns, fun h => ?_⟩
    rw [h.1] at hzone
    cases hzone
  | true =>
    have hleft : Returns (fun left n => n = 2 ∧
        left = max (deadline.instant - (ports.clock 1).instant) 0) (remaining ports deadline) 1 :=
      remaining_returns (haware 1) hzone ⟨rfl, rfl⟩
    by_cases htime : TimeLeft ports deadline 1
    · have hpositive : ¬max (deadline.instant - (ports.clock 1).instant) 0 -
          responseReserve ports ≤ 0 := by
        unfold TimeLeft at htime
        omega
      constructor
      · intro h
        refine ⟨hzone, fun _ => ?_⟩
        by_contra hnot
        refine (raises_after hleft ?_ : Raises _ 1).not_returns h
        rintro left n ⟨rfl, rfl⟩
        rw [if_neg hpositive]
        exact raises_bind (work_raises haware hzone hinitial hnot)
      · intro h
        refine returns_bind hleft ?_
        rintro left n ⟨rfl, rfl⟩
        rw [if_neg hpositive]
        refine returns_bind
          (work_returns haware hzone htime hinitial (h.2 htime).1 (h.2 htime).2) ?_
        rintro b n ⟨hb, hoperations⟩
        rw [← hoperations]
        exact respond_returns haware hzone hb
    · have hnone : max (deadline.instant - (ports.clock 1).instant) 0 -
          responseReserve ports ≤ 0 := by
        unfold TimeLeft at htime
        omega
      refine ⟨fun _ => ⟨hzone, fun h => absurd h htime⟩, fun _ => ?_⟩
      refine returns_bind hleft ?_
      rintro left n ⟨rfl, rfl⟩
      rw [if_pos hnone]
      obtain ⟨b, hb, hsound', hsame, -⟩ := finalize_returns hsound
        (by decide : InteractiveTerminalReason.deadlineExceeded ≠ .complete)
      have hrequested : requestedOperations ports deadline request = b.operationIds := by
        rw [hsame, hids]
        unfold requestedOperations
        split
        · rw [if_neg htime]
        · rfl
      rw [hrequested]
      refine returns_bind (own_returns (Q := fun c _ => c = b) hb rfl) ?_
      rintro c n rfl
      exact respond_returns haware hzone hsound'

namespace Sample

def interactiveRequest : InteractiveRequest := ⟨{
  requestId := "request-a"
  query := ⟨⟨"plan-1", []⟩, by decide +kernel⟩
  modelWork := [modelWork] }, by decide +kernel⟩

/-- The sample request may run until 1000. -/
def timedContext : ExecutionContext :=
  { interactiveContext requestA with timing := ⟨⟨time 0, some (time 1000)⟩, rfl⟩ }

/-- The clock stands still and the read returns; the model operation ends as given. -/
def interactivePorts (ends : Awaited Nat) : InteractivePorts Nat where
  responseReserveMs := 0
  clock _ := time 0
  read := .returned 0
  prepare := none
  modelOperation _ := ends
  doneOrder operationIds := operationIds
  doneOrder_perm := List.Perm.refl

end Sample

theorem exact_responses_iff_sample : Returns (fun response _ => ExactPartition
    (requestedOperations (Sample.interactivePorts .unfinished) (Sample.time 1000)
      Sample.interactiveRequest) response)
    (execute (Sample.interactivePorts .unfinished) Sample.interactiveRequest
      Sample.timedContext) 0 :=
  (exact_responses_iff (Sample.interactivePorts .unfinished) (fun _ => rfl)
    Sample.interactiveRequest Sample.timedContext (Sample.time 1000) rfl).2
    ⟨rfl, fun _ => ⟨trivial, fun _ _ _ _ => trivial⟩⟩

/-- A model operation that ends in a cancellation of its own leaves the request without a
response. -/
theorem response_missing : ¬Returns (fun response _ => ExactPartition
    (requestedOperations (Sample.interactivePorts .cancelled) (Sample.time 1000)
      Sample.interactiveRequest) response)
    (execute (Sample.interactivePorts .cancelled) Sample.interactiveRequest
      Sample.timedContext) 0 := by
  have hraises : Raises (execute (Sample.interactivePorts .cancelled) Sample.interactiveRequest
      Sample.timedContext) 0 := ⟨.cancelled, 4, rfl⟩
  exact hraises.not_returns

end AiRetrieval
