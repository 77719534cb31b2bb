import AiRetrieval.Spec.InteractiveRecords

/-! The aggregator settles each requested operation at most once, and when none is pending its
two listings split the requested operations. -/

namespace AiRetrieval.PartialAggregator

variable {ν : Type} {a b c : PartialAggregator ν}

/-- No operation is settled twice, and what is settled was requested. -/
structure Sound (a : PartialAggregator ν) : Prop where
  nodup : a.operationIds.Nodup
  named : ∀ operationId ∈ a.operationIds, blank operationId = false
  disjoint : ∀ operationId, a.results.contains operationId = true →
    a.incomplete.contains operationId = false
  requested : ∀ operationId item, a.incomplete.get? operationId = some item →
    operationId ∈ a.operationIds ∧ item.val.operationId = operationId ∧
      item.val.reason ≠ .complete

structure Settles (operationIds : List String) (a b : PartialAggregator ν) : Prop where
  sound : b.Sound
  same : b.operationIds = a.operationIds
  pending : b.pending = a.pending.filter fun operationId => operationId ∉ operationIds

theorem Settles.refl (h : a.Sound) : Settles [] a a := by
  refine ⟨h, rfl, ?_⟩
  rw [List.filter_eq_self.2]
  simp

theorem Settles.trans {first second : List String} (h : Settles first a b)
    (h' : Settles second b c) : Settles (first ++ second) a c := by
  refine ⟨h'.sound, h'.same.trans h.same, ?_⟩
  rw [h'.pending, h.pending, List.filter_filter]
  apply List.filter_congr
  intro operationId _
  simp only [List.mem_append, not_or, Bool.decide_and, Bool.and_comm]

theorem Settles.mem_pending {operationIds : List String} (h : Settles operationIds a b)
    {operationId : String} :
    operationId ∈ b.pending ↔ operationId ∈ a.pending ∧ operationId ∉ operationIds := by
  rw [h.pending, List.mem_filter, decide_eq_true_eq]

theorem mem_pending {operationId : String} :
    operationId ∈ a.pending ↔ operationId ∈ a.operationIds ∧
      a.results.contains operationId = false ∧ a.incomplete.contains operationId = false := by
  unfold pending
  rw [List.mem_filter, Bool.and_eq_true, Bool.not_eq_true', Bool.not_eq_true']

theorem of_returns {operationIds : List String} (hne : operationIds ≠ [])
    (hnodup : operationIds.Nodup) (hnamed : ∀ operationId ∈ operationIds,
      blank operationId = false) :
    ∃ a : PartialAggregator ν, of operationIds = .ok a ∧ a.Sound ∧
      a.operationIds = operationIds ∧ a.pending = operationIds := by
  refine ⟨⟨operationIds, .empty, .empty⟩, ?_, ⟨hnodup, hnamed, ?_, ?_⟩, rfl, ?_⟩
  · unfold of
    rw [require_of ⟨hne, hnodup⟩]
    rfl
  · intro operationId h
    cases h
  · intro operationId item h
    cases h
  · unfold pending
    rw [List.filter_eq_self.2]
    intro operationId _
    rfl

theorem requirePending_of_pending {operationId : String} (h : operationId ∈ a.pending) :
    a.requirePending operationId = .ok () := by
  obtain ⟨hmem, hresults, hincomplete⟩ := mem_pending.1 h
  unfold requirePending
  rw [require_of hmem]
  exact require_of ⟨hresults, hincomplete⟩

theorem complete_pending (h : a.Sound) {operationId : String} (hid : operationId ∈ a.pending)
    (value : ν) : ∃ b, a.complete operationId value = .ok b ∧ Settles [operationId] a b := by
  refine ⟨{ a with results := a.results.insert operationId value }, ?_, ⟨h.nodup, h.named,
    ?_, h.requested⟩, rfl, ?_⟩
  · unfold complete
    rw [requirePending_of_pending hid]
    rfl
  · intro other hother
    replace hother : (a.results.insert operationId value).contains other = true := hother
    rw [Dict.contains_insert, Bool.or_eq_true, decide_eq_true_eq] at hother
    rcases hother with rfl | hother
    · exact (mem_pending.1 hid).2.2
    · exact h.disjoint other hother
  · unfold pending
    rw [List.filter_filter]
    apply List.filter_congr
    intro other _
    rw [Dict.contains_insert]
    by_cases he : other = operationId <;> simp [he]

theorem omit_pending (h : a.Sound) {operationId : String} (hid : operationId ∈ a.pending)
    {reason : InteractiveTerminalReason} (hreason : reason ≠ .complete) (details : FrozenMapping)
    {state : InteractiveOperationState} (hstate : state ≠ .completed) :
    ∃ b, a.omitOperation operationId reason details state = .ok b ∧
      Settles [operationId] a b := by
  have hmem := (mem_pending.1 hid).1
  have hitem : OperationIncompleteness.postInit ⟨operationId, state, reason, details⟩ = .ok () :=
    require_of ⟨h.named operationId hmem, hstate⟩
  refine ⟨{ a with incomplete := a.incomplete.insert operationId ⟨_, hitem⟩ }, ?_,
    ⟨h.nodup, h.named, ?_, ?_⟩, rfl, ?_⟩
  · unfold omitOperation
    rw [requirePending_of_pending hid, Checked.make_of_passed hitem]
    rfl
  · intro other hother
    rw [Dict.contains_insert, h.disjoint other hother, Bool.or_false, decide_eq_false_iff_not]
    rintro rfl
    rw [(mem_pending.1 hid).2.1] at hother
    cases hother
  · intro other item hother
    rw [Dict.get?_insert] at hother
    split at hother
    · next he =>
      cases hother
      subst he
      exact ⟨hmem, rfl, hreason⟩
    · exact h.requested other item hother
  · unfold pending
    rw [List.filter_filter]
    apply List.filter_congr
    intro other _
    rw [Dict.contains_insert]
    by_cases he : other = operationId <;> simp [he]

theorem omitAll_pending {reason : InteractiveTerminalReason} (hreason : reason ≠ .complete)
    {state : InteractiveOperationState} (hstate : state ≠ .completed)
    {operationIds : List String} (hnodup : operationIds.Nodup) (h : a.Sound)
    (hids : ∀ operationId ∈ operationIds, operationId ∈ a.pending) :
    ∃ b, omitAll reason state operationIds a = .ok b ∧ Settles operationIds a b := by
  induction operationIds generalizing a with
  | nil => exact ⟨a, rfl, .refl h⟩
  | cons operationId rest ih =>
    rw [List.nodup_cons] at hnodup
    rw [List.forall_mem_cons] at hids
    obtain ⟨b, hb, hsettles⟩ := omit_pending h hids.1 hreason [] hstate
    have hrest : ∀ other ∈ rest, other ∈ b.pending := by
      intro other hother
      rw [hsettles.mem_pending]
      refine ⟨hids.2 other hother, fun hmem => ?_⟩
      rw [List.mem_singleton] at hmem
      subst hmem
      exact hnodup.1 hother
    obtain ⟨c, hc, hsettles'⟩ := ih hnodup.2 hsettles.sound hrest
    refine ⟨c, ?_, hsettles.trans hsettles'⟩
    unfold omitAll
    rw [hb]
    exact hc

theorem finalize_returns (h : a.Sound) {reason : InteractiveTerminalReason}
    (hreason : reason ≠ .complete) :
    ∃ b, a.finalizePending reason = .ok b ∧ b.Sound ∧ b.operationIds = a.operationIds ∧
      b.pending = [] := by
  have hnodup : a.pending.Nodup := h.nodup.filter _
  obtain ⟨b, hb, hsettles⟩ := omitAll_pending hreason (by decide : (.incomplete :
    InteractiveOperationState) ≠ .completed) hnodup h fun _ hmem => hmem
  refine ⟨b, hb, hsettles.sound, hsettles.same, ?_⟩
  rw [hsettles.pending, List.filter_eq_nil_iff]
  simp

section Listings

theorem incomplete_iff (h : a.Sound) (hdone : a.pending = []) {operationId : String}
    (hid : operationId ∈ a.operationIds) :
    a.incomplete.contains operationId = !a.results.contains operationId := by
  have hnot : operationId ∉ a.pending := by rw [hdone]; exact List.not_mem_nil
  rw [mem_pending] at hnot
  cases hresults : a.results.contains operationId with
  | true => exact h.disjoint operationId hresults
  | false =>
    rw [Bool.not_false]
    by_contra hc
    exact hnot ⟨hid, hresults, by simpa using hc⟩

theorem included_operationIds : a.included.map (·.operationId) =
    a.operationIds.filter fun operationId => a.results.contains operationId := by
  unfold included Dict.contains
  induction a.operationIds with
  | nil => rfl
  | cons operationId rest ih =>
    cases hvalue : a.results.get? operationId with
    | none => simp [hvalue, ih]
    | some value => simp [hvalue, ih]

theorem incompleteness_operationIds (h : a.Sound) :
    a.incompleteness.map (·.val.operationId) =
      a.operationIds.filter fun operationId => a.incomplete.contains operationId := by
  unfold incompleteness Dict.contains
  induction a.operationIds with
  | nil => rfl
  | cons operationId rest ih =>
    cases hitem : a.incomplete.get? operationId with
    | none => simp [hitem, ih]
    | some item => simp [hitem, ih, (h.requested operationId item hitem).2.1]

theorem listings_split (h : a.Sound) (hdone : a.pending = []) :
    a.incompleteness.map (·.val.operationId) =
      a.operationIds.filter fun operationId => !a.results.contains operationId := by
  rw [incompleteness_operationIds h]
  apply List.filter_congr
  intro operationId hid
  rw [incomplete_iff h hdone hid]

theorem incompleteness_nil_iff (h : a.Sound) :
    a.incompleteness = [] ↔ a.incomplete.values = [] := by
  constructor
  · intro hnil
    rw [List.eq_nil_iff_forall_not_mem]
    intro item hitem
    obtain ⟨operationId, hget⟩ := (a.incomplete.mem_values_iff item).1 hitem
    have hmem : item ∈ a.incompleteness :=
      List.mem_filterMap.2 ⟨operationId, (h.requested operationId item hget).1, hget⟩
    rw [hnil] at hmem
    cases hmem
  · intro hnil
    rw [List.eq_nil_iff_forall_not_mem]
    intro item hitem
    obtain ⟨operationId, _, hget⟩ := List.mem_filterMap.1 hitem
    have hmem : item ∈ a.incomplete.values :=
      (a.incomplete.mem_values_iff item).2 ⟨operationId, hget⟩
    rw [hnil] at hmem
    cases hmem

theorem completeResult_eq (h : a.Sound) (hdone : a.pending = []) :
    a.completeResult = a.incompleteness.isEmpty := by
  unfold completeResult
  rw [hdone, List.isEmpty_nil, Bool.true_and, Bool.eq_iff_iff, List.isEmpty_iff,
    List.isEmpty_iff, incompleteness_nil_iff h]

theorem terminalReason_returns (h : a.Sound) : ∃ reason, a.terminalReason = .ok reason ∧
    (a.incompleteness.isEmpty = decide (reason = .complete)) := by
  have hreasons : ∀ reason ∈ a.incomplete.values.map (·.val.reason), reason ≠ .complete := by
    intro reason hmem
    obtain ⟨item, hitem, rfl⟩ := List.mem_map.1 hmem
    obtain ⟨operationId, hget⟩ := (a.incomplete.mem_values_iff item).1 hitem
    exact (h.requested operationId item hget).2.2
  unfold terminalReason
  dsimp only
  cases hvalues : a.incomplete.values with
  | nil =>
    refine ⟨.complete, rfl, ?_⟩
    rw [(incompleteness_nil_iff h).2 hvalues]
    rfl
  | cons item rest =>
    rw [hvalues] at hreasons
    have hne : a.incompleteness ≠ [] := by
      intro hnil
      rw [(incompleteness_nil_iff h).1 hnil] at hvalues
      cases hvalues
    rw [if_neg (by simp), if_neg fun hmem => hreasons _ hmem rfl]
    have hargmin : ((item :: rest).map (·.val.reason)).argmin
        (fun reason => reason.priority.getD 0) ≠ none := by
      rw [Ne, List.argmin_eq_none]
      exact List.cons_ne_nil _ _
    obtain ⟨reason, hreason⟩ := Option.ne_none_iff_exists'.1 hargmin
    rw [hreason]
    refine ⟨reason, rfl, ?_⟩
    have hmem := List.argmin_mem hreason
    rw [decide_eq_false (hreasons reason hmem), List.isEmpty_eq_false_iff]
    exact hne

end Listings

end AiRetrieval.PartialAggregator
