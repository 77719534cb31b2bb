import AiRetrieval.Proofs.TerminalReports

/-! The terminal report of a job partitions its items by their states, whatever the order they
are given in. -/

namespace AiRetrieval

open WorkRepository

section Groups

variable {jobId : String} {items items' : List TerminalWorkItemRecord} {cause : JobTerminalCause}
  {completedAt : DateTime} {report : TerminalJobReport}

def stateGroup (items : List TerminalWorkItemRecord) (state : TerminalWorkItemState) :
    TerminalStateGroup.Fields := ⟨state, (groupIds items state).length, groupIds items state⟩

/-- Items that can be reported: some, all of the job, no two with one identifier. -/
structure Reportable (jobId : String) (items : List TerminalWorkItemRecord) : Prop where
  nonempty : items ≠ []
  oneJob : ∀ item ∈ items, item.val.jobId = jobId
  distinct : (items.map (·.val.itemId)).Nodup

theorem buildTerminalReport_ok
    (h : buildTerminalReport jobId items cause completedAt = .ok report) :
    Reportable jobId items ∧
      report.val.groups.map (·.val) = TerminalWorkItemState.all.map (stateGroup items) ∧
      classifyTerminalJob (items.map (·.val.state)) cause = .ok report.val.classification ∧
      report.val.jobId = jobId ∧ report.val.totalCount = items.length ∧
      report.val.terminalCause = cause ∧ report.val.completedAt = completedAt := by
  unfold buildTerminalReport at h
  simp only [except_seq_eq_ok, require_eq_ok] at h
  obtain ⟨hne, hjob, hnodup, h⟩ := h
  obtain ⟨groups, hgroups, h⟩ := except_bind_eq_ok.1 h
  obtain ⟨classification, hclassification, h⟩ := except_bind_eq_ok.1 h
  have hreport := Checked.make_eq_ok.1 h
  rw [hreport]
  refine ⟨⟨hne, hjob, hnodup⟩, ?_, hclassification, rfl, rfl, rfl, rfl⟩
  have hfields : List.Forall₂ (fun state group => group.val = stateGroup items state)
      TerminalWorkItemState.all groups :=
    (except_mapM_ok_iff.1 hgroups).imp fun state group hgroup => Checked.make_eq_ok.1 hgroup
  have hsame : List.Forall₂ Eq (TerminalWorkItemState.all.map (stateGroup items))
      (groups.map (·.val)) :=
    List.forall₂_map_left_iff.2 (List.forall₂_map_right_iff.2 (hfields.imp fun _ _ h => h.symm))
  rw [List.forall₂_eq_eq_eq] at hsame
  exact hsame.symm

theorem buildTerminalReport_ok_iff :
    (∃ report, buildTerminalReport jobId items cause completedAt = .ok report) ↔
      Reportable jobId items := by
  constructor
  · rintro ⟨report, h⟩
    exact (buildTerminalReport_ok h).1
  · intro h
    obtain ⟨report, hreport, -⟩ := buildTerminalReport_returns h.nonempty h.oneJob h.distinct
      cause completedAt
    exact ⟨report, hreport⟩

theorem groupIds_sorted (items : List TerminalWorkItemRecord) (state : TerminalWorkItemState) :
    (groupIds items state).Pairwise fun a b => a ≤ b :=
  List.pairwise_insertionSort _ _

theorem mem_groupIds {state : TerminalWorkItemState} {itemId : String} :
    itemId ∈ groupIds items state ↔
      ∃ item ∈ items, item.val.state = state ∧ item.val.itemId = itemId := by
  rw [(groupIds_perm items state).mem_iff, List.mem_map]
  simp only [List.mem_filter, decide_eq_true_eq, and_assoc]

theorem groupIds_of_perm (h : items.Perm items') (state : TerminalWorkItemState) :
    groupIds items state = groupIds items' state := by
  have hperm : (groupIds items state).Perm (groupIds items' state) :=
    (groupIds_perm items state).trans (((h.filter _).map _).trans (groupIds_perm items' state).symm)
  exact hperm.eq_of_pairwise (fun _ _ _ _ => String.le_antisymm) (groupIds_sorted items state)
    (groupIds_sorted items' state)

theorem classifyTerminalJob_of_perm {states states' : List TerminalWorkItemState}
    (h : states.Perm states') (cause : JobTerminalCause) :
    classifyTerminalJob states cause = classifyTerminalJob states' cause := by
  have hempty : states.isEmpty = states'.isEmpty := by
    rw [Bool.eq_iff_iff, List.isEmpty_iff, List.isEmpty_iff]
    exact ⟨fun hnil => (hnil ▸ h).symm.eq_nil, fun hnil => (hnil ▸ h).eq_nil⟩
  unfold classifyTerminalJob countState
  rw [hempty, h.countP_eq, h.length_eq]

theorem require_congr {p q : Prop} [Decidable p] [Decidable q] (h : p ↔ q) (e : PyError) :
    require p e = require q e := by
  unfold require
  by_cases hp : p
  · rw [if_pos hp, if_pos (h.1 hp)]
  · rw [if_neg hp, if_neg fun hq => hp (h.2 hq)]

/-- Permuting the items changes nothing, neither the report nor what is raised. -/
theorem buildTerminalReport_of_perm (h : items.Perm items') (jobId : String)
    (cause : JobTerminalCause) (completedAt : DateTime) :
    buildTerminalReport jobId items cause completedAt =
      buildTerminalReport jobId items' cause completedAt := by
  have hnonempty : items ≠ [] ↔ items' ≠ [] := by
    rw [← List.length_pos_iff, ← List.length_pos_iff, h.length_eq]
  have hjob : (∀ item ∈ items, item.val.jobId = jobId) ↔ ∀ item ∈ items', item.val.jobId = jobId :=
    forall_congr' fun item => imp_congr_left h.mem_iff
  have hdistinct := (h.map fun item => item.val.itemId).nodup_iff
  have hgroups : terminalStateGroup items = terminalStateGroup items' := by
    funext state
    change Checked.make _ (stateGroup items state) = Checked.make _ (stateGroup items' state)
    rw [stateGroup, stateGroup, groupIds_of_perm h]
  unfold buildTerminalReport
  rw [require_congr hnonempty, require_congr hjob, require_congr hdistinct, hgroups,
    classifyTerminalJob_of_perm (h.map _) cause, h.length_eq]

end Groups

/-- What a cause says of a job none of whose items succeeded. -/
def JobTerminalCause.classification : JobTerminalCause → TerminalJobClassification
  | .budgetExhausted => .budgetExhausted
  | .cancelled => .cancelled
  | .completed => .failed

/-- The classification of a job: succeeded where all its items are, partially where some are, and
otherwise what the cause says. -/
structure Classifies (items : List TerminalWorkItemRecord) (cause : JobTerminalCause)
    (classification : TerminalJobClassification) : Prop where
  succeeded : classification = .succeeded ↔ ∀ item ∈ items, item.val.state = .succeeded
  partially : classification = .partiallySucceeded ↔
    (∃ item ∈ items, item.val.state = .succeeded) ∧ ∃ item ∈ items, item.val.state ≠ .succeeded
  otherwise : (∀ item ∈ items, item.val.state ≠ .succeeded) →
    classification = cause.classification

structure ReportsPartition (items : List TerminalWorkItemRecord) (cause : JobTerminalCause)
    (report : TerminalJobReport) : Prop where
  states : report.val.groups.map (·.val.state) = TerminalWorkItemState.all
  sorted : ∀ group ∈ report.val.groups, group.val.itemIds.Pairwise fun a b => a ≤ b
  members : ∀ group ∈ report.val.groups, group.val.itemIds.Perm
    ((items.filter fun item => item.val.state = group.val.state).map (·.val.itemId))
  onceEach : ∀ item ∈ items, ∃ group ∈ report.val.groups, item.val.itemId ∈ group.val.itemIds ∧
    ∀ other ∈ report.val.groups, item.val.itemId ∈ other.val.itemIds → other = group
  counts : ∀ group ∈ report.val.groups, group.val.count = group.val.itemIds.length
  total : (report.val.groups.map (·.val.count)).sum = report.val.totalCount ∧
    report.val.totalCount = items.length
  classification : Classifies items cause report.val.classification

section Partition

variable {jobId : String} {items : List TerminalWorkItemRecord} {cause : JobTerminalCause}
  {completedAt : DateTime} {report : TerminalJobReport}

theorem classifyTerminalJob_classifies {classification : TerminalJobClassification}
    (hne : items ≠ [])
    (h : classifyTerminalJob (items.map (·.val.state)) cause = .ok classification) :
    Classifies items cause classification := by
  have hall : countState (items.map (·.val.state)) .succeeded = (items.map (·.val.state)).length ↔
      ∀ item ∈ items, item.val.state = .succeeded := by
    rw [countState, List.countP_eq_length, List.forall_mem_map]
    simp only [decide_eq_true_eq]
  have hsome : countState (items.map (·.val.state)) .succeeded ≠ 0 ↔
      ∃ item ∈ items, item.val.state = .succeeded := by
    rw [countState, ← Nat.pos_iff_ne_zero, List.countP_pos_iff]
    simp only [List.mem_map, decide_eq_true_eq, exists_exists_and_eq_and]
  obtain ⟨first, hfirst⟩ := List.exists_mem_of_ne_nil items hne
  unfold classifyTerminalJob at h
  rw [if_neg (by simpa using hne)] at h
  split at h
  · next hsucceeded =>
    rw [hall] at hsucceeded
    cases h
    refine ⟨iff_of_true rfl hsucceeded, iff_of_false (fun h => (by cases h)) ?_, ?_⟩
    · rintro ⟨-, item, hitem, hnot⟩
      exact hnot (hsucceeded item hitem)
    · exact fun hnone => absurd (hsucceeded first hfirst) (hnone first hfirst)
  · next hnotAll =>
    rw [hall] at hnotAll
    have hother : ∃ item ∈ items, item.val.state ≠ .succeeded := by
      by_contra hnone
      exact hnotAll fun item hitem => not_not.1 fun hne => hnone ⟨item, hitem, hne⟩
    split at h
    · next hsomething =>
      rw [hsome] at hsomething
      cases h
      refine ⟨iff_of_false (fun h => (by cases h)) hnotAll,
        iff_of_true rfl ⟨hsomething, hother⟩, ?_⟩
      intro hnone
      obtain ⟨item, hitem, hsucceeded⟩ := hsomething
      exact absurd hsucceeded (hnone item hitem)
    · next hnotSome =>
      rw [hsome] at hnotSome
      have hcause : classification = cause.classification := by
        cases cause with
        | completed => cases h; rfl
        | budgetExhausted => cases h; rfl
        | cancelled => cases h; rfl
      refine ⟨iff_of_false ?_ hnotAll, iff_of_false ?_ fun h => hnotSome h.1, fun _ => hcause⟩
      · rw [hcause]
        cases cause <;> exact fun h => (by cases h)
      · rw [hcause]
        cases cause <;> exact fun h => (by cases h)

theorem group_eq (h : buildTerminalReport jobId items cause completedAt = .ok report)
    {group : TerminalStateGroup} (hgroup : group ∈ report.val.groups) :
    group.val = stateGroup items group.val.state := by
  have hmem : group.val ∈ TerminalWorkItemState.all.map (stateGroup items) := by
    rw [← (buildTerminalReport_ok h).2.1]
    exact List.mem_map_of_mem hgroup
  obtain ⟨state, -, hstate⟩ := List.mem_map.1 hmem
  rw [← hstate]
  rfl

theorem group_exists (h : buildTerminalReport jobId items cause completedAt = .ok report)
    (state : TerminalWorkItemState) :
    ∃ group ∈ report.val.groups, group.val = stateGroup items state := by
  have hmem : stateGroup items state ∈ report.val.groups.map (·.val) := by
    rw [(buildTerminalReport_ok h).2.1]
    exact List.mem_map_of_mem (TerminalWorkItemState.mem_all state)
  obtain ⟨group, hgroup, hval⟩ := List.mem_map.1 hmem
  exact ⟨group, hgroup, hval⟩

theorem buildTerminalReport_partition
    (h : buildTerminalReport jobId items cause completedAt = .ok report) :
    ReportsPartition items cause report := by
  obtain ⟨hreportable, hgroups, hclassification, -, htotal, -, -⟩ := buildTerminalReport_ok h
  refine ⟨?_, ?_, ?_, ?_, ?_, ⟨?_, htotal⟩,
    classifyTerminalJob_classifies hreportable.nonempty hclassification⟩
  · have hstates := congrArg (List.map TerminalStateGroup.Fields.state) hgroups
    rw [List.map_map, List.map_map] at hstates
    exact hstates.trans (List.map_id _)
  · intro group hgroup
    rw [group_eq h hgroup]
    exact groupIds_sorted items _
  · intro group hgroup
    have hperm := groupIds_perm items group.val.state
    rwa [show groupIds items group.val.state = group.val.itemIds by rw [group_eq h hgroup]; rfl]
      at hperm
  · intro item hitem
    obtain ⟨group, hgroup, hval⟩ := group_exists h item.val.state
    refine ⟨group, hgroup, ?_, ?_⟩
    · rw [hval]
      exact mem_groupIds.2 ⟨item, hitem, rfl, rfl⟩
    · intro other hother hin
      rw [group_eq h hother] at hin
      obtain ⟨found, hfound, hstate, hid⟩ := mem_groupIds.1 hin
      have hsame := List.inj_on_of_nodup_map hreportable.distinct hfound hitem hid
      rw [hsame] at hstate
      refine Checked.ext ?_
      rw [hval, group_eq h hother, ← hstate]
  · intro group hgroup
    rw [group_eq h hgroup]
    rfl
  · have hcounts := congrArg (List.map TerminalStateGroup.Fields.count) hgroups
    rw [List.map_map, List.map_map] at hcounts
    have hlength := (groupIds_partition items).length_eq
    rw [List.length_flatMap, List.length_map] at hlength
    rw [htotal, ← hlength]
    exact congrArg List.sum hcounts

/-- A report is built exactly for some items of one job with distinct identifiers; it partitions
them by their states, and does not depend on their order. -/
theorem terminal_report_partition (jobId : String) (items : List TerminalWorkItemRecord)
    (cause : JobTerminalCause) (completedAt : DateTime) :
    ((∃ error, buildTerminalReport jobId items cause completedAt = .error error) ↔
      items = [] ∨ (∃ item ∈ items, item.val.jobId ≠ jobId) ∨ ¬(items.map (·.val.itemId)).Nodup) ∧
    (∀ report, buildTerminalReport jobId items cause completedAt = .ok report →
      ReportsPartition items cause report) ∧
    ∀ items', items.Perm items' → buildTerminalReport jobId items cause completedAt =
      buildTerminalReport jobId items' cause completedAt := by
  refine ⟨?_, fun report => buildTerminalReport_partition,
    fun items' h => buildTerminalReport_of_perm h jobId cause completedAt⟩
  have hraises : (∃ error, buildTerminalReport jobId items cause completedAt = .error error) ↔
      ¬Reportable jobId items := by
    rw [← @buildTerminalReport_ok_iff jobId items cause completedAt]
    cases buildTerminalReport jobId items cause completedAt with
    | error e => exact iff_of_true ⟨e, rfl⟩ fun ⟨report, h⟩ => (by cases h)
    | ok report => exact iff_of_false (fun ⟨e, h⟩ => (by cases h)) fun h => h ⟨report, rfl⟩
  rw [hraises]
  constructor
  · intro h
    by_contra hnone
    rw [not_or, not_or, not_not] at hnone
    refine h ⟨hnone.1, fun item hitem => ?_, hnone.2.2⟩
    exact not_not.1 fun hne => hnone.2.1 ⟨item, hitem, hne⟩
  · rintro (hempty | ⟨item, hitem, hne⟩ | hdistinct) h
    · exact h.nonempty hempty
    · exact hne (h.oneJob item hitem)
    · exact hdistinct h.distinct

end Partition

end AiRetrieval
