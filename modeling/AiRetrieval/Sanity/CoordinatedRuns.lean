import AiRetrieval.Sanity.Aggregation
import AiRetrieval.Sanity.FrozenValues
import AiRetrieval.Spec.InteractiveCoordinator

/-! Where the parts of `execute` return and where they raise. -/

namespace AiRetrieval.InteractiveCoordinator

open Program PartialAggregator

section Details

/-- What an exception carries as its failure code can be frozen. -/
def Describable : InteractiveError → Prop
  | .other _ _ (some code) => ∃ frozen, code.freeze = .ok frozen
  | _ => True

theorem freeze_texts (values : List String) : ∃ frozen, (texts values).freeze = .ok frozen :=
  ⟨_, PyValue.freeze_texts values⟩

theorem frozenDetails_returns_iff (items : List (String × PyValue)) :
    (∃ frozen, frozenDetails items = .ok frozen) ↔
      ∀ item ∈ items, ∃ frozen, item.2.freeze = .ok frozen :=
  PyValue.frozenDict_returns_iff items

theorem details_returns_iff (error : InteractiveError) :
    (∃ frozen, details error = .ok frozen) ↔ Describable error := by
  have htext (value : String) : ∃ frozen, (PyValue.str value).freeze = .ok frozen :=
    ⟨.str value, by rw [PyValue.freeze]⟩
  cases error with
  | budgetExhausted scopes =>
    simp only [details, frozenDetails_returns_iff, List.forall_mem_singleton, freeze_texts,
      Describable]
  | validationFailed reasons failedRuleIds =>
    simp only [details, frozenDetails_returns_iff, List.forall_mem_cons, freeze_texts,
      List.not_mem_nil, false_imp_iff, implies_true, and_true, Describable]
  | taskFailed failure =>
    have hmapping : ∃ frozen, (PyValue.frozenMapping failure.val.details).freeze = .ok frozen :=
      ⟨.mapping failure.val.details, by rw [PyValue.freeze]⟩
    simp only [details, taskFailureDetails, frozenDetails_returns_iff, List.forall_mem_cons,
      freeze_texts, htext, hmapping, List.not_mem_nil, false_imp_iff, implies_true, and_true,
      Describable]
  | securityRejection code =>
    simp only [details, frozenDetails_returns_iff, List.forall_mem_singleton, htext, Describable]
  | dataAccessRejection code =>
    simp only [details, frozenDetails_returns_iff, List.forall_mem_singleton, htext, Describable]
  | other typeName reason failureCode =>
    cases failureCode with
    | none =>
      simp only [details, frozenDetails_returns_iff, List.forall_mem_singleton,
        Option.getD_none, htext, Describable]
    | some code =>
      simp only [details, frozenDetails_returns_iff, List.forall_mem_singleton,
        Option.getD_some, Describable]

theorem taskFailureDetails_returns (failure : TaskFailure) :
    ∃ frozen, taskFailureDetails failure = .ok frozen :=
  (details_returns_iff (.taskFailed failure)).2 trivial

theorem unavailableDetails_returns : ∃ frozen, unavailableDetails = .ok frozen := by
  have htext (value : String) : ∃ frozen, (PyValue.str value).freeze = .ok frozen :=
    ⟨.str value, by rw [PyValue.freeze]⟩
  unfold unavailableDetails
  simp only [frozenDetails_returns_iff, List.forall_mem_cons, freeze_texts, htext,
    List.not_mem_nil, false_imp_iff, implies_true, and_true]

theorem reason_ne_complete (error : InteractiveError) : reason error ≠ .complete := by
  cases error with
  | other typeName reason failureCode =>
    simp only [InteractiveCoordinator.reason]
    split
    · exact InteractiveTerminalReason.noConfusion
    · exact InteractiveTerminalReason.noConfusion
  | _ => exact InteractiveTerminalReason.noConfusion

end Details

section Runs

variable {ν : Type} {ports : InteractivePorts ν} {deadline : DateTime} {n : Nat}
  {a : PartialAggregator ν}

/-- At a clock reading there is time left beyond the response reserve. -/
def TimeLeft (ports : InteractivePorts ν) (deadline : DateTime) (n : Nat) : Prop :=
  responseReserve ports < max (deadline.instant - (ports.clock n).instant) 0

instance : Decidable (TimeLeft ports deadline n) := inferInstanceAs (Decidable (_ < _))

/-- The operations that are started when the loop begins at a clock reading. -/
def startedFrom (ports : InteractivePorts ν) (deadline : DateTime) :
    Nat → List String → List String
  | _, [] => []
  | n, operationId :: rest =>
    if TimeLeft ports deadline n then operationId :: startedFrom ports deadline (n + 1) rest
    else startedFrom ports deadline (n + 1) rest

/-- What the coordinator has an answer to: anything but a cancellation, and an exception only
where it can be described. -/
def Answerable {α : Type} : Awaited α → Prop
  | .raised error => Describable error
  | .cancelled => False
  | _ => True

theorem startedFrom_sublist (ports : InteractivePorts ν) (deadline : DateTime) (n : Nat)
    (operationIds : List String) :
    (startedFrom ports deadline n operationIds).Sublist operationIds := by
  induction operationIds generalizing n with
  | nil => exact List.Sublist.refl _
  | cons operationId rest ih =>
    unfold startedFrom
    split
    · exact (ih (n + 1)).cons_cons operationId
    · exact (ih (n + 1)).cons operationId

theorem own_returns {α : Type} {x : Except PyError α} {value : α} {Q : α → Nat → Prop}
    (hx : x = .ok value) (hQ : Q value n) : Returns Q (own x) n := by
  subst hx
  exact ⟨value, n, rfl, hQ⟩

/-- What follows the coordinator's own code where that returns. -/
theorem own_bind_exec {α β : Type} {x : Except PyError α} {value : α} (hx : x = .ok value)
    (f : α → Coordinated β) : (own x >>= f).exec n = (f value).exec n := by
  subst hx
  rfl

theorem own_raises {α : Type} {x : Except PyError α} (hx : ¬∃ value, x = .ok value) :
    Raises (own x) n := by
  cases x with
  | error e => exact ⟨.error e, n, rfl⟩
  | ok value => exact absurd ⟨value, rfl⟩ hx

theorem remaining_returns (haware : (ports.clock n).aware = true)
    (hdeadline : deadline.aware = true)
    {Q : Int → Nat → Prop} (hQ : Q (max (deadline.instant - (ports.clock n).instant) 0) (n + 1)) :
    Returns Q (remaining ports deadline) n := by
  have hminus : deadline.minus (ports.clock n) =
      .ok (deadline.instant - (ports.clock n).instant) := by
    unfold DateTime.minus
    rw [if_pos (hdeadline.trans haware.symm)]
  refine ⟨_, n + 1, ?_, hQ⟩
  unfold remaining InteractiveCoordinator.now own
  simp only [exec_bind, exec_get, exec_set, exec_pure, exec_liftExcept, hminus, Except.mapError]

theorem remaining_raises (haware : (ports.clock n).aware = true)
    (hdeadline : deadline.aware = false) : Raises (remaining ports deadline) n := by
  have hminus : deadline.minus (ports.clock n) =
      .error (.typeError "can't subtract offset-naive and offset-aware datetimes") := by
    unfold DateTime.minus
    rw [if_neg]
    rw [hdeadline, haware]
    exact Bool.false_ne_true
  refine ⟨.error (.typeError "can't subtract offset-naive and offset-aware datetimes"), n + 1, ?_⟩
  unfold remaining InteractiveCoordinator.now own
  simp only [exec_bind, exec_get, exec_set, exec_pure, exec_liftExcept, hminus, Except.mapError]

theorem startModels_returns (haware : ∀ n, (ports.clock n).aware = true)
    (hdeadline : deadline.aware = true) {operationIds : List String}
    (hnodup : operationIds.Nodup) (h : a.Sound)
    (hids : ∀ operationId ∈ operationIds, operationId ∈ a.pending) :
    Returns (fun result _ => result.2 = startedFrom ports deadline n operationIds ∧
      ∃ settled, Settles settled a result.1 ∧
        (∀ operationId ∈ settled, operationId ∈ operationIds) ∧
        ∀ operationId ∈ result.2, operationId ∉ settled)
      (startModels ports deadline operationIds a) n := by
  induction operationIds generalizing a n with
  | nil =>
    exact returns_pure ⟨rfl, [], .refl h, fun _ hmem => hmem, fun _ hmem => by cases hmem⟩
  | cons operationId rest ih =>
    rw [List.nodup_cons] at hnodup
    rw [List.forall_mem_cons] at hids
    unfold startModels
    refine returns_bind (P := fun left m => m = n + 1 ∧
      left = max (deadline.instant - (ports.clock n).instant) 0)
      (remaining_returns (haware n) hdeadline ⟨rfl, rfl⟩) ?_
    rintro left m ⟨rfl, rfl⟩
    by_cases hleft : TimeLeft ports deadline n
    · rw [if_neg (not_le.2 hleft)]
      refine returns_bind (ih hnodup.2 h hids.2) ?_
      rintro ⟨b, started⟩ m ⟨hstarted, settled, hsettles, hsub, hapart⟩
      refine returns_pure ⟨?_, settled, hsettles, ?_, ?_⟩
      · rw [startedFrom, if_pos hleft, ← hstarted]
      · intro other hother
        exact List.mem_cons_of_mem _ (hsub other hother)
      · intro other hother
        rcases List.mem_cons.1 hother with rfl | hother
        · exact fun hmem => hnodup.1 (hsub _ hmem)
        · exact hapart other hother
    · rw [if_pos (not_lt.1 hleft)]
      obtain ⟨b, hb, hsettles⟩ := omit_pending h hids.1
        (by decide : InteractiveTerminalReason.deadlineExceeded ≠ .complete) []
        (by decide : InteractiveOperationState.omitted ≠ .completed)
      have hrest : ∀ other ∈ rest, other ∈ b.pending := by
        intro other hother
        rw [hsettles.mem_pending, List.mem_singleton]
        refine ⟨hids.2 other hother, ?_⟩
        rintro rfl
        exact hnodup.1 hother
      obtain ⟨result, m, hresult, hstarted, settled, hsettles', hsub, hapart⟩ :=
        ih (n := n + 1) hnodup.2 hsettles.sound hrest
      refine ⟨result, m, (own_bind_exec hb _).trans hresult, ?_, operationId :: settled,
        hsettles.trans hsettles', ?_, ?_⟩
      · rw [startedFrom, if_neg hleft, ← hstarted]
      · intro other hother
        rcases List.mem_cons.1 hother with rfl | hother
        · exact List.mem_cons_self ..
        · exact List.mem_cons_of_mem _ (hsub other hother)
      · intro other hother hmem
        rcases List.mem_cons.1 hmem with rfl | hmem
        · rw [hstarted] at hother
          exact hnodup.1 ((startedFrom_sublist ports deadline _ rest).subset hother)
        · exact hapart other hother hmem

theorem omitRaised_returns {error : InteractiveError} (herror : Describable error) (h : a.Sound)
    {operationId : String} (hid : operationId ∈ a.pending) :
    ∃ b, omitRaised operationId error a = .ok b ∧ Settles [operationId] a b := by
  obtain ⟨frozen, hfrozen⟩ := (details_returns_iff error).2 herror
  obtain ⟨b, hb, hsettles⟩ := omit_pending h hid (reason_ne_complete error) frozen
    (by decide : InteractiveOperationState.omitted ≠ .completed)
  refine ⟨b, ?_, hsettles⟩
  unfold omitRaised
  rw [hfrozen]
  exact hb

theorem omitRaised_raises {error : InteractiveError} (herror : ¬Describable error)
    (operationId : String) : ¬∃ b, omitRaised operationId error a = .ok b := by
  rintro ⟨b, hb⟩
  obtain ⟨frozen, hfrozen, -⟩ := except_bind_eq_ok.1 hb
  exact herror ((details_returns_iff error).1 ⟨frozen, hfrozen⟩)

theorem collectDone_cons {operationId : String} (rest : List String) (h : a.Sound)
    (hid : operationId ∈ a.pending) (hfinished : finished ports operationId = true) :
    (Answerable (ports.modelOperation operationId) → ∃ b, Settles [operationId] a b ∧
      (collectDone ports (operationId :: rest) a).exec n = (collectDone ports rest b).exec n) ∧
    (¬Answerable (ports.modelOperation operationId) →
      Raises (collectDone ports (operationId :: rest) a) n) := by
  unfold finished at hfinished
  rw [collectDone]
  cases hend : ports.modelOperation operationId with
  | returned value =>
    obtain ⟨b, hb, hsettles⟩ := complete_pending h hid value
    refine ⟨fun _ => ⟨b, hsettles, ?_⟩, fun hnot => absurd trivial hnot⟩
    simp only [hb]
  | raised error =>
    refine ⟨fun hanswer => ?_, fun hnot => ?_⟩
    · obtain ⟨b, hb, hsettles⟩ := omitRaised_returns hanswer h hid
      exact ⟨b, hsettles, own_bind_exec hb _⟩
    · exact raises_bind (own_raises (omitRaised_raises hnot operationId))
  | cancelled => exact ⟨fun hanswer => hanswer.elim, fun _ => raises_throw _ _⟩
  | unfinished =>
    rw [hend] at hfinished
    cases hfinished

theorem collectDone_returns {operationIds : List String} (hnodup : operationIds.Nodup)
    (h : a.Sound) (hids : ∀ operationId ∈ operationIds, operationId ∈ a.pending)
    (hfinished : ∀ operationId ∈ operationIds, finished ports operationId = true)
    (hanswer : ∀ operationId ∈ operationIds, Answerable (ports.modelOperation operationId)) :
    Returns (fun b _ => Settles operationIds a b) (collectDone ports operationIds a) n := by
  induction operationIds generalizing a with
  | nil => exact returns_pure (.refl h)
  | cons operationId rest ih =>
    rw [List.nodup_cons] at hnodup
    rw [List.forall_mem_cons] at hids hfinished hanswer
    obtain ⟨b, hsettles, hexec⟩ :=
      (collectDone_cons (n := n) rest h hids.1 hfinished.1).1 hanswer.1
    have hrest : ∀ other ∈ rest, other ∈ b.pending := by
      intro other hother
      rw [hsettles.mem_pending, List.mem_singleton]
      refine ⟨hids.2 other hother, ?_⟩
      rintro rfl
      exact hnodup.1 hother
    obtain ⟨c, m, hc, hsettles'⟩ := ih hnodup.2 hsettles.sound hrest hfinished.2 hanswer.2
    exact ⟨c, m, hexec.trans hc, hsettles.trans hsettles'⟩

theorem collectDone_raises {operationIds : List String} (hnodup : operationIds.Nodup)
    (h : a.Sound) (hids : ∀ operationId ∈ operationIds, operationId ∈ a.pending)
    (hfinished : ∀ operationId ∈ operationIds, finished ports operationId = true)
    (hnot : ¬∀ operationId ∈ operationIds, Answerable (ports.modelOperation operationId)) :
    Raises (collectDone ports operationIds a) n := by
  induction operationIds generalizing a with
  | nil => exact absurd (fun _ hmem => by cases hmem) hnot
  | cons operationId rest ih =>
    rw [List.nodup_cons] at hnodup
    rw [List.forall_mem_cons] at hids hfinished hnot
    have hcons := collectDone_cons (n := n) rest h hids.1 hfinished.1
    by_cases hanswer : Answerable (ports.modelOperation operationId)
    · obtain ⟨b, hsettles, hexec⟩ := hcons.1 hanswer
      have hrest : ∀ other ∈ rest, other ∈ b.pending := by
        intro other hother
        rw [hsettles.mem_pending, List.mem_singleton]
        refine ⟨hids.2 other hother, ?_⟩
        rintro rfl
        exact hnodup.1 hother
      obtain ⟨e, m, he⟩ := ih hnodup.2 hsettles.sound hrest hfinished.2 fun hall =>
        hnot ⟨hanswer, hall⟩
      exact ⟨e, m, hexec.trans he⟩
    · exact hcons.2 hanswer

theorem collectModels_returns (haware : ∀ n, (ports.clock n).aware = true)
    (hdeadline : deadline.aware = true) {started : List String} (hnodup : started.Nodup)
    (h : a.Sound) (hids : ∀ operationId ∈ started, operationId ∈ a.pending)
    (hanswer : ∀ operationId ∈ started, Answerable (ports.modelOperation operationId)) :
    Returns (fun b _ => b.Sound ∧ b.operationIds = a.operationIds)
      (collectModels ports deadline started a) n := by
  unfold collectModels
  split
  · exact returns_pure ⟨h, rfl⟩
  · apply returns_bind (remaining_returns (Q := fun _ _ => True) (haware n) hdeadline trivial)
    intro _ m _
    have hperm := ports.doneOrder_perm (started.filter (finished ports))
    have hdone (operationId : String)
        (hmem : operationId ∈ ports.doneOrder (started.filter (finished ports))) :
        operationId ∈ started ∧ finished ports operationId = true :=
      List.mem_filter.1 (hperm.mem_iff.1 hmem)
    refine returns_bind (collectDone_returns (hperm.nodup_iff.2 (hnodup.filter _)) h
      (fun _ hmem => hids _ (hdone _ hmem).1) (fun _ hmem => (hdone _ hmem).2)
      fun _ hmem => hanswer _ (hdone _ hmem).1) ?_
    intro b k hsettles
    have hpending : ∀ operationId ∈ started.filter (fun operationId => !finished ports operationId),
        operationId ∈ b.pending := by
      intro operationId hmem
      rw [List.mem_filter, Bool.not_eq_true'] at hmem
      rw [hsettles.mem_pending]
      refine ⟨hids operationId hmem.1, fun hin => ?_⟩
      rw [(hdone operationId hin).2] at hmem
      cases hmem.2
    obtain ⟨c, hc, hsettles'⟩ := omitAll_pending
      (by decide : InteractiveTerminalReason.deadlineExceeded ≠ .complete)
      (by decide : InteractiveOperationState.omitted ≠ .completed) (hnodup.filter _)
      hsettles.sound hpending
    exact own_returns hc ⟨hsettles'.sound, hsettles'.same.trans hsettles.same⟩

theorem collectModels_raises (haware : ∀ n, (ports.clock n).aware = true)
    (hdeadline : deadline.aware = true) {started : List String} (hnodup : started.Nodup)
    (h : a.Sound) (hids : ∀ operationId ∈ started, operationId ∈ a.pending)
    (hnot : ¬∀ operationId ∈ started, Answerable (ports.modelOperation operationId)) :
    Raises (collectModels ports deadline started a) n := by
  unfold collectModels
  rw [if_neg]
  · apply raises_after (remaining_returns (Q := fun _ _ => True) (haware n) hdeadline trivial)
    intro _ m _
    have hperm := ports.doneOrder_perm (started.filter (finished ports))
    have hdone (operationId : String)
        (hmem : operationId ∈ ports.doneOrder (started.filter (finished ports))) :
        operationId ∈ started ∧ finished ports operationId = true :=
      List.mem_filter.1 (hperm.mem_iff.1 hmem)
    refine raises_bind (collectDone_raises (hperm.nodup_iff.2 (hnodup.filter _)) h
      (fun _ hmem => hids _ (hdone _ hmem).1) (fun _ hmem => (hdone _ hmem).2) fun hall => ?_)
    apply hnot
    intro operationId hmem
    by_cases hfinished : finished ports operationId = true
    · exact hall operationId (hperm.mem_iff.2 (List.mem_filter.2 ⟨hmem, hfinished⟩))
    · -- an operation that is not finished is answered by its omission
      unfold finished at hfinished
      cases hend : ports.modelOperation operationId with
      | unfinished => trivial
      | returned value => rw [hend] at hfinished; exact absurd rfl hfinished
      | raised error => rw [hend] at hfinished; exact absurd rfl hfinished
      | cancelled => rw [hend] at hfinished; exact absurd rfl hfinished
  · intro hempty
    rw [List.isEmpty_iff] at hempty
    subst hempty
    exact hnot fun _ hmem => by cases hmem

theorem models_returns (haware : ∀ n, (ports.clock n).aware = true)
    (hdeadline : deadline.aware = true) {operationIds : List String}
    (hnodup : operationIds.Nodup) (h : a.Sound)
    (hids : ∀ operationId ∈ operationIds, operationId ∈ a.pending)
    (hanswer : ∀ operationId ∈ startedFrom ports deadline n operationIds,
      Answerable (ports.modelOperation operationId)) :
    Returns (fun b _ => b.Sound ∧ b.operationIds = a.operationIds) (do
      let (a, started) ← startModels ports deadline operationIds a
      collectModels ports deadline started a) n := by
  refine returns_bind (startModels_returns haware hdeadline hnodup h hids) ?_
  rintro ⟨b, started⟩ m ⟨rfl, settled, hsettles, hsub, hapart⟩
  have hsublist := startedFrom_sublist ports deadline n operationIds
  refine returns_mono (collectModels_returns haware hdeadline (hsublist.nodup hnodup)
    hsettles.sound ?_ hanswer) ?_
  · intro operationId hmem
    rw [hsettles.mem_pending]
    exact ⟨hids operationId (hsublist.subset hmem), hapart operationId hmem⟩
  · rintro c k ⟨hc, hsame⟩
    exact ⟨hc, hsame.trans hsettles.same⟩

theorem models_raises (haware : ∀ n, (ports.clock n).aware = true)
    (hdeadline : deadline.aware = true) {operationIds : List String}
    (hnodup : operationIds.Nodup) (h : a.Sound)
    (hids : ∀ operationId ∈ operationIds, operationId ∈ a.pending)
    (hnot : ¬∀ operationId ∈ startedFrom ports deadline n operationIds,
      Answerable (ports.modelOperation operationId)) :
    Raises (do
      let (a, started) ← startModels ports deadline operationIds a
      collectModels ports deadline started a) n := by
  refine raises_after (startModels_returns haware hdeadline hnodup h hids) ?_
  rintro ⟨b, started⟩ m ⟨rfl, settled, hsettles, hsub, hapart⟩
  have hsublist := startedFrom_sublist ports deadline n operationIds
  refine collectModels_raises haware hdeadline (hsublist.nodup hnodup) hsettles.sound ?_ hnot
  intro operationId hmem
  rw [hsettles.mem_pending]
  exact ⟨hids operationId (hsublist.subset hmem), hapart operationId hmem⟩

end Runs

end AiRetrieval.InteractiveCoordinator
