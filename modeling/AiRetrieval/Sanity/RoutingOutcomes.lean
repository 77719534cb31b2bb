import AiRetrieval.Sanity.PlanOutcomes

/-! What the router finds of each candidate: the gates it holds its policy, its budget and its
deadline to, and the first of the eligible ones that fits. -/

namespace AiRetrieval.ModelRouter

open Program HierarchicalCapacity RoutedModelPlanner

/-- Whether a budget can still reserve what a candidate costs. -/
abbrev BudgetOracle := ModelOperation → ModelCandidate → Bool

def PermitsRouting (policy : RoutingPolicy) : Prop :=
  policy.val.available = true ∧ policy.val.valid = true ∧ policy.val.decision = .allow

/-- Every gate but the deadline. -/
structure Allowed (oracle : BudgetOracle) (operation : ModelOperation)
    (candidate : ModelCandidate) (policy : RoutingPolicy) : Prop where
  provider : candidate.val.providerId ∈ policy.val.allowedProviderIds.items
  data : ∀ value ∈ operation.val.dataClasses, value ∈ policy.val.allowedDataClasses.items ∧
    value ∈ candidate.val.allowedDataClasses.items
  capable : ∀ value ∈ operation.val.work.val.requiredCapabilities.items,
    value ∈ candidate.val.capabilities.items
  quality : max operation.val.minimumQuality policy.val.minimumQuality ≤ candidate.val.qualityScore
  budget : oracle operation candidate = true

/-- The predicted completion is no later than the deadline, if there is one. -/
def InTime (operation : ModelOperation) (candidate : ModelCandidate) (now : DateTime) : Prop :=
  ∀ deadline, operation.val.deadline = some deadline →
    now.instant + ((candidate.val.predictedLatencyMs + operation.val.completionReserveMs) * 1000 :
      Nat) ≤ deadline.instant

/-- Every gate holds. -/
def Eligible (oracle : BudgetOracle) (operation : ModelOperation) (policy : Option RoutingPolicy)
    (now : DateTime) (candidate : ModelCandidate) : Prop :=
  ∃ given, policy = some given ∧ PermitsRouting given ∧
    Allowed oracle operation candidate given ∧ InTime operation candidate now

/-- Every gate holds but the deadline. -/
def OnlyLate (oracle : BudgetOracle) (operation : ModelOperation) (policy : Option RoutingPolicy)
    (now : DateTime) (candidate : ModelCandidate) : Prop :=
  ∃ given, policy = some given ∧ PermitsRouting given ∧
    Allowed oracle operation candidate given ∧ ¬InTime operation candidate now

/-- The completion of a candidate can be predicted and compared, where a policy asks for it. -/
def Predictable (operation : ModelOperation) (policy : Option RoutingPolicy) (now : DateTime)
    (candidate : ModelCandidate) : Prop :=
  ∀ given, policy = some given → PermitsRouting given →
    ∃ isLate, late operation candidate now = .ok isLate

theorem late_eq_ok {operation : ModelOperation} {candidate : ModelCandidate} {now : DateTime}
    {isLate : Bool} (h : late operation candidate now = .ok isLate) :
    isLate = false ↔ InTime operation candidate now := by
  unfold late at h
  obtain ⟨delta, hdelta, h⟩ := except_bind_eq_ok.1 h
  obtain ⟨completion, hcompletion, h⟩ := except_bind_eq_ok.1 h
  have hdelta' : delta =
      ((candidate.val.predictedLatencyMs + operation.val.completionReserveMs) * 1000 : Nat) := by
    unfold TimeDelta.ofMilliseconds at hdelta
    dsimp only at hdelta
    split at hdelta
    · cases hdelta
      rfl
    · split at hdelta
      · cases hdelta
      · cases hdelta
  have hinstant : completion.instant = now.instant + delta := by
    unfold DateTime.plus at hcompletion
    split at hcompletion
    · cases hcompletion
      rfl
    · cases hcompletion
  unfold InTime
  cases hdeadline : operation.val.deadline with
  | none =>
    rw [hdeadline] at h
    cases h
    exact iff_of_true rfl fun deadline h => by cases h
  | some deadline =>
    rw [hdeadline] at h
    obtain ⟨-, rfl⟩ := DateTime.before_eq_ok.1 h
    rw [decide_eq_false_iff_not, Int.not_lt, hinstant, hdelta']
    constructor
    · intro hle other hother
      cases hother
      exact hle
    · intro hall
      exact hall deadline rfl

section Reasons

variable {env : RoutingEnvironment} {oracle : BudgetOracle}

/-- What `_reasons` finds of a candidate. -/
inductive ReasonsOutcome (oracle : BudgetOracle) (operation : ModelOperation)
    (candidate : ModelCandidate) (policy : Option RoutingPolicy) (now : DateTime)
    (s : RoutingState) : Except PyError (List EligibilityReason) × RoutingState → Prop
  | found (reasons : List EligibilityReason) (s' : RoutingState) : SameCapacity s s' →
      Predictable operation policy now candidate →
      (reasons = [] ↔ Eligible oracle operation policy now candidate) →
      ((reasons ≠ [] ∧ ∀ reason ∈ reasons, reason = .deadlineIneligible) ↔
        OnlyLate oracle operation policy now candidate) →
      ReasonsOutcome oracle operation candidate policy now s (.ok reasons, s')
  | unpredictable (error : PyError) (s' : RoutingState) : SameCapacity s s' →
      ¬Predictable operation policy now candidate →
      ReasonsOutcome oracle operation candidate policy now s (.error error, s')

theorem ReasonsOutcome.unrouted {operation : ModelOperation} {candidate : ModelCandidate}
    {policy : Option RoutingPolicy} {now : DateTime} {s : RoutingState}
    {reason : EligibilityReason} (hreason : reason ≠ .deadlineIneligible)
    (hpolicy : ∀ given, policy = some given → ¬PermitsRouting given) :
    ReasonsOutcome oracle operation candidate policy now s (.ok [reason], s) := by
  refine .found [reason] s rfl (fun given hgiven hpermits => absurd hpermits (hpolicy given hgiven))
    ?_ ?_
  · refine iff_of_false (List.cons_ne_nil _ _) ?_
    rintro ⟨given, hgiven, hpermits, -⟩
    exact hpolicy given hgiven hpermits
  · refine iff_of_false ?_ ?_
    · rintro ⟨-, hall⟩
      exact hreason (hall reason (List.mem_singleton_self _))
    · rintro ⟨given, hgiven, hpermits, -⟩
      exact hpolicy given hgiven hpermits

theorem note_eq_nil {fails : Prop} [Decidable fails] {value : EligibilityReason} :
    (if fails then [value] else []) = [] ↔ ¬fails := by
  split <;> simp [*]

theorem mem_note {fails : Prop} [Decidable fails] {value reason : EligibilityReason}
    (h : reason ∈ if fails then [value] else []) : reason = value := by
  split at h
  · exact List.mem_singleton.1 h
  · cases h

theorem ReasonsOutcome.routed {operation : ModelOperation} {candidate : ModelCandidate}
    {policy : RoutingPolicy} {now : DateTime} {s s' : RoutingState}
    {others : List EligibilityReason} {isLate : Bool} (hsame : SameCapacity s s')
    (hpermits : PermitsRouting policy)
    (hlate : late operation candidate now = .ok isLate)
    (hothers : others = [] ↔ Allowed oracle operation candidate policy)
    (hnone : ∀ reason ∈ others, reason ≠ .deadlineIneligible) :
    ReasonsOutcome oracle operation candidate (some policy) now s
      (.ok (others ++ if isLate = true then [.deadlineIneligible] else []), s') := by
  have htime := late_eq_ok hlate
  have heligible : Eligible oracle operation (some policy) now candidate ↔
      others = [] ∧ isLate = false := by
    rw [hothers, htime]
    constructor
    · rintro ⟨given, hgiven, -, hallowed, hintime⟩
      cases hgiven
      exact ⟨hallowed, hintime⟩
    · rintro ⟨hallowed, hintime⟩
      exact ⟨policy, rfl, hpermits, hallowed, hintime⟩
  have honly : OnlyLate oracle operation (some policy) now candidate ↔
      others = [] ∧ ¬isLate = false := by
    rw [hothers, htime]
    constructor
    · rintro ⟨given, hgiven, -, hallowed, hlate⟩
      cases hgiven
      exact ⟨hallowed, hlate⟩
    · rintro ⟨hallowed, hlate⟩
      exact ⟨policy, rfl, hpermits, hallowed, hlate⟩
  refine .found _ s' hsame (fun given hgiven _ => ⟨isLate, hlate⟩) ?_ ?_
  · rw [heligible, List.append_eq_nil_iff, note_eq_nil, Bool.not_eq_true]
  · rw [honly]
    constructor
    · rintro ⟨hnonempty, hall⟩
      have hempty : others = [] := List.eq_nil_iff_forall_not_mem.2 fun reason hreason =>
        hnone reason hreason (hall reason (List.mem_append_left _ hreason))
      refine ⟨hempty, fun hintime => hnonempty ?_⟩
      rw [hempty, hintime]
      rfl
    · rintro ⟨rfl, hlate⟩
      rw [List.nil_append, Ne, note_eq_nil, not_not]
      exact ⟨Bool.eq_true_of_not_eq_false hlate, fun reason h => mem_note h⟩

theorem reasons_outcome (hbudget : ∀ n operation candidate,
    env.isAvailable n operation candidate = .ok (oracle operation candidate))
    (operation : ModelOperation) (candidate : ModelCandidate) (policy : Option RoutingPolicy)
    (now : DateTime) (s : RoutingState) :
    ReasonsOutcome oracle operation candidate policy now s
      ((reasons env operation candidate policy now).exec s) := by
  cases policy with
  | none => exact ReasonsOutcome.unrouted (by decide) fun given h => by cases h
  | some policy =>
    unfold reasons
    dsimp only
    by_cases havailable : policy.val.available = false
    · rw [if_pos havailable]
      refine ReasonsOutcome.unrouted (by decide) fun given h hpermits => ?_
      cases h
      rw [hpermits.1] at havailable
      cases havailable
    rw [if_neg havailable]
    by_cases hvalid : policy.val.valid = false
    · rw [if_pos hvalid]
      refine ReasonsOutcome.unrouted (by decide) fun given h hpermits => ?_
      cases h
      rw [hpermits.2.1] at hvalid
      cases hvalid
    rw [if_neg hvalid]
    by_cases hdecision : policy.val.decision ≠ .allow
    · rw [if_pos hdecision]
      refine ReasonsOutcome.unrouted (by decide) fun given h hpermits => ?_
      cases h
      exact hdecision hpermits.2.2
    rw [if_neg hdecision]
    have hpermits : PermitsRouting policy :=
      ⟨by simpa using havailable, by simpa using hvalid, not_not.1 hdecision⟩
    have hask : (ask fun n => env.isAvailable n operation candidate).exec s =
        (.ok (oracle operation candidate), { s with moment := s.moment + 1 }) := by
      unfold ask
      rw [exec_bind, exec_get]
      dsimp only
      rw [exec_bind, exec_set]
      dsimp only
      rw [exec_liftExcept, hbudget]
    rw [exec_bind_of_ok hask, exec_bind, exec_liftExcept]
    cases hlate : late operation candidate now with
    | error error =>
      refine .unpredictable error _ rfl fun hpredictable => ?_
      obtain ⟨isLate, h⟩ := hpredictable policy rfl hpermits
      rw [hlate] at h
      cases h
    | ok isLate =>
      dsimp only
      refine ReasonsOutcome.routed rfl hpermits hlate ?_ ?_
      · simp only [List.append_eq_nil_iff, note_eq_nil, decide_eq_true_eq, Bool.or_eq_true,
          Bool.not_eq_true', List.all_eq_false, not_or, not_exists, not_and, not_not, not_lt,
          Bool.not_eq_false]
        constructor
        · rintro ⟨⟨⟨⟨hprovider, hdata⟩, hcapable⟩, hquality⟩, hbudgeted⟩
          exact ⟨hprovider, fun value hvalue => ⟨hdata.1 value hvalue, hdata.2 value hvalue⟩,
            hcapable, hquality, hbudgeted⟩
        · intro h
          exact ⟨⟨⟨⟨h.provider, fun value hvalue => (h.data value hvalue).1,
            fun value hvalue => (h.data value hvalue).2⟩, h.capable⟩, h.quality⟩, h.budget⟩
      · intro reason hreason
        simp only [List.mem_append] at hreason
        rcases hreason with (((h | h) | h) | h) | h
        all_goals
          rw [mem_note h]
          decide

/-- What is found of every candidate, in their order. -/
structure Evaluated (oracle : BudgetOracle) (operation : ModelOperation)
    (policy : Option RoutingPolicy) (now : DateTime) (item : CandidateEligibility) : Prop where
  eligible_iff : item.eligible = true ↔ Eligible oracle operation policy now item.candidate
  onlyLate_iff : (item.reasons ≠ [] ∧ ∀ reason ∈ item.reasons, reason = .deadlineIneligible) ↔
    OnlyLate oracle operation policy now item.candidate

/-- Evaluating finds something of every candidate, or raises at one that cannot be predicted. -/
inductive EvaluateOutcome (oracle : BudgetOracle) (operation : ModelOperation)
    (candidates : List ModelCandidate) (policy : Option RoutingPolicy) (now : DateTime)
    (s : RoutingState) : Except PyError (List CandidateEligibility) × RoutingState → Prop
  | found (eligibility : List CandidateEligibility) (s' : RoutingState) : SameCapacity s s' →
      eligibility.map (·.candidate) = candidates →
      (∀ candidate ∈ candidates, Predictable operation policy now candidate) →
      (∀ item ∈ eligibility, Evaluated oracle operation policy now item) →
      EvaluateOutcome oracle operation candidates policy now s (.ok eligibility, s')
  | unpredictable (error : PyError) (s' : RoutingState) (candidate : ModelCandidate) :
      SameCapacity s s' → candidate ∈ candidates →
      ¬Predictable operation policy now candidate →
      EvaluateOutcome oracle operation candidates policy now s (.error error, s')

theorem evaluate_outcome (hbudget : ∀ n operation candidate,
    env.isAvailable n operation candidate = .ok (oracle operation candidate))
    (operation : ModelOperation) (candidates : List ModelCandidate)
    (policy : Option RoutingPolicy) (now : DateTime) (s : RoutingState) :
    EvaluateOutcome oracle operation candidates policy now s
      ((evaluate env operation candidates policy now).exec s) := by
  unfold evaluate
  induction candidates generalizing s with
  | nil => exact .found [] s rfl rfl (fun _ h => by cases h) (fun _ h => by cases h)
  | cons candidate rest ih =>
    rw [List.mapM_cons, bind_assoc, exec_bind]
    have hfirst := reasons_outcome hbudget operation candidate policy now s
    generalize (reasons env operation candidate policy now).exec s = answer at hfirst ⊢
    cases hfirst with
    | unpredictable error s' hsame hnot =>
      exact .unpredictable error s' candidate hsame (List.mem_cons_self ..) hnot
    | found reasons s' hsame hpredictable heligible honly =>
      dsimp only
      rw [pure_bind, exec_bind]
      have hrest := ih s'
      generalize (List.mapM (fun candidate => do
        return ⟨candidate, ← ModelRouter.reasons env operation candidate policy now⟩)
        rest : Routing (List CandidateEligibility)).exec s' = answer at hrest ⊢
      cases hrest with
      | unpredictable error s'' other hsame' hmem hnot =>
        exact .unpredictable error s'' other (hsame'.trans hsame) (List.mem_cons_of_mem _ hmem) hnot
      | found eligibility s'' hsame' hmap hall hitems =>
        refine .found (⟨candidate, reasons⟩ :: eligibility) s'' (hsame'.trans hsame)
          (by rw [List.map_cons, hmap]) (List.forall_mem_cons.2 ⟨hpredictable, hall⟩)
          (List.forall_mem_cons.2 ⟨⟨?_, honly⟩, hitems⟩)
        rw [← heligible, CandidateEligibility.eligible, List.isEmpty_iff]

end Reasons

section Order

theorem precedes_trans {a b c : ModelCandidate} (hab : precedes a b) (hbc : precedes b c) :
    precedes a c := by
  unfold precedes at *
  rcases hab with hab | ⟨hcost, hab⟩ <;> rcases hbc with hbc | ⟨hcost', hbc⟩
  · exact .inl (hab.trans hbc)
  · exact .inl (hcost' ▸ hab)
  · exact .inl (hcost ▸ hbc)
  · refine .inr ⟨hcost.trans hcost', ?_⟩
    rcases hab with hab | ⟨hpriority, hab⟩ <;> rcases hbc with hbc | ⟨hpriority', hbc⟩
    · exact .inl (hbc.trans hab)
    · exact .inl (hpriority' ▸ hab)
    · exact .inl (hpriority ▸ hbc)
    · exact .inr ⟨hpriority.trans hpriority', String.le_trans hab hbc⟩

theorem precedes_total (a b : ModelCandidate) : precedes a b ∨ precedes b a := by
  unfold precedes
  rcases lt_trichotomy a.val.costEstimate b.val.costEstimate with h | h | h
  · exact .inl (.inl h)
  · rcases lt_trichotomy a.val.priority b.val.priority with h' | h' | h'
    · exact .inr (.inr ⟨h.symm, .inl h'⟩)
    · rcases String.le_total a.val.modelId b.val.modelId with h'' | h''
      · exact .inl (.inr ⟨h, .inr ⟨h', h''⟩⟩)
      · exact .inr (.inr ⟨h.symm, .inr ⟨h'.symm, h''⟩⟩)
    · exact .inl (.inr ⟨h, .inl h'⟩)
  · exact .inr (.inl h)

theorem precedes_refl (a : ModelCandidate) : precedes a a := (precedes_total a a).elim id id

instance : IsTrans ModelCandidate precedes := ⟨fun _ _ _ => precedes_trans⟩
instance : Std.Total precedes := ⟨precedes_total⟩

theorem eligible_sorted (eligibility : List CandidateEligibility) :
    (eligible eligibility).Pairwise precedes := List.pairwise_insertionSort precedes _

theorem mem_eligible {eligibility : List CandidateEligibility} {candidate : ModelCandidate} :
    candidate ∈ eligible eligibility ↔
      ∃ item ∈ eligibility, item.eligible = true ∧ item.candidate = candidate := by
  unfold eligible
  rw [List.mem_insertionSort, List.mem_map]
  simp only [List.mem_filter, and_assoc]

end Order

theorem acquire_first {s : HierarchicalCapacity} {operation : ModelOperation} {timestamp : Rat}
    {candidates : List ModelCandidate} {admission : CapacityAdmission}
    (h : (acquire operation timestamp candidates s).1 = some admission) :
    ∃ before after, candidates = before ++ admission.candidate :: after ∧
      ∀ other ∈ before, ¬s.Admissible timestamp operation other := by
  induction candidates generalizing s with
  | nil => cases h
  | cons candidate rest ih =>
    have hnodup : (s.limitedScopes operation candidate).Nodup := limitedScopes_nodup _ _
    have hprunes := prune_prunes s timestamp hnodup
    rw [acquire] at h
    split at h
    · cases h
      exact ⟨[], rest, rfl, fun _ h => by cases h⟩
    · next hfull =>
      obtain ⟨before, after, hsplit, hbefore⟩ := ih h
      refine ⟨candidate :: before, after, by rw [hsplit]; rfl, List.forall_mem_cons.2 ⟨?_, ?_⟩⟩
      · exact fun hadmissible => hfull ((fits_iff operation candidate).2 hadmissible)
      · intro other hother hadmissible
        exact hbefore other hother ((hprunes.admissible_iff operation other).2 hadmissible)

/-- Of the eligible candidates that fit, the one that is admitted has the least key. -/
theorem acquire_least {s : HierarchicalCapacity} {operation : ModelOperation} {timestamp : Rat}
    {eligibility : List CandidateEligibility} {admission : CapacityAdmission}
    (h : (acquire operation timestamp (eligible eligibility) s).1 = some admission)
    {other : ModelCandidate} (hmem : other ∈ eligible eligibility)
    (hadmissible : s.Admissible timestamp operation other) :
    precedes admission.candidate other := by
  obtain ⟨before, after, hsplit, hbefore⟩ := acquire_first h
  have hsorted := eligible_sorted eligibility
  rw [hsplit] at hmem hsorted
  rcases List.mem_append.1 hmem with hother | hother
  · exact absurd hadmissible (hbefore other hother)
  · rcases List.mem_cons.1 hother with rfl | hother
    · exact precedes_refl _
    · exact (List.pairwise_cons.1 (List.pairwise_append.1 hsorted).2.1).1 other hother

end AiRetrieval.ModelRouter
