import AiRetrieval.Proofs.CapacityRefusals
import AiRetrieval.Sanity.RoutingOutcomes

/-! What the router admits of some candidates: the least of the eligible ones that fit. -/

namespace AiRetrieval

open Program HierarchicalCapacity RoutedModelPlanner ModelRouter

variable {env : RoutingEnvironment} {oracle : BudgetOracle}

/-- Every gate holds for a candidate, and by the table's count every limit of its scopes has
room. -/
def Selectable (zone : LocalZone) (oracle : BudgetOracle) (operation : ModelOperation)
    (policy : Option RoutingPolicy) (now : DateTime) (s : RoutingState)
    (candidate : ModelCandidate) : Prop :=
  Eligible oracle operation policy now candidate ∧
    ∃ timestamp, now.timestamp zone = .ok timestamp ∧
      s.capacity.Admissible timestamp operation candidate

/-- The answer of the router, and what it does to the capacity table. -/
structure SelectedExactly (zone : LocalZone) (oracle : BudgetOracle) (operation : ModelOperation)
    (candidates : List ModelCandidate) (policy : Option RoutingPolicy) (now : DateTime)
    (s : RoutingState) (admission : ModelAdmission) (s' : RoutingState) : Prop where
  admitted : (∃ candidate lease eligibility,
      admission = .admitted candidate lease eligibility) ↔
    (∃ candidate ∈ candidates, Selectable zone oracle operation policy now s candidate) ∧
      s.capacity.leases.get? operation.val.operationId = none
  least : ∀ candidate lease eligibility, admission = .admitted candidate lease eligibility →
    candidate ∈ candidates ∧ Selectable zone oracle operation policy now s candidate ∧
      ∀ other ∈ candidates, Selectable zone oracle operation policy now s other →
        precedes candidate other
  failed : ∀ failure eligibility, admission = .failed failure eligibility →
    (failure = .deadlineIneligible ↔
      candidates ≠ [] ∧ ∀ candidate ∈ candidates, OnlyLate oracle operation policy now candidate) ∧
    (failure = .capacityUnavailable ↔
      ∃ candidate ∈ candidates, Eligible oracle operation policy now candidate) ∧
    (s'.capacity = s.capacity ∨ ∃ timestamp, now.timestamp zone = .ok timestamp ∧
      Prunes timestamp s.capacity s'.capacity)

theorem ModelRouter.OnlyLate.not_eligible {operation : ModelOperation}
    {policy : Option RoutingPolicy} {now : DateTime} {candidate : ModelCandidate}
    (h : OnlyLate oracle operation policy now candidate) :
    ¬Eligible oracle operation policy now candidate := by
  obtain ⟨given, hgiven, -, -, hlate⟩ := h
  rintro ⟨other, hother, -, -, hintime⟩
  exact hlate hintime

section Evaluated

variable {operation : ModelOperation} {policy : Option RoutingPolicy} {now : DateTime}
  {eligibility : List CandidateEligibility}

theorem mem_eligible_iff
    (hitems : ∀ item ∈ eligibility, Evaluated oracle operation policy now item)
    (candidate : ModelCandidate) : candidate ∈ eligible eligibility ↔
      candidate ∈ eligibility.map (·.candidate) ∧
        Eligible oracle operation policy now candidate := by
  rw [mem_eligible, List.mem_map]
  constructor
  · rintro ⟨item, hitem, heligible, rfl⟩
    exact ⟨⟨item, hitem, rfl⟩, (hitems item hitem).eligible_iff.1 heligible⟩
  · rintro ⟨⟨item, hitem, rfl⟩, heligible⟩
    exact ⟨item, hitem, (hitems item hitem).eligible_iff.2 heligible, rfl⟩

theorem all_late_iff
    (hitems : ∀ item ∈ eligibility, Evaluated oracle operation policy now item)
    (hnobody : eligible eligibility = []) :
    (eligibility.flatMap (·.reasons) ≠ [] ∧
      ∀ reason ∈ eligibility.flatMap (·.reasons), reason = .deadlineIneligible) ↔
    eligibility ≠ [] ∧ ∀ candidate ∈ eligibility.map (·.candidate),
      OnlyLate oracle operation policy now candidate := by
  have hreasons : ∀ item ∈ eligibility, item.reasons ≠ [] := by
    intro item hitem hempty
    have hmem := mem_eligible.2
      ⟨item, hitem, by rw [CandidateEligibility.eligible, hempty]; rfl, rfl⟩
    rw [hnobody] at hmem
    cases hmem
  rw [List.forall_mem_map]
  constructor
  · rintro ⟨hnonempty, hall⟩
    refine ⟨fun hempty => hnonempty (by rw [hempty]; rfl), fun item hitem => ?_⟩
    refine (hitems item hitem).onlyLate_iff.1 ⟨hreasons item hitem, fun reason hreason => ?_⟩
    exact hall reason (List.mem_flatMap.2 ⟨item, hitem, hreason⟩)
  · rintro ⟨hnonempty, hall⟩
    constructor
    · obtain ⟨item, hitem⟩ := List.exists_mem_of_ne_nil _ hnonempty
      obtain ⟨reason, hreason⟩ := List.exists_mem_of_ne_nil _ (hreasons item hitem)
      exact List.ne_nil_of_mem (List.mem_flatMap.2 ⟨item, hitem, hreason⟩)
    · intro reason hreason
      obtain ⟨item, hitem, hreason⟩ := List.mem_flatMap.1 hreason
      exact ((hitems item hitem).onlyLate_iff.2 (hall item hitem)).2 reason hreason

end Evaluated

section Selected

variable {zone : LocalZone} {operation : ModelOperation} {candidates : List ModelCandidate}
  {policy : Option RoutingPolicy} {now : DateTime} {s s' : RoutingState}

/-- Where no candidate is eligible, the router says whether they are all only late. -/
theorem SelectedExactly.nobody {failure : AdmissionFailure}
    {eligibility : List CandidateEligibility}
    (hnone : ∀ candidate ∈ candidates, ¬Eligible oracle operation policy now candidate)
    (hlate : failure = .deadlineIneligible ↔
      candidates ≠ [] ∧ ∀ candidate ∈ candidates, OnlyLate oracle operation policy now candidate)
    (hother : failure ≠ .capacityUnavailable) (hsame : s'.capacity = s.capacity) :
    SelectedExactly zone oracle operation candidates policy now s
      (.failed failure eligibility) s' where
  admitted := by
    refine iff_of_false ?_ ?_
    · rintro ⟨_, _, _, h⟩
      cases h
    · rintro ⟨⟨candidate, hcandidate, hselectable⟩, -⟩
      exact hnone candidate hcandidate hselectable.1
  least _ _ _ h := by cases h
  failed other found h := by
    cases h
    refine ⟨hlate, iff_of_false hother ?_, .inl hsame⟩
    rintro ⟨candidate, hcandidate, heligible⟩
    exact hnone candidate hcandidate heligible

theorem SelectedExactly.refused {eligibility : List CandidateEligibility}
    {someone : ModelCandidate} (hsomeone : someone ∈ candidates)
    (heligible : Eligible oracle operation policy now someone)
    (hfull : s.capacity.leases.get? operation.val.operationId = none →
      ∀ candidate ∈ candidates, ¬Selectable zone oracle operation policy now s candidate)
    (htable : s'.capacity = s.capacity ∨ ∃ timestamp, now.timestamp zone = .ok timestamp ∧
      Prunes timestamp s.capacity s'.capacity) :
    SelectedExactly zone oracle operation candidates policy now s
      (.failed .capacityUnavailable eligibility) s' where
  admitted := by
    refine iff_of_false ?_ ?_
    · rintro ⟨_, _, _, h⟩
      cases h
    · rintro ⟨⟨candidate, hcandidate, hselectable⟩, hfree⟩
      exact hfull hfree candidate hcandidate hselectable
  least _ _ _ h := by cases h
  failed other found h := by
    cases h
    refine ⟨iff_of_false (fun h => by cases h) ?_, iff_of_true rfl ⟨someone, hsomeone, heligible⟩,
      htable⟩
    rintro ⟨-, hall⟩
    exact (hall someone hsomeone).not_eligible heligible

theorem SelectedExactly.chosen {candidate : ModelCandidate} {lease : CapacityLease}
    {eligibility : List CandidateEligibility} (hcandidate : candidate ∈ candidates)
    (hselectable : Selectable zone oracle operation policy now s candidate)
    (hfree : s.capacity.leases.get? operation.val.operationId = none)
    (hleast : ∀ other ∈ candidates, Selectable zone oracle operation policy now s other →
      precedes candidate other) :
    SelectedExactly zone oracle operation candidates policy now s
      (.admitted candidate lease eligibility) s' where
  admitted := iff_of_true ⟨_, _, _, rfl⟩ ⟨⟨candidate, hcandidate, hselectable⟩, hfree⟩
  least other _ _ h := by
    cases h
    exact ⟨hcandidate, hselectable, hleast⟩
  failed _ _ h := by cases h

end Selected

/-- What `select` makes of what was evaluated: it raises where someone is eligible and the time
has no timestamp, else it answers. -/
theorem select_exactly (env : RoutingEnvironment) {operation : ModelOperation}
    {policy : Option RoutingPolicy} {now : DateTime} {eligibility : List CandidateEligibility}
    {s t : RoutingState} (hsame : SameCapacity s t)
    (hitems : ∀ item ∈ eligibility, Evaluated oracle operation policy now item) :
    (∃ error s', (select env operation eligibility now).exec t = (.error error, s') ∧
      (∃ candidate ∈ eligibility.map (·.candidate),
        Eligible oracle operation policy now candidate) ∧
      now.timestamp env.zone = .error error) ∨
    ∃ admission s', (select env operation eligibility now).exec t = (.ok admission, s') ∧
      ((∃ candidate ∈ eligibility.map (·.candidate),
        Eligible oracle operation policy now candidate) →
          ∃ timestamp, now.timestamp env.zone = .ok timestamp) ∧
      SelectedExactly env.zone oracle operation (eligibility.map (·.candidate)) policy now s
        admission s' := by
  have hexec := select_exec env t ⟨operation, eligibility, now⟩
  have hmem := mem_eligible_iff hitems
  replace hsame : t.capacity = s.capacity := hsame
  by_cases hempty : (Routed.mk operation eligibility now).eligible = []
  · rw [if_pos hempty] at hexec
    have hnobody : eligible eligibility = [] := hempty
    have hnone : ∀ candidate ∈ eligibility.map (·.candidate),
        ¬Eligible oracle operation policy now candidate := by
      intro candidate hcandidate heligible
      have hin := (hmem candidate).2 ⟨hcandidate, heligible⟩
      rw [hnobody] at hin
      cases hin
    refine .inr ⟨_, t, hexec, ?_, .nobody hnone ?_ ?_ hsame⟩
    · rintro ⟨candidate, hcandidate, heligible⟩
      exact absurd heligible (hnone candidate hcandidate)
    · have hsome : eligibility.map (·.candidate) ≠ [] ↔ eligibility ≠ [] :=
        not_congr List.map_eq_nil_iff
      rw [hsome, ← all_late_iff hitems hnobody]
      split
      · next hlate => exact iff_of_true rfl hlate
      · next hlate => exact iff_of_false (fun h => by cases h) hlate
    · split
      · exact AdmissionFailure.noConfusion
      · exact AdmissionFailure.noConfusion
  · rw [if_neg hempty, hsame] at hexec
    dsimp only at hexec
    have hnobody : eligible eligibility ≠ [] := hempty
    obtain ⟨someone, hsomeone⟩ := List.exists_mem_of_ne_nil _ hnobody
    have heligible := (hmem someone).1 hsomeone
    have hout := acquireFirst_outcome env.zone s.capacity operation
      (Routed.mk operation eligibility now).eligible now
    generalize s.capacity.acquireFirst env.zone operation
      (Routed.mk operation eligibility now).eligible now = answer at hexec hout
    obtain ⟨result, capacity⟩ := answer
    cases hout with
    | unstamped e stamp => exact .inl ⟨e, _, hexec, ⟨someone, heligible⟩, stamp⟩
    | leased timestamp stamp leased =>
      refine .inr ⟨_, _, hexec, fun _ => ⟨timestamp, stamp⟩, ?_⟩
      refine .refused heligible.1 heligible.2 (fun hfree => ?_) (.inl rfl)
      rw [Dict.contains, hfree] at leased
      cases leased
    | acquired timestamp found _ stamp free found_eq outcome =>
      refine .inr ⟨_, _, hexec, fun _ => ⟨timestamp, stamp⟩, ?_⟩
      cases outcome with
      | refused _ prunes full =>
        refine .refused heligible.1 heligible.2 (fun _ candidate hcandidate hselectable => ?_)
          (.inr ⟨timestamp, stamp, prunes⟩)
        obtain ⟨hcandidateEligible, other, hother, hadmissible⟩ := hselectable
        cases stamp.symm.trans hother
        exact full candidate ((hmem candidate).2 ⟨hcandidate, hcandidateEligible⟩) hadmissible
      | admitted pruned candidate mem prunes _ admissible =>
        have hcandidate := (hmem candidate).1 mem
        refine .chosen hcandidate.1 ⟨hcandidate.2, timestamp, stamp, admissible⟩ free
          fun other hother hselectable => ?_
        obtain ⟨hotherEligible, otherStamp, hstamp, hadmissible⟩ := hselectable
        cases stamp.symm.trans hstamp
        exact acquire_least (congrArg Prod.fst found_eq)
          ((hmem other).2 ⟨hother, hotherEligible⟩) hadmissible

namespace Sample

def offered (modelId : String) (costEstimate predictedLatencyMs : Nat)
    (h : ModelCandidate.postInit ⟨modelId, "provider-a", .singleton "labels", .none,
      costEstimate, 0,
      predictedLatencyMs, 1⟩ = .ok ()) : ModelCandidate := ⟨_, h⟩

def dear : ModelCandidate := offered "dear" 5 10 (by decide +kernel)

def middle : ModelCandidate := offered "middle" 3 10 (by decide +kernel)

def full : ModelCandidate := offered "full" 1 10 (by decide +kernel)

/-- A candidate whose completion no date can hold. -/
def endless : ModelCandidate := offered "model" 1 (10 ^ 18) (by decide +kernel)

def fullScope : CapacityScope := ⟨⟨.model, "full"⟩, rfl⟩

/-- The cheapest model takes no operation. -/
def fullLimits : Dict CapacityScope CapacityLimit :=
  Dict.empty.insert fullScope ⟨{ concurrency := some 0 }, rfl⟩

theorem get?_fullLimits {scope : CapacityScope} {limit : CapacityLimit}
    (h : fullLimits.get? scope = some limit) : scope = fullScope := by
  rw [fullLimits, Dict.get?_insert] at h
  split at h
  · next hscope => exact hscope
  · cases h

def selectable (candidate : ModelCandidate) : Prop :=
  Selectable routing.zone (fun _ _ => true) firstOperation (some routingPolicy) (time 0)
    (.of fullLimits) candidate

theorem gates_hold {candidate : ModelCandidate} (now : DateTime)
    (hcandidate : candidate = dear ∨ candidate = middle ∨ candidate = full ∨ candidate = endless)
    {operation : ModelOperation}
    (hoperation : operation = firstOperation ∨ operation = secondOperation) :
    Eligible (fun _ _ => true) operation (some routingPolicy) now candidate := by
  refine ⟨routingPolicy, rfl, ⟨rfl, rfl, rfl⟩, ?_⟩
  rcases hoperation with rfl | rfl
  all_goals refine ⟨⟨?_, fun value hvalue => (by cases hvalue), ?_, ?_, rfl⟩,
    fun deadline hdeadline => by cases hdeadline⟩
  all_goals rcases hcandidate with rfl | rfl | rfl | rfl <;> decide +kernel

end Sample

namespace Sample

/-- The table after an admission at that time. -/
def counted : RoutingState :=
  { RoutingState.of requestLimits with
    capacity := ((HierarchicalCapacity.of requestLimits).acquireFirst localZone firstOperation
      [candidate] beforePower).2 }

def admittedBefore (scope : CapacityScope) : List (Rat × Nat) :=
  if scope = systemScope then [(2147483600000003 / 1000000, 5)] else []

theorem counted_events (scope : CapacityScope) :
    counted.capacity.eventsOf scope = stamped admittedBefore scope := by
  have hevents : counted.capacity.events =
      Dict.empty.insert systemScope [(binary64 (2147483600000003 / 1000000), 5)] := by
    decide +kernel
  unfold eventsOf
  rw [hevents, Dict.getDefault, Dict.get?_insert, stamped, admittedBefore]
  split
  · rfl
  · rfl

end Sample

end AiRetrieval
