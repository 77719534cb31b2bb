import AiRetrieval.Spec.Router
import AiRetrieval.Sanity.CapacityOutcomes

/-! What a call of the planner does to the capacity table its router admits on. -/

namespace AiRetrieval.RoutedModelPlanner

open Program HierarchicalCapacity

/-- An operation with its candidates evaluated, and the time the router is told. -/
structure Routed where
  operation : ModelOperation
  eligibility : List CandidateEligibility
  now : DateTime
  deriving DecidableEq

def Routed.eligible (routed : Routed) : List ModelCandidate :=
  ModelRouter.eligible routed.eligibility

/-- The part of `plan` that comes before the capacity table. -/
def route (env : RoutingEnvironment) (operationId : String) (work : ModelWork)
    (context : ExecutionContext) (responseReserveMs : Nat) : Routing Routed := do
  let asked ← request env operationId work context responseReserveMs
  let eligibility ←
    ModelRouter.evaluate env asked.operation asked.candidates asked.policy asked.now
  return ⟨asked.operation, eligibility, asked.now⟩

def SameCapacity (s s' : RoutingState) : Prop := s'.capacity = s.capacity

/-- The outside was asked, and nothing else happened. -/
structure Asks (s s' : RoutingState) : Prop where
  same : SameCapacity s s'
  moment : s.moment ≤ s'.moment

instance : IsPreorder RoutingState Asks where
  refl _ := ⟨rfl, le_refl _⟩
  trans _ _ _ h h' := ⟨Eq.trans h'.same h.same, h.moment.trans h'.moment⟩

section Route

variable {env : RoutingEnvironment}

theorem ask_asks {α : Type} (answer : Nat → Except PyError α) :
    Moves Asks (ModelRouter.ask answer) := fun _ => ⟨rfl, Nat.le_succ _⟩

theorem reasons_asks (operation : ModelOperation) (candidate : ModelCandidate)
    (policy : Option RoutingPolicy) (now : DateTime) :
    Moves Asks (ModelRouter.reasons env operation candidate policy now) := by
  cases policy with
  | none => exact moves_pure _
  | some policy =>
    refine moves_ite (moves_pure _) ?_
    refine moves_ite (moves_pure _) ?_
    refine moves_ite (moves_pure _) ?_
    apply moves_bind (ask_asks _)
    intro available
    refine moves_bind (moves_lift _) ?_
    intro late
    exact moves_pure _

theorem evaluate_asks (operation : ModelOperation) (candidates : List ModelCandidate)
    (policy : Option RoutingPolicy) (now : DateTime) :
    Moves Asks (ModelRouter.evaluate env operation candidates policy now) := by
  apply moves_mapM
  intro candidate _
  apply moves_bind (reasons_asks operation candidate policy now)
  intro reasons
  exact moves_pure _

theorem request_asks (operationId : String) (work : ModelWork) (context : ExecutionContext)
    (responseReserveMs : Nat) :
    Moves Asks (request env operationId work context responseReserveMs) := by
  refine moves_bind (moves_lift _) ?_
  intro operation
  apply moves_bind (ask_asks _)
  intro candidates
  apply moves_bind (ask_asks _)
  intro policy
  apply moves_bind (ask_asks _)
  intro now
  exact moves_pure _

theorem route_asks (env : RoutingEnvironment) (operationId : String) (work : ModelWork)
    (context : ExecutionContext) (responseReserveMs : Nat) :
    Moves Asks (route env operationId work context responseReserveMs) := by
  apply moves_bind (request_asks operationId work context responseReserveMs)
  intro asked
  apply moves_bind (evaluate_asks _ _ _ _)
  intro eligibility
  exact moves_pure _

/-- The time the router is told is the clock's answer to one of the questions. -/
theorem route_clock {operationId : String} {work : ModelWork} {context : ExecutionContext}
    {responseReserveMs : Nat} {s s' : RoutingState} {routed : Routed}
    (h : (route env operationId work context responseReserveMs).exec s = (.ok routed, s')) :
    ∃ n, s.moment ≤ n ∧ n < s'.moment ∧ env.clock n = .ok routed.now := by
  obtain ⟨asked, t, hasked, h⟩ := bind_returns h
  obtain ⟨eligibility, u, heligibility, h⟩ := bind_returns h
  cases h
  have hlast := @evaluate_asks env asked.operation asked.candidates asked.policy asked.now t
  unfold after at hlast
  rw [heligibility] at hlast
  obtain ⟨operation, t1, hoperation, hasked⟩ := bind_returns hasked
  rw [exec_liftExcept, Prod.mk.injEq] at hoperation
  obtain ⟨candidates, t2, hcandidates, hasked⟩ := bind_returns hasked
  obtain ⟨policy, t3, hpolicy, hasked⟩ := bind_returns hasked
  obtain ⟨now, t4, hnow, hasked⟩ := bind_returns hasked
  cases hasked
  -- two answers come before the clock's
  obtain rfl := hoperation.2
  obtain ⟨-, rfl⟩ := Prod.mk.inj hcandidates
  obtain ⟨-, rfl⟩ := Prod.mk.inj hpolicy
  obtain ⟨hclock, rfl⟩ := Prod.mk.inj hnow
  exact ⟨_, Nat.le_add_right _ 2, Nat.lt_of_succ_le hlast.moment, hclock⟩

/-- The operation is asked for under the identifier the caller gives. -/
theorem route_operation {operationId : String} {work : ModelWork} {context : ExecutionContext}
    {responseReserveMs : Nat} {s s' : RoutingState} {routed : Routed}
    (h : (route env operationId work context responseReserveMs).exec s = (.ok routed, s')) :
    routed.operation.val.operationId = operationId := by
  obtain ⟨asked, t, hasked, h⟩ := bind_returns h
  obtain ⟨eligibility, u, -, h⟩ := bind_returns h
  cases h
  obtain ⟨operation, t, hoperation, hasked⟩ := bind_returns hasked
  obtain ⟨candidates, t, -, hasked⟩ := bind_returns hasked
  obtain ⟨policy, t, -, hasked⟩ := bind_returns hasked
  obtain ⟨now, t, -, hasked⟩ := bind_returns hasked
  cases hasked
  rw [exec_liftExcept, Prod.mk.injEq] at hoperation
  obtain ⟨quality, -, hmake⟩ := except_bind_eq_ok.1 hoperation.1
  rw [Checked.make_eq_ok.1 hmake]

end Route

section Outcome

variable {env : RoutingEnvironment}

theorem select_exec (env : RoutingEnvironment) (s : RoutingState) (routed : Routed) :
    (ModelRouter.select env routed.operation routed.eligibility routed.now).exec s =
      if routed.eligible = [] then
        (.ok (.failed (if routed.eligibility.flatMap (·.reasons) ≠ [] ∧
          ∀ reason ∈ routed.eligibility.flatMap (·.reasons), reason = .deadlineIneligible then
            .deadlineIneligible else .noEligibleModel) routed.eligibility), s)
      else
        let answer := s.capacity.acquireFirst env.zone routed.operation routed.eligible routed.now
        (answer.1.map fun admission => match admission with
          | none => .failed .capacityUnavailable routed.eligibility
          | some admission => .admitted admission.candidate admission.lease routed.eligibility,
          { s with capacity := answer.2 }) := by
  unfold ModelRouter.select Routed.eligible
  split
  · dsimp only
    split <;> rfl
  · simp only [exec_bind, exec_get, exec_set]
    generalize s.capacity.acquireFirst env.zone routed.operation
      (ModelRouter.eligible routed.eligibility) routed.now = answer
    obtain ⟨_ | _ | admission, capacity⟩ := answer
    · rfl
    · rfl
    · rfl

/-- What `plan` does: raise before it reaches the table, find nothing eligible, raise where its
time has no timestamp, find its identifier leased or every eligible candidate full, or lease
room of one of them. -/
inductive PlanOutcome (env : RoutingEnvironment) (s : RoutingState) (operationId : String)
    (work : ModelWork) (context : ExecutionContext) (responseReserveMs : Nat) :
    Except PlanningError ModelPlan → RoutingState → Prop
  | unrouted (e : PyError) (s' : RoutingState)
    (asked : ((route env operationId work context responseReserveMs).exec s).1 = .error e)
    (same : SameCapacity s s') :
    PlanOutcome env s operationId work context responseReserveMs (.error (.raised e)) s'
  | ineligible (routed : Routed) (failure : AdmissionFailure) (s' : RoutingState)
    (asked : ((route env operationId work context responseReserveMs).exec s).1 = .ok routed)
    (nobody : routed.eligible = []) (other : failure ≠ .capacityUnavailable)
    (same : SameCapacity s s') :
    PlanOutcome env s operationId work context responseReserveMs
      (.error (.modelPlanningError failure)) s'
  | unstamped (routed : Routed) (e : PyError) (s' : RoutingState)
    (asked : ((route env operationId work context responseReserveMs).exec s).1 = .ok routed)
    (stamp : routed.now.timestamp env.zone = .error e) (same : SameCapacity s s') :
    PlanOutcome env s operationId work context responseReserveMs (.error (.raised e)) s'
  | leased (routed : Routed) (timestamp : Rat) (s' : RoutingState)
    (asked : ((route env operationId work context responseReserveMs).exec s).1 = .ok routed)
    (stamp : routed.now.timestamp env.zone = .ok timestamp)
    (leased : s.capacity.leases.contains operationId = true) (same : SameCapacity s s') :
    PlanOutcome env s operationId work context responseReserveMs
      (.error (.modelPlanningError .capacityUnavailable)) s'
  | full (routed : Routed) (timestamp : Rat) (s' : RoutingState)
    (asked : ((route env operationId work context responseReserveMs).exec s).1 = .ok routed)
    (stamp : routed.now.timestamp env.zone = .ok timestamp)
    (free : s.capacity.leases.get? operationId = none)
    (prunes : Prunes timestamp s.capacity s'.capacity)
    (full : ∀ candidate ∈ routed.eligible,
      ¬s.capacity.Admissible timestamp routed.operation candidate) :
    PlanOutcome env s operationId work context responseReserveMs
      (.error (.modelPlanningError .capacityUnavailable)) s'
  | planned (routed : Routed) (timestamp : Rat) (plan : ModelPlan) (s' : RoutingState)
    (pruned : HierarchicalCapacity)
    (asked : ((route env operationId work context responseReserveMs).exec s).1 = .ok routed)
    (stamp : routed.now.timestamp env.zone = .ok timestamp)
    (free : s.capacity.leases.get? operationId = none)
    (operation_eq : plan.operation = routed.operation)
    (mem : plan.candidate ∈ routed.eligible)
    (prunes : Prunes timestamp s.capacity pruned)
    (admissible : s.capacity.Admissible timestamp routed.operation plan.candidate)
    (lease_eq : plan.lease =
      ⟨operationId, s.capacity.limitedScopes routed.operation plan.candidate⟩)
    (granted : s'.capacity = pruned.grant routed.operation
      (s.capacity.limitedScopes routed.operation plan.candidate) timestamp) :
    PlanOutcome env s operationId work context responseReserveMs (.ok plan) s'

theorem plan_exec (env : RoutingEnvironment) (s : RoutingState) (operationId : String)
    (work : ModelWork) (context : ExecutionContext) (responseReserveMs : Nat) :
    (plan env operationId work context responseReserveMs).exec s =
      (do
        let routed ← raising .raised (route env operationId work context responseReserveMs)
        let admission ← raising .raised
          (ModelRouter.select env routed.operation routed.eligibility routed.now)
        match admission with
        | .failed failure _ => throw (.modelPlanningError failure)
        | .admitted candidate lease _ => return (⟨routed.operation, candidate, lease,
            ⟨candidate.val.costEstimate, inputTokens work context, outputTokens work context⟩⟩ :
            ModelPlan) : Program PlanningError RoutingState ModelPlan).exec s := by
  unfold plan route ModelRouter.admitOperation
  simp only [exec_bind, exec_raising]
  rcases (request env operationId work context responseReserveMs).exec s with ⟨e | asked, t⟩
  · rfl
  · simp only [Except.mapError]
    rcases (ModelRouter.evaluate env asked.operation asked.candidates asked.policy
      asked.now).exec t with ⟨e | eligibility, u⟩
    · rfl
    · rfl

theorem plan_outcome (env : RoutingEnvironment) (s : RoutingState) (operationId : String)
    (work : ModelWork) (context : ExecutionContext) (responseReserveMs : Nat) :
    PlanOutcome env s operationId work context responseReserveMs
      ((plan env operationId work context responseReserveMs).exec s).1
      ((plan env operationId work context responseReserveMs).exec s).2 := by
  have hsame := (route_asks env operationId work context responseReserveMs s).same
  unfold after at hsame
  rw [plan_exec]
  simp only [exec_bind, exec_raising]
  rcases hroute : (route env operationId work context responseReserveMs).exec s with
    ⟨e | routed, t⟩
  · exact .unrouted e t (by rw [hroute]) (by rw [hroute] at hsame; exact hsame)
  · have hasked : ((route env operationId work context responseReserveMs).exec s).1 =
        .ok routed := by rw [hroute]
    have hid := route_operation hroute
    rw [hroute] at hsame
    replace hsame : t.capacity = s.capacity := hsame
    simp only [Except.mapError, select_exec]
    by_cases hnobody : routed.eligible = []
    · simp only [if_pos hnobody]
      refine .ineligible routed _ t hasked hnobody ?_ hsame
      split
      · exact AdmissionFailure.noConfusion
      · exact AdmissionFailure.noConfusion
    · simp only [if_neg hnobody]
      rw [hsame]
      have hout := acquireFirst_outcome env.zone s.capacity routed.operation routed.eligible
        routed.now
      generalize s.capacity.acquireFirst env.zone routed.operation routed.eligible routed.now =
        answer at hout ⊢
      obtain ⟨result, capacity⟩ := answer
      cases hout with
      | unstamped e stamp => exact .unstamped routed e _ hasked stamp rfl
      | leased timestamp stamp leased =>
        exact .leased routed timestamp _ hasked stamp (hid ▸ leased) rfl
      | acquired timestamp admission _ stamp free _ outcome =>
        rw [hid] at free
        cases outcome with
        | refused _ prunes full => exact .full routed timestamp _ hasked stamp free prunes full
        | admitted pruned candidate mem prunes _ admissible =>
          refine .planned routed timestamp _ _ pruned hasked stamp free rfl mem prunes admissible
            ?_ rfl
          rw [hid]

/-- A plan that reaches the table is refused there where its identifier is leased or every
eligible candidate is full. -/
theorem plan_refused_iff {s : RoutingState} {operationId : String} {work : ModelWork}
    {context : ExecutionContext} {responseReserveMs : Nat} {routed : Routed} {timestamp : Rat}
    (hrouted : ((route env operationId work context responseReserveMs).exec s).1 = .ok routed)
    (hstamp : routed.now.timestamp env.zone = .ok timestamp) (hsome : routed.eligible ≠ []) :
    ((plan env operationId work context responseReserveMs).exec s).1 =
        .error (.modelPlanningError .capacityUnavailable) ↔
      s.capacity.leases.contains operationId = true ∨ ∀ candidate ∈ routed.eligible,
        ¬s.capacity.Admissible timestamp routed.operation candidate := by
  have hout := plan_outcome env s operationId work context responseReserveMs
  generalize (plan env operationId work context responseReserveMs).exec s = answer at hout ⊢
  obtain ⟨reply, after⟩ := answer
  cases hout with
  | unrouted e _ asked _ => cases hrouted.symm.trans asked
  | ineligible other failure _ asked nobody _ _ =>
    cases hrouted.symm.trans asked
    exact absurd nobody hsome
  | unstamped other e _ asked unstamped _ =>
    cases hrouted.symm.trans asked
    cases hstamp.symm.trans unstamped
  | leased other _ _ _ _ leased _ => exact iff_of_true rfl (.inl leased)
  | full other _ _ asked stamp _ _ full =>
    cases hrouted.symm.trans asked
    cases hstamp.symm.trans stamp
    exact iff_of_true rfl (.inr full)
  | planned other _ plan _ pruned asked stamp free _ mem _ admissible _ _ =>
    cases hrouted.symm.trans asked
    cases hstamp.symm.trans stamp
    refine iff_of_false (fun h => by cases h) ?_
    rintro (hleased | hfull)
    · rw [Dict.contains, free] at hleased
      cases hleased
    · exact hfull _ mem admissible

/-- Selecting asks nothing, so a plan asks what routing asks. -/
theorem plan_moment (env : RoutingEnvironment) (s : RoutingState) (operationId : String)
    (work : ModelWork) (context : ExecutionContext) (responseReserveMs : Nat) :
    ((plan env operationId work context responseReserveMs).exec s).2.moment =
      ((route env operationId work context responseReserveMs).exec s).2.moment := by
  rw [plan_exec]
  simp only [exec_bind, exec_raising]
  rcases (route env operationId work context responseReserveMs).exec s with ⟨e | routed, t⟩
  · rfl
  · have hselect : ((ModelRouter.select env routed.operation routed.eligibility routed.now).exec
        t).2.moment = t.moment := by
      rw [select_exec]
      split <;> rfl
    simp only [Except.mapError]
    generalize (ModelRouter.select env routed.operation routed.eligibility routed.now).exec t =
      answer at hselect
    obtain ⟨_ | _ | _, u⟩ := answer <;> exact hselect

theorem plan_leases (env : RoutingEnvironment) (s : RoutingState) (operationId : String)
    (work : ModelWork) (context : ExecutionContext) (responseReserveMs : Nat) :
    (∃ e s', (plan env operationId work context responseReserveMs).exec s = (.error e, s') ∧
      s'.capacity.leases = s.capacity.leases) ∨
    (∃ plan s', (RoutedModelPlanner.plan env operationId work context responseReserveMs).exec s =
        (.ok plan, s') ∧
      s.capacity.leases.get? plan.lease.operationId = none ∧
      s'.capacity.leases = s.capacity.leases.insert plan.lease.operationId plan.lease) := by
  have hout := plan_outcome env s operationId work context responseReserveMs
  generalize (plan env operationId work context responseReserveMs).exec s = answer at hout ⊢
  obtain ⟨result, after⟩ := answer
  cases hout with
  | unrouted e _ _ same => exact .inl ⟨_, _, rfl, by rw [same]⟩
  | ineligible routed failure _ _ _ _ same => exact .inl ⟨_, _, rfl, by rw [same]⟩
  | unstamped routed e _ _ _ same => exact .inl ⟨_, _, rfl, by rw [same]⟩
  | leased routed _ _ _ _ _ same => exact .inl ⟨_, _, rfl, by rw [same]⟩
  | full routed _ _ _ _ _ prunes _ => exact .inl ⟨_, _, rfl, prunes.leases⟩
  | planned routed _ plan _ pruned asked _ free operation_eq _ prunes _ lease_eq granted =>
    refine .inr ⟨plan, _, rfl, ?_, ?_⟩
    · rw [lease_eq]
      exact free
    · have hid : routed.operation.val.operationId = operationId :=
        route_operation (Prod.ext asked rfl)
      rw [granted, lease_eq, ← prunes.leases, ← hid]
      rfl

end Outcome

end AiRetrieval.RoutedModelPlanner
