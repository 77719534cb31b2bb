import AiRetrieval.Sanity.BudgetInvariant
import AiRetrieval.Sanity.PlanOutcomes
import AiRetrieval.Spec.ModelCalls

/-! What one step of a model operation does to the shared leases and reservations, and how
far the operation has got. -/

namespace AiRetrieval

open Program CallSite

abbrev CallScript := Script ModelCallError Services CallLocals

namespace Services

def leaseOf (s : Services) (operationId : String) : Option CapacityLease :=
  s.routing.capacity.leases.get? operationId

def recordOf (s : Services) (reservationId : String) :
    Option ReservationRecord :=
  s.budget.reservations.get? reservationId

def Out (s : Services) (plan : ModelPlan) : Prop :=
  s.leaseOf plan.lease.operationId = some plan.lease

/-- A reservation is recorded and not reconciled yet. -/
def Unsettled (s : Services) (reservation : BudgetReservation) : Prop :=
  ∃ record, s.recordOf reservation.val.reservationId = some record ∧ record.receipt = none

end Services

/-- What an operation has obtained when it leaves its `try` block. -/
inductive Obtained where
  | nothing
  | planned (plan : ModelPlan)
  | reserved (plan : ModelPlan) (reservation : BudgetReservation)
  | answered (plan : ModelPlan) (reservation : BudgetReservation)
    (invoked : ModelInvocationResult)

namespace Obtained

def locals (result : Option ModelCallResult) : Obtained → CallLocals
  | .nothing => { result := result }
  | .planned plan => { plan := some plan, result := result, events := [.planned plan] }
  | .reserved plan reservation => {
      plan := some plan
      reservationId := some reservation.val.reservationId
      result := result
      events := [.planned plan, .reserved reservation] }
  | .answered plan reservation invoked => {
      plan := some plan
      reservationId := some reservation.val.reservationId
      invoked := some invoked
      result := result
      events := [.planned plan, .reserved reservation, .invoked invoked.actualUsage] }

def reconciliation : Obtained → List SettlementEvent
  | .nothing => []
  | .planned _ => []
  | .reserved plan reservation =>
    [.reconciled reservation.val.reservationId plan.estimate true]
  | .answered _ reservation invoked =>
    [.reconciled reservation.val.reservationId invoked.actualUsage true]

def release : Obtained → List SettlementEvent
  | .nothing => []
  | .planned plan => [.released plan.lease true]
  | .reserved plan _ => [.released plan.lease true]
  | .answered plan _ _ => [.released plan.lease true]

def Holds (s : Services) : Obtained → Prop
  | .nothing => True
  | .planned plan => s.Out plan
  | .reserved plan reservation => s.Out plan ∧ s.Unsettled reservation
  | .answered plan reservation _ => s.Out plan ∧ s.Unsettled reservation

/-- The rest of the `try` block. -/
def rest (env : ServiceEnvironment) (site : CallSite) : Obtained → List CallStep
  | .nothing => [planStep env site, reserveStep env site, invokeStep env site, concludeStep site]
  | .planned _ => [reserveStep env site, invokeStep env site, concludeStep site]
  | .reserved _ _ => [invokeStep env site, concludeStep site]
  | .answered _ _ _ => [concludeStep site]

end Obtained

/-- How far an operation has got, and that what it obtained is still its own. -/
inductive Stage (env : ServiceEnvironment) (site : CallSite) (s : Services) (r : CallScript) : Prop
  | trying (o : Obtained) (body : r.body = o.rest env site)
    (cleanup : r.cleanup = [reconcileStep, completeStep]) (locals : r.locals = o.locals none)
    (holds : o.Holds s)
  | leaving (o : Obtained) (result : Option ModelCallResult) (body : r.body = [])
    (cleanup : r.cleanup = [reconcileStep, completeStep]) (locals : r.locals = o.locals result)
    (holds : o.Holds s)
  | reconciled (o : Obtained) (result : Option ModelCallResult) (body : r.body = [])
    (cleanup : r.cleanup = [completeStep]) (plan : r.locals.plan = (o.locals result).plan)
    (events : r.locals.events = (o.locals result).events ++ o.reconciliation)
    (out : ∀ plan, r.locals.plan = some plan → s.Out plan)
  | ended (o : Obtained) (result : Option ModelCallResult) (body : r.body = [])
    (cleanup : r.cleanup = [])
    (events : r.locals.events = (o.locals result).events ++ o.reconciliation ++ o.release)

/-- The operation holds the lease of a plan. -/
def HoldsPlan (r : CallScript) (plan : ModelPlan) : Prop :=
  r.cleanup ≠ [] ∧ r.locals.plan = some plan

/-- The operation has been granted a reservation. -/
def HasReserved (r : CallScript) (reservation : BudgetReservation) : Prop :=
  SettlementEvent.reserved reservation ∈ r.locals.events

/-- What a step does to the leases and the reservations all operations share. -/
inductive Effect (s s' : Services) (r r' : CallScript) : Prop
  | quiet (leases : ∀ id, s'.leaseOf id = s.leaseOf id)
    (records : ∀ id, s'.recordOf id = s.recordOf id)
    (plans : ∀ plan, HoldsPlan r' plan → HoldsPlan r plan)
    (reservations : ∀ reservation, HasReserved r' reservation → HasReserved r reservation)
  | leased (plan : ModelPlan) (free : s.leaseOf plan.lease.operationId = none)
    (leases : ∀ id, s'.leaseOf id =
      if id = plan.lease.operationId then some plan.lease else s.leaseOf id)
    (records : ∀ id, s'.recordOf id = s.recordOf id)
    (plans : ∀ other, HoldsPlan r' other → other = plan)
    (reservations : ∀ reservation, HasReserved r' reservation → HasReserved r reservation)
  | reserved (reservation : BudgetReservation)
    (free : s.recordOf reservation.val.reservationId = none)
    (leases : ∀ id, s'.leaseOf id = s.leaseOf id)
    (records : ∀ id, s'.recordOf id =
      if id = reservation.val.reservationId then some ⟨reservation, none⟩ else s.recordOf id)
    (plans : ∀ plan, HoldsPlan r' plan → HoldsPlan r plan)
    (reservations : ∀ other, HasReserved r' other → HasReserved r other ∨ other = reservation)
  | reconciled (reservation : BudgetReservation) (own : HasReserved r reservation)
    (record : ReservationRecord)
    (leases : ∀ id, s'.leaseOf id = s.leaseOf id)
    (records : ∀ id, s'.recordOf id =
      if id = reservation.val.reservationId then some record else s.recordOf id)
    (plans : ∀ plan, HoldsPlan r' plan → HoldsPlan r plan)
    (reservations : ∀ other, HasReserved r' other → HasReserved r other)
  | released (plan : ModelPlan) (own : HoldsPlan r plan)
    (leases : ∀ id, s'.leaseOf id = if id = plan.lease.operationId then none else s.leaseOf id)
    (records : ∀ id, s'.recordOf id = s.recordOf id)
    (plans : ∀ other, ¬HoldsPlan r' other)
    (reservations : ∀ other, HasReserved r' other → HasReserved r other)

/-- The ledger behind the shared budget controller adds up. -/
def Ledger (s : Services) : Prop :=
  ∃ lost strays, InMemoryBudgetController.BudgetInvariant lost strays s.budget

/-- A step keeps the ledger, takes its operation to its next stage and has one effect. -/
structure Proceeds (env : ServiceEnvironment) (site : CallSite) (s : Services) (r : CallScript)
    (next : CallScript × Services) : Prop where
  ledger : Ledger next.2
  stage : Stage env site next.2 next.1
  effect : Effect s next.2 r next.1

section Frame

variable {s s' : Services} {r r' q : CallScript}

theorem Effect.out (h : Effect s s' r r') {plan : ModelPlan}
    (hapart : ∀ own, HoldsPlan r own → own.lease.operationId ≠ plan.lease.operationId)
    (hout : s.Out plan) : s'.Out plan := by
  unfold Services.Out at hout ⊢
  cases h with
  | quiet leases _ _ _ => rw [leases, hout]
  | leased other free leases _ _ _ =>
    rw [leases, if_neg, hout]
    intro he
    rw [← he, hout] at free
    cases free
  | reserved reservation _ leases _ _ _ => rw [leases, hout]
  | reconciled reservation _ record leases _ _ _ => rw [leases, hout]
  | released other own leases _ _ _ =>
    rw [leases, if_neg, hout]
    intro he
    exact hapart other own he.symm

theorem Effect.unsettled (h : Effect s s' r r') {reservation : BudgetReservation}
    (hapart : ∀ own, HasReserved r own →
      own.val.reservationId ≠ reservation.val.reservationId)
    (hopen : s.Unsettled reservation) : s'.Unsettled reservation := by
  obtain ⟨record, hrecord, hactive⟩ := hopen
  refine ⟨record, ?_, hactive⟩
  cases h with
  | quiet _ records _ _ => rw [records, hrecord]
  | leased plan _ _ records _ _ => rw [records, hrecord]
  | reserved other free _ records _ _ =>
    rw [records, if_neg, hrecord]
    intro he
    rw [← he, hrecord] at free
    cases free
  | reconciled other own _ _ records _ _ =>
    rw [records, if_neg, hrecord]
    intro he
    exact hapart other own he.symm
  | released plan _ _ records _ _ => rw [records, hrecord]

theorem Effect.recorded (h : Effect s s' r r') {id : String}
    (hid : ∃ record, s.recordOf id = some record) : ∃ record, s'.recordOf id = some record := by
  obtain ⟨record, hrecord⟩ := hid
  cases h with
  | quiet _ records _ _ => exact ⟨record, by rw [records, hrecord]⟩
  | leased plan _ _ records _ _ => exact ⟨record, by rw [records, hrecord]⟩
  | reserved other free _ records _ _ =>
    rw [records]
    split
    · exact ⟨_, rfl⟩
    · exact ⟨record, hrecord⟩
  | reconciled other _ changed _ records _ _ =>
    rw [records]
    split
    · exact ⟨changed, rfl⟩
    · exact ⟨record, hrecord⟩
  | released plan _ _ records _ _ => exact ⟨record, by rw [records, hrecord]⟩

theorem Obtained.Holds.mono {o : Obtained} (h : o.Holds s) (result : Option ModelCallResult)
    (hout : ∀ plan, (o.locals result).plan = some plan → s.Out plan → s'.Out plan)
    (hopen : ∀ reservation, SettlementEvent.reserved reservation ∈ (o.locals result).events →
      s.Unsettled reservation → s'.Unsettled reservation) : o.Holds s' := by
  cases o with
  | nothing => trivial
  | planned plan => exact hout plan rfl h
  | reserved plan reservation =>
    exact ⟨hout plan rfl h.1, hopen reservation (by simp [Obtained.locals]) h.2⟩
  | answered plan reservation invoked =>
    exact ⟨hout plan rfl h.1, hopen reservation (by simp [Obtained.locals]) h.2⟩

theorem Stage.others {env : ServiceEnvironment} {site : CallSite} (hq : Stage env site s q)
    (h : Effect s s' r r')
    (hplans : ∀ own plan, HoldsPlan r own → HoldsPlan q plan →
      own.lease.operationId ≠ plan.lease.operationId)
    (hreservations : ∀ own reservation, HasReserved r own → HasReserved q reservation →
      own.val.reservationId ≠ reservation.val.reservationId) : Stage env site s' q := by
  have hout (plan : ModelPlan) (hplan : HoldsPlan q plan) (ho : s.Out plan) : s'.Out plan :=
    h.out (fun own hown => hplans own plan hown hplan) ho
  have hopen (reservation : BudgetReservation) (hres : HasReserved q reservation)
      (ho : s.Unsettled reservation) : s'.Unsettled reservation :=
    h.unsettled (fun own hown => hreservations own reservation hown hres) ho
  cases hq with
  | trying o body cleanup locals holds =>
    refine .trying o body cleanup locals (holds.mono none ?_ ?_)
    · intro plan hplan
      exact hout plan ⟨by rw [cleanup]; exact List.cons_ne_nil _ _, by rw [locals, hplan]⟩
    · intro reservation hres
      exact hopen reservation (by unfold HasReserved; rw [locals]; exact hres)
  | leaving o result body cleanup locals holds =>
    refine .leaving o result body cleanup locals (holds.mono result ?_ ?_)
    · intro plan hplan
      exact hout plan ⟨by rw [cleanup]; exact List.cons_ne_nil _ _, by rw [locals, hplan]⟩
    · intro reservation hres
      exact hopen reservation (by unfold HasReserved; rw [locals]; exact hres)
  | reconciled o result body cleanup plan events out =>
    refine .reconciled o result body cleanup plan events fun held hheld => ?_
    exact hout held ⟨by rw [cleanup]; exact List.cons_ne_nil _ _, hheld⟩ (out held hheld)
  | ended o result body cleanup events => exact .ended o result body cleanup events

end Frame

section Steps

variable {env : ServiceEnvironment} {site : CallSite} {s : Services} {r : CallScript}

/-- An operation that leaves its `try` block as it is proceeds, whatever else it asked. -/
theorem proceeds_leaving {s' : Services} {o : Obtained} {result : Option ModelCallResult}
    {raised : Option ModelCallError} (hledger : Ledger s')
    (hcleanup : r.cleanup = [reconcileStep, completeStep]) (hlocals : r.locals = o.locals none)
    (hholds : o.Holds s) (hrecords : s'.budget.reservations = s.budget.reservations)
    (hleases : s'.routing.capacity.leases = s.routing.capacity.leases) :
    Proceeds env site s r
      ({ r with body := [], locals := o.locals result, raised := raised }, s') := by
  have hlease (id : String) : s'.leaseOf id = s.leaseOf id := by
    unfold Services.leaseOf
    rw [hleases]
  have hrecord (id : String) : s'.recordOf id = s.recordOf id := by
    unfold Services.recordOf
    rw [hrecords]
  refine ⟨hledger, ?_, ?_⟩
  · refine .leaving o result rfl hcleanup rfl (hholds.mono none ?_ ?_)
    · intro plan _ hout
      exact (hlease _).trans hout
    · rintro reservation _ ⟨record, hr, hactive⟩
      exact ⟨record, (hrecord _).trans hr, hactive⟩
  · refine .quiet hlease hrecord ?_ ?_
    · rintro plan ⟨hc, hp⟩
      refine ⟨hc, ?_⟩
      rw [hlocals, ← hp]
      cases o <;> rfl
    · intro reservation hr
      unfold HasReserved at hr ⊢
      rw [hlocals]
      cases o <;> exact hr

theorem planStep_proceeds (hledger : Ledger s) (hbody : r.body = Obtained.nothing.rest env site)
    (hcleanup : r.cleanup = [reconcileStep, completeStep])
    (hlocals : r.locals = Obtained.nothing.locals none) :
    Proceeds env site s r (r.step s) := by
  rcases RoutedModelPlanner.plan_leases env.toRoutingEnvironment s.routing site.operationId
    site.work site.context site.responseReserveMs with
    ⟨e, routing, hplan, hleases⟩ | ⟨plan, routing, hplan, hfree, hleases⟩
  · have hexec : (planStep env site).exec (s, r.locals) =
        (.error (.planning e), ({ s with routing := routing }, r.locals)) := by
      unfold planStep onRouting
      simp only [exec_bind, exec_zoom, exec_raising, hplan]
      rfl
    rw [Script.step_body_error hbody hexec, hlocals]
    exact proceeds_leaving hledger hcleanup hlocals trivial rfl hleases
  · have hexec : (planStep env site).exec (s, r.locals) =
        (.ok (), ({ s with routing := routing }, (Obtained.planned plan).locals none)) := by
      unfold planStep onRouting
      simp only [exec_bind, exec_zoom, exec_raising, hplan, hlocals]
      rfl
    rw [Script.step_body_ok hbody hexec]
    have hlease (id : String) : Services.leaseOf { s with routing := routing } id =
        if id = plan.lease.operationId then some plan.lease else s.leaseOf id := by
      unfold Services.leaseOf
      rw [hleases, Dict.get?_insert]
    refine ⟨hledger, .trying (.planned plan) rfl hcleanup rfl ?_, ?_⟩
    · exact (hlease _).trans (if_pos rfl)
    · refine .leased plan hfree hlease (fun _ => rfl) ?_ ?_
      · rintro other ⟨-, hother⟩
        exact (Option.some.inj hother).symm
      · intro reservation hr
        simp [HasReserved, Obtained.locals] at hr

theorem reserveStep_exec {plan : ModelPlan} {locals : CallLocals}
    (hlocals : locals = (Obtained.planned plan).locals none) :
    (reserveStep env site).exec (s, locals) =
      match (InMemoryBudgetController.reserve site.context.executionId.val plan.estimate
        (env.identifier s.moment)).exec s.budget with
      | (.error e, budget) => (.error (.raised e),
          ({ s with moment := s.moment + 1, budget := budget }, locals))
      | (.ok (.exhausted exhaustion), budget) => (.error (site.exhausted exhaustion),
          ({ s with moment := s.moment + 1, budget := budget }, locals))
      | (.ok (.reserved reservation), budget) => (.ok (),
          ({ s with moment := s.moment + 1, budget := budget },
            (Obtained.reserved plan reservation).locals none)) := by
  unfold reserveStep onBudget
  rw [hlocals]
  simp only [exec_bind, exec_get, exec_set, exec_zoom, exec_raising, Obtained.locals]
  rcases (InMemoryBudgetController.reserve site.context.executionId.val plan.estimate
    (env.identifier s.moment)).exec s.budget with ⟨e | decision, budget⟩
  · rfl
  · cases decision with
    | exhausted exhaustion => rfl
    | reserved reservation => rfl

theorem reserveStep_proceeds (hledger : Ledger s) {plan : ModelPlan}
    (hbody : r.body = (Obtained.planned plan).rest env site)
    (hcleanup : r.cleanup = [reconcileStep, completeStep])
    (hlocals : r.locals = (Obtained.planned plan).locals none) (hout : s.Out plan) :
    Proceeds env site s r (r.step s) := by
  obtain ⟨lost, strays, hinv⟩ := hledger
  have hreserve := InMemoryBudgetController.reserve_outcome hinv.wired
    site.context.executionId.val plan.estimate (env.identifier s.moment)
  obtain ⟨lost', strays', hnext, -⟩ := hinv.step
    (.reserve site.context.executionId.val plan.estimate (env.identifier s.moment))
  simp only [budgetMachine, BudgetCall.program, exec_map] at hnext
  have hexec : (reserveStep env site).exec (s, r.locals) = _ := reserveStep_exec hlocals
  generalize (InMemoryBudgetController.reserve site.context.executionId.val plan.estimate
    (env.identifier s.moment)).exec s.budget = answer at hreserve hnext hexec
  obtain ⟨decision, budget⟩ := answer
  have hledger' : Ledger { s with moment := s.moment + 1, budget := budget } :=
    ⟨lost', strays', hnext⟩
  cases hreserve with
  | unbound e _ =>
    rw [Script.step_body_error hbody hexec, hlocals]
    exact proceeds_leaving hledger' hcleanup hlocals hout rfl rfl
  | refused binding exhaustion _ _ =>
    rw [Script.step_body_error hbody hexec, hlocals]
    exact proceeds_leaving hledger' hcleanup hlocals hout rfl rfl
  | unnamed e binding _ _ _ =>
    -- the scopes were debited, but there is no reservation to settle
    rw [Script.step_body_error hbody hexec, hlocals]
    exact proceeds_leaving hledger' hcleanup hlocals hout rfl rfl
  | reserved reservation binding _ _ _ free _ _ _ _ =>
    rw [Script.step_body_ok hbody hexec]
    have hrecord (id : String) :
        (s.budget.reservations.insert reservation.val.reservationId ⟨reservation, none⟩).get? id =
          if id = reservation.val.reservationId then some ⟨reservation, none⟩
          else s.recordOf id := Dict.get?_insert ..
    refine ⟨hledger', .trying (.reserved plan reservation) rfl hcleanup rfl ⟨hout, ?_⟩, ?_⟩
    · exact ⟨⟨reservation, none⟩, (hrecord _).trans (if_pos rfl), rfl⟩
    · refine .reserved reservation free (fun _ => rfl) hrecord ?_ ?_
      · rintro other ⟨hc, hother⟩
        exact ⟨hc, by rw [hlocals]; exact hother⟩
      · intro other hr
        simp only [HasReserved, Obtained.locals, List.mem_cons, reduceCtorEq, false_or,
          List.not_mem_nil, or_false, SettlementEvent.reserved.injEq] at hr
        exact .inr hr

/-- A step of the `try` block that only asks the outside takes the operation on. -/
theorem proceeds_asking {s' : Services} (o o' : Obtained) (hledger : Ledger s)
    (hcleanup : r.cleanup = [reconcileStep, completeStep]) (hlocals : r.locals = o.locals none)
    (hholds : o'.Holds s) (hplan : (o'.locals none).plan = (o.locals none).plan)
    (hreserved : ∀ reservation, SettlementEvent.reserved reservation ∈ (o'.locals none).events →
      SettlementEvent.reserved reservation ∈ (o.locals none).events)
    (hbudget : s'.budget = s.budget) (hrouting : s'.routing = s.routing) :
    Proceeds env site s r
      ({ r with body := o'.rest env site, locals := o'.locals none }, s') := by
  have hlease (id : String) : s'.leaseOf id = s.leaseOf id := by
    unfold Services.leaseOf
    rw [hrouting]
  have hrecord (id : String) : s'.recordOf id = s.recordOf id := by
    unfold Services.recordOf
    rw [hbudget]
  refine ⟨by unfold Ledger; rw [hbudget]; exact hledger, ?_, ?_⟩
  · refine .trying o' rfl hcleanup rfl (hholds.mono none ?_ ?_)
    · intro plan _ hout
      exact (hlease _).trans hout
    · rintro reservation _ ⟨record, hr, hactive⟩
      exact ⟨record, (hrecord _).trans hr, hactive⟩
  · refine .quiet hlease hrecord ?_ ?_
    · rintro plan ⟨hc, hp⟩
      exact ⟨hc, by rw [hlocals, ← hplan, hp]⟩
    · intro reservation hr
      unfold HasReserved
      rw [hlocals]
      exact hreserved reservation hr

theorem invokeStep_proceeds (hledger : Ledger s) {plan : ModelPlan}
    {reservation : BudgetReservation}
    (hbody : r.body = (Obtained.reserved plan reservation).rest env site)
    (hcleanup : r.cleanup = [reconcileStep, completeStep])
    (hlocals : r.locals = (Obtained.reserved plan reservation).locals none)
    (hholds : s.Out plan ∧ s.Unsettled reservation) : Proceeds env site s r (r.step s) := by
  rcases hinvoke : env.invoke s.moment plan site.context with e | invoked
  · have hexec : (invokeStep env site).exec (s, r.locals) =
        (.error e, ({ s with moment := s.moment + 1 }, r.locals)) := by
      unfold invokeStep CallSite.ask
      rw [hlocals]
      simp only [exec_bind, exec_get, exec_set, Obtained.locals, exec_liftExcept, hinvoke]
    rw [Script.step_body_error hbody hexec, hlocals]
    exact proceeds_leaving hledger hcleanup hlocals hholds rfl rfl
  · have hexec : (invokeStep env site).exec (s, r.locals) =
        (.ok (), ({ s with moment := s.moment + 1 },
          (Obtained.answered plan reservation invoked).locals none)) := by
      unfold invokeStep CallSite.ask
      rw [hlocals]
      simp only [exec_bind, exec_get, exec_set, Obtained.locals, exec_liftExcept, hinvoke]
      rfl
    rw [Script.step_body_ok hbody hexec]
    refine proceeds_asking (.reserved plan reservation) (.answered plan reservation invoked)
      hledger hcleanup hlocals hholds rfl ?_ rfl rfl
    intro other hr
    simpa [Obtained.locals] using hr

theorem concludeStep_proceeds (hledger : Ledger s) {plan : ModelPlan}
    {reservation : BudgetReservation} {invoked : ModelInvocationResult}
    (hbody : r.body = (Obtained.answered plan reservation invoked).rest env site)
    (hcleanup : r.cleanup = [reconcileStep, completeStep])
    (hlocals : r.locals = (Obtained.answered plan reservation invoked).locals none)
    (hholds : s.Out plan ∧ s.Unsettled reservation) : Proceeds env site s r (r.step s) := by
  have hholds' : (Obtained.answered plan reservation invoked).Holds s := hholds
  rcases hconclude : site.conclude s.moment invoked with e | result
  · have hexec : (concludeStep site).exec (s, r.locals) =
        (.error e, ({ s with moment := s.moment + 1 }, r.locals)) := by
      unfold concludeStep CallSite.ask
      rw [hlocals]
      simp only [exec_bind, exec_get, exec_set, Obtained.locals, exec_liftExcept, hconclude]
    rw [Script.step_body_error hbody hexec, hlocals]
    exact proceeds_leaving hledger hcleanup hlocals hholds' rfl rfl
  · have hexec : (concludeStep site).exec (s, r.locals) =
        (.ok (), ({ s with moment := s.moment + 1 },
          (Obtained.answered plan reservation invoked).locals (some result))) := by
      unfold concludeStep CallSite.ask
      rw [hlocals]
      simp only [exec_bind, exec_get, exec_set, Obtained.locals, exec_liftExcept, hconclude]
      rfl
    rw [Script.step_body_ok hbody hexec]
    exact proceeds_leaving hledger hcleanup hlocals hholds' rfl rfl

theorem reconcile_unsettled (hledger : Ledger s) {reservation : BudgetReservation}
    (hopen : s.Unsettled reservation) (usage : ModelUsage) :
    ∃ receipt record budget,
      (InMemoryBudgetController.reconcile reservation.val.reservationId usage).exec s.budget =
        (.ok receipt, budget) ∧
      budget.reservations = s.budget.reservations.insert reservation.val.reservationId record ∧
      ∃ lost strays, InMemoryBudgetController.BudgetInvariant lost strays budget := by
  obtain ⟨lost, strays, hinv⟩ := hledger
  obtain ⟨record, hrecord, hactive⟩ := hopen
  replace hrecord : s.budget.reservations.get? reservation.val.reservationId = some record :=
    hrecord
  have hout := InMemoryBudgetController.reconcile_outcome hinv.wired
    reservation.val.reservationId usage fun _ found active => hinv.within found active
  obtain ⟨lost', strays', hnext, -⟩ :=
    hinv.step (.reconcile reservation.val.reservationId usage)
  simp only [budgetMachine, BudgetCall.program, exec_map] at hnext
  generalize (InMemoryBudgetController.reconcile reservation.val.reservationId usage).exec
    s.budget = answer at hout hnext ⊢
  obtain ⟨reply, budget⟩ := answer
  cases hout with
  | unknown e hunknown =>
    rw [hrecord] at hunknown
    cases hunknown
  | different e other receipt found closed _ =>
    rw [hrecord] at found
    cases found
    rw [hactive] at closed
    cases closed
  | repeated other receipt found closed _ =>
    rw [hrecord] at found
    cases found
    rw [hactive] at closed
    cases closed
  | settled other reconciled receipt _ _ _ _ _ =>
    exact ⟨receipt, reconciled, _, rfl, rfl, lost', strays', hnext⟩

/-- The reconciliation that is due succeeds, and leaves the plan to be completed. -/
theorem reconcileStep_proceeds (hledger : Ledger s) {o : Obtained}
    {result : Option ModelCallResult} (hbody : r.body = [])
    (hcleanup : r.cleanup = [reconcileStep, completeStep]) (hlocals : r.locals = o.locals result)
    (hholds : o.Holds s) : Proceeds env site s r (r.step s) := by
  -- without a reservation the step does nothing
  have hnothing (hid : r.locals.reservationId = none) (hnone : o.reconciliation = [])
      (hout : ∀ plan, (o.locals result).plan = some plan → s.Out plan) :
      Proceeds env site s r (r.step s) := by
    have hexec : reconcileStep.exec (s, r.locals) = (.ok (), (s, r.locals)) := by
      unfold reconcileStep
      simp only [exec_bind, exec_get, hid]
      rfl
    rw [Script.step_cleanup_ok hbody hcleanup hexec]
    refine ⟨hledger, .reconciled o result hbody rfl (by rw [hlocals]) ?_ ?_, ?_⟩
    · rw [hnone, List.append_nil, hlocals]
    · intro plan hplan
      exact hout plan (by rw [← hlocals]; exact hplan)
    · refine .quiet (fun _ => rfl) (fun _ => rfl) ?_ fun _ hr => hr
      rintro plan ⟨-, hplan⟩
      exact ⟨by rw [hcleanup]; exact List.cons_ne_nil _ _, hplan⟩
  -- with one it reconciles it, with what the invocation used or else with the estimate
  have hsettles (plan : ModelPlan) (reservation : BudgetReservation) (usage : ModelUsage)
      (hid : r.locals.reservationId = some reservation.val.reservationId)
      (hplan : r.locals.plan = some plan) (husage : r.locals.actual.getD plan.estimate = usage)
      (hdue : o.reconciliation = [.reconciled reservation.val.reservationId usage true])
      (hown : HasReserved r reservation)
      (hout : s.Out plan) (hopen : s.Unsettled reservation) :
      Proceeds env site s r (r.step s) := by
    obtain ⟨receipt, record, budget, hreconcile, hrecords, hnext⟩ :=
      reconcile_unsettled hledger hopen usage
    have hwasOpen : (s.budget.reservations.get? reservation.val.reservationId).any
        (fun record => record.receipt.isNone) = true := by
      obtain ⟨old, hold, hactive⟩ := hopen
      replace hold : s.budget.reservations.get? reservation.val.reservationId = some old := hold
      rw [hold]
      simp [hactive]
    have hexec : reconcileStep.exec (s, r.locals) = (.ok (), ({ s with budget := budget },
        { r.locals with events := r.locals.events ++
          [.reconciled reservation.val.reservationId usage true] })) := by
      unfold reconcileStep onBudget
      conv_lhs => simp only [exec_bind, exec_get, hid, hplan, husage, exec_zoom, exec_raising,
        hreconcile, hwasOpen]
      rfl
    rw [Script.step_cleanup_ok hbody hcleanup hexec]
    have hrecord (id : String) : Services.recordOf { s with budget := budget } id =
        if id = reservation.val.reservationId then some record else s.recordOf id := by
      unfold Services.recordOf
      rw [hrecords, Dict.get?_insert]
    refine ⟨hnext, .reconciled o result hbody rfl (by rw [← hlocals]) ?_ ?_, ?_⟩
    · rw [hdue, ← hlocals]
    · intro other hother
      replace hother : r.locals.plan = some other := hother
      rw [hplan] at hother
      cases hother
      exact hout
    · refine .reconciled reservation hown record (fun _ => rfl) hrecord ?_ ?_
      · rintro other ⟨-, hother⟩
        exact ⟨by rw [hcleanup]; exact List.cons_ne_nil _ _, hother⟩
      · intro other hr
        simpa [HasReserved] using hr
  cases o with
  | nothing =>
    exact hnothing (by rw [hlocals]; rfl) rfl fun plan hplan => by cases hplan
  | planned plan =>
    refine hnothing (by rw [hlocals]; rfl) rfl fun other hother => ?_
    cases hother
    exact hholds
  | reserved plan reservation =>
    apply hsettles plan reservation plan.estimate (by rw [hlocals]; rfl) (by rw [hlocals]; rfl)
      (by rw [hlocals]; rfl) rfl ?_ hholds.1 hholds.2
    unfold HasReserved
    rw [hlocals]
    simp [Obtained.locals]
  | answered plan reservation invoked =>
    apply hsettles plan reservation invoked.actualUsage (by rw [hlocals]; rfl)
      (by rw [hlocals]; rfl) (by rw [hlocals]; rfl) rfl ?_ hholds.1 hholds.2
    unfold HasReserved
    rw [hlocals]
    simp [Obtained.locals]

/-- Completing gives back the lease the operation holds. -/
theorem completeStep_proceeds (hledger : Ledger s) {o : Obtained}
    {result : Option ModelCallResult} (hbody : r.body = []) (hcleanup : r.cleanup = [completeStep])
    (hplan : r.locals.plan = (o.locals result).plan)
    (hevents : r.locals.events = (o.locals result).events ++ o.reconciliation)
    (hout : ∀ plan, r.locals.plan = some plan → s.Out plan) :
    Proceeds env site s r (r.step s) := by
  cases hnone : r.locals.plan with
  | none =>
    have hexec : completeStep.exec (s, r.locals) = (.ok (), (s, r.locals)) := by
      unfold completeStep
      simp only [exec_bind, exec_get, hnone]
      rfl
    rw [Script.step_cleanup_ok hbody hcleanup hexec]
    have hrelease : o.release = [] := by
      rw [hnone] at hplan
      cases o with
      | nothing => rfl
      | planned plan => cases hplan
      | reserved plan reservation => cases hplan
      | answered plan reservation invoked => cases hplan
    refine ⟨hledger, .ended o result hbody rfl ?_, ?_⟩
    · rw [hevents, hrelease, List.append_nil]
    · exact .quiet (fun _ => rfl) (fun _ => rfl) (fun plan h => absurd rfl h.1) fun _ hr => hr
  | some plan =>
    have hlease : s.routing.capacity.leases.get? plan.lease.operationId = some plan.lease :=
      hout plan hnone
    have hexec : completeStep.exec (s, r.locals) = (.ok (),
        ({ s with routing := { s.routing with
            capacity := (s.routing.capacity.release plan.lease).2 } },
          { r.locals with events := r.locals.events ++ [.released plan.lease true] })) := by
      unfold completeStep onRouting RoutedModelPlanner.complete ModelRouter.complete
      conv_lhs => simp only [exec_bind, exec_get, hnone, exec_zoom, exec_raising, exec_set,
        hlease, decide_true]
      rfl
    rw [Script.step_cleanup_ok hbody hcleanup hexec]
    have hrelease : o.release = [.released plan.lease true] := by
      rw [hnone] at hplan
      cases o with
      | nothing => cases hplan
      | planned other => cases hplan; rfl
      | reserved other reservation => cases hplan; rfl
      | answered other reservation invoked => cases hplan; rfl
    have hleases : (s.routing.capacity.release plan.lease).2.leases =
        s.routing.capacity.leases.erase plan.lease.operationId := by
      unfold HierarchicalCapacity.release
      rw [if_pos hlease]
      rfl
    refine ⟨hledger, .ended o result hbody rfl ?_, ?_⟩
    · rw [hrelease, ← hevents]
    · refine .released plan ⟨by rw [hcleanup]; exact List.cons_ne_nil _ _, hnone⟩ ?_
        (fun _ => rfl) (fun other h => absurd rfl h.1) ?_
      · intro id
        unfold Services.leaseOf
        rw [hleases, Dict.get?_erase]
      · intro other hr
        simpa [HasReserved] using hr

/-- Every step takes an operation from its stage to the next. -/
theorem Stage.proceeds (h : Stage env site s r) (hledger : Ledger s) :
    Proceeds env site s r (r.step s) := by
  cases h with
  | trying o body cleanup locals holds =>
    cases o with
    | nothing => exact planStep_proceeds hledger body cleanup locals
    | planned plan => exact reserveStep_proceeds hledger body cleanup locals holds
    | reserved plan reservation => exact invokeStep_proceeds hledger body cleanup locals holds
    | answered plan reservation invoked =>
      exact concludeStep_proceeds hledger body cleanup locals holds
  | leaving o result body cleanup locals holds =>
    exact reconcileStep_proceeds hledger body cleanup locals holds
  | reconciled o result body cleanup plan events out =>
    exact completeStep_proceeds hledger body cleanup plan events out
  | ended o result body cleanup events =>
    rw [Script.step_ended ⟨body, cleanup⟩]
    exact ⟨hledger, .ended o result body cleanup events,
      .quiet (fun _ => rfl) (fun _ => rfl) (fun _ h => h) fun _ h => h⟩

end Steps

end AiRetrieval
