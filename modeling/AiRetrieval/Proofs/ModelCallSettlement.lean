import AiRetrieval.Proofs.BudgetLedger
import AiRetrieval.Proofs.CapacityRefusals
import AiRetrieval.Sanity.ModelCallSteps

/-! Every model operation settles what it obtained, whatever the scheduler does with the
operations that share the budget controller and the router. -/

namespace AiRetrieval

open Program CallSite

/-- The events of an operation that gave back exactly what it obtained: the lease of its plan,
and its reservation with what the invocation used, or with the estimate where it never
returned. -/
inductive SettledEvents : List SettlementEvent → Prop
  | nothing : SettledEvents []
  | planned (plan : ModelPlan) : SettledEvents [.planned plan, .released plan.lease true]
  | unanswered (plan : ModelPlan) (reservation : BudgetReservation) :
    SettledEvents [.planned plan, .reserved reservation,
      .reconciled reservation.val.reservationId plan.estimate true, .released plan.lease true]
  | answered (plan : ModelPlan) (reservation : BudgetReservation) (actual : ModelUsage) :
    SettledEvents [.planned plan, .reserved reservation, .invoked actual,
      .reconciled reservation.val.reservationId actual true, .released plan.lease true]

theorem Obtained.settled (o : Obtained) (result : Option ModelCallResult) :
    SettledEvents ((o.locals result).events ++ o.reconciliation ++ o.release) := by
  cases o with
  | nothing => exact .nothing
  | planned plan => exact .planned plan
  | reserved plan reservation => exact .unanswered plan reservation
  | answered plan reservation invoked => exact .answered plan reservation invoked.actualUsage

structure InOrder (env : ServiceEnvironment) (r : CallScript) (s : Services) : Prop where
  stage : ∃ site, Stage env site s r
  recorded : ∀ reservation, HasReserved r reservation →
    ∃ record, s.recordOf reservation.val.reservationId = some record

structure Apart (r q : CallScript) : Prop where
  leases : ∀ own other, HoldsPlan r own → HoldsPlan q other →
    own.lease.operationId ≠ other.lease.operationId
  reservations : ∀ own other, HasReserved r own → HasReserved q other →
    own.val.reservationId ≠ other.val.reservationId

section Keeps

variable {env : ServiceEnvironment} {site : CallSite} {s : Services} {r q : CallScript}

/-- The lease an operation holds is out. -/
theorem Stage.out (h : Stage env site s r) {plan : ModelPlan} (hplan : HoldsPlan r plan) :
    s.Out plan := by
  have hheld {o : Obtained} {result : Option ModelCallResult} (ho : o.Holds s)
      (hp : (o.locals result).plan = some plan) : s.Out plan := by
    cases o with
    | nothing => cases hp
    | planned other => cases hp; exact ho
    | reserved other reservation => cases hp; exact ho.1
    | answered other reservation invoked => cases hp; exact ho.1
  cases h with
  | trying o body cleanup locals holds => exact hheld holds (by rw [← locals]; exact hplan.2)
  | leaving o result body cleanup locals holds =>
    exact hheld holds (by rw [← locals]; exact hplan.2)
  | reconciled o result body cleanup plan events out => exact out _ hplan.2
  | ended o result body cleanup events => exact absurd cleanup hplan.1

theorem InOrder.step (h : InOrder env r s) (hledger : Ledger s) :
    Ledger (r.step s).2 ∧ InOrder env (r.step s).1 (r.step s).2 := by
  obtain ⟨site, hstage⟩ := h.stage
  have hnext := hstage.proceeds hledger
  refine ⟨hnext.ledger, ⟨site, hnext.stage⟩, ?_⟩
  intro reservation hr
  cases hnext.effect with
  | quiet _ _ _ reservations =>
    exact hnext.effect.recorded (h.recorded reservation (reservations reservation hr))
  | leased plan _ _ _ _ reservations =>
    exact hnext.effect.recorded (h.recorded reservation (reservations reservation hr))
  | reserved granted _ _ records _ reservations =>
    rcases reservations reservation hr with hr | rfl
    · exact hnext.effect.recorded (h.recorded reservation hr)
    · exact ⟨_, (records _).trans (if_pos rfl)⟩
  | reconciled other _ _ _ _ _ reservations =>
    exact hnext.effect.recorded (h.recorded reservation (reservations reservation hr))
  | released plan _ _ _ _ reservations =>
    exact hnext.effect.recorded (h.recorded reservation (reservations reservation hr))

theorem InOrder.others (hr : InOrder env r s) (hq : InOrder env q s) (hledger : Ledger s)
    (h : Apart r q) : InOrder env q (r.step s).2 ∧ Apart (r.step s).1 q := by
  obtain ⟨site, hstage⟩ := hr.stage
  obtain ⟨site', hother⟩ := hq.stage
  have hnext := hstage.proceeds hledger
  refine ⟨⟨⟨site', hother.others hnext.effect h.leases h.reservations⟩, ?_⟩, ?_⟩
  · intro reservation hres
    exact hnext.effect.recorded (hq.recorded reservation hres)
  cases hnext.effect with
  | quiet _ _ plans reservations =>
    exact ⟨fun own other ho => h.leases own other (plans own ho),
      fun own other ho => h.reservations own other (reservations own ho)⟩
  | leased plan free _ _ plans reservations =>
    refine ⟨?_, fun own other ho => h.reservations own other (reservations own ho)⟩
    intro own other ho hheld he
    -- the identifier was free, so nobody else holds it
    obtain rfl := plans own ho
    have hout : s.leaseOf other.lease.operationId = some other.lease := hother.out hheld
    rw [← he, free] at hout
    cases hout
  | reserved granted free _ _ plans reservations =>
    refine ⟨fun own other ho => h.leases own other (plans own ho), ?_⟩
    intro own other ho hheld he
    rcases reservations own ho with ho | rfl
    · exact h.reservations own other ho hheld he
    · obtain ⟨record, hrecord⟩ := hq.recorded other hheld
      rw [← he, free] at hrecord
      cases hrecord
  | reconciled _ _ _ _ _ plans reservations =>
    exact ⟨fun own other ho => h.leases own other (plans own ho),
      fun own other ho => h.reservations own other (reservations own ho)⟩
  | released _ _ _ _ plans reservations =>
    exact ⟨fun own other ho => absurd ho (plans own),
      fun own other ho => h.reservations own other (reservations own ho)⟩

theorem InOrder.interrupt (h : InOrder env r s) (e : ModelCallError) :
    InOrder env (r.interrupt e) s ∧ ∀ q, Apart r q → Apart (r.interrupt e) q := by
  obtain ⟨body, cleanup, locals, raised⟩ := r
  cases body with
  | nil => exact ⟨h, fun q hq => hq⟩
  | cons x rest =>
    obtain ⟨site, hstage⟩ := h.stage
    refine ⟨⟨⟨site, ?_⟩, h.recorded⟩, fun q hq => ⟨hq.leases, hq.reservations⟩⟩
    cases hstage with
    | trying o _ hcleanup hlocals holds => exact .leaving o none rfl hcleanup hlocals holds
    | leaving o result hbody _ _ _ => cases hbody
    | reconciled o result hbody _ _ _ _ => cases hbody
    | ended o result hbody _ _ => cases hbody

theorem bind_keeps (hledger : Ledger s) (call : BindCall) :
    Ledger { s with budget :=
      (InMemoryBudgetController.bind call.context call.scopes).after s.budget } ∧
    ((InMemoryBudgetController.bind call.context call.scopes).after s.budget).reservations =
      s.budget.reservations := by
  obtain ⟨lost, strays, hinv⟩ := hledger
  obtain ⟨lost', strays', hnext, -⟩ := hinv.step (.bind call.context call.scopes)
  simp only [budgetMachine, BudgetCall.program, exec_map] at hnext
  refine ⟨⟨lost', strays', hnext⟩, ?_⟩
  have hout := InMemoryBudgetController.bind_outcome (s := s.budget) call.context call.scopes
  unfold after
  generalize (InMemoryBudgetController.bind call.context call.scopes).exec s.budget = answer
    at hout ⊢
  obtain ⟨reply, budget⟩ := answer
  cases hout with
  | raised e => rfl
  | bound binding _ _ _ => rfl

theorem modelCalls_keep (env : ServiceEnvironment) :
    Scripts.Keeps (fun call : ModelCall => (call.site env).script env)
      (fun (bind : BindCall) (s : Services) => { s with
        budget := (InMemoryBudgetController.bind bind.context bind.scopes).after s.budget })
      Ledger (InOrder env) Apart where
  symm h := ⟨fun own other ho hother he => h.leases other own hother ho he.symm,
    fun own other ho hother he => h.reservations other own hother ho he.symm⟩
  start call _ := by
    refine ⟨⟨⟨call.site env, .trying .nothing rfl rfl rfl trivial⟩, ?_⟩, fun q => ⟨?_, ?_⟩⟩
    · intro reservation hr
      cases hr
    · intro own other ho
      cases ho.2
    · intro own other ho
      cases ho
  step hledger h := h.step hledger
  others hledger hr hq h := hr.others hq hledger h
  interrupt e h := h.interrupt e
  outside {s} call hledger := by
    obtain ⟨hnext, hreservations⟩ := bind_keeps hledger call
    refine ⟨hnext, fun r h => ?_⟩
    obtain ⟨site, hstage⟩ := h.stage
    have hrecord (id : String) : Services.recordOf { s with budget :=
        (InMemoryBudgetController.bind call.context call.scopes).after s.budget } id =
          s.recordOf id := congrArg (fun d => Dict.get? d id) hreservations
    -- the step of an operation that holds nothing
    have heffect : Effect s { s with budget :=
        (InMemoryBudgetController.bind call.context call.scopes).after s.budget }
        ⟨[], [], {}, none⟩ ⟨[], [], {}, none⟩ :=
      .quiet (fun _ => rfl) hrecord (fun _ hp => hp) fun _ hr => hr
    refine ⟨⟨site, hstage.others heffect ?_ ?_⟩, ?_⟩
    · intro own other ho
      cases ho.2
    · intro own other ho
      cases ho
    · intro reservation hr
      exact heffect.recorded (h.recorded reservation hr)

end Keeps

/-- Every operation that ended gave back exactly what it obtained, and no two operations ever
obtained a reservation of one identifier. -/
structure CallsSettled (s : Scripts ModelCallError Services CallLocals) : Prop where
  ended : ∀ r ∈ s.scripts, r.Ended → SettledEvents r.locals.events
  apart : ∀ (i j : Nat) r q, i ≠ j → s.scripts[i]? = some r → s.scripts[j]? = some q →
    ∀ own other, HasReserved r own → HasReserved q other →
      own.val.reservationId ≠ other.val.reservationId

/-- The shared components before any operation. -/
def Services.of (budget : InMemoryBudgetController)
    (limits : Dict CapacityScope CapacityLimit) : Services := ⟨budget, .of limits, 0⟩

namespace Sample

def services : ServiceEnvironment where
  toRoutingEnvironment := routing
  identifier n := .ok (.str ("reservation-" ++ toString n))
  invoke _ _ _ := .ok ⟨.tuple [], { costMinorUnits := 1 }⟩
  parseAndValidate _ _ _ _ _ := .error .cancelled
  validate _ _ _ _ := .error (.raised (.raised .runtimeError "validator unavailable"))
  b64encode _ := ""

/-- An operation that runs to its end, and one that is cancelled while it waits. -/
def twoCalls : List (Scripts.Move ModelCall BindCall ModelCallError) :=
  .outside ⟨interactiveContext requestA, ["request:1", "tenant:a"]⟩ ::
    .start (.legacy 0 modelWork (interactiveContext requestA) 0) ::
    .start (.legacy 1 modelWork (interactiveContext requestA) 0) ::
    [.step 0, .step 1, .step 1, .step 0, .interrupt 1 .cancelled, .step 0, .step 0, .step 1,
      .step 0, .step 0, .step 1]

end Sample

end AiRetrieval
