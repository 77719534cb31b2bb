import AiRetrieval.Proofs.LeaseExclusion
import AiRetrieval.Sanity.BudgetInvariant

/-! What the budget controller's ledger says of its reservations, over whole runs. -/

namespace AiRetrieval

open Program InMemoryBudgetController

namespace InMemoryBudgetController

section Records

def covering (s : InMemoryBudgetController) (scope : String) : List ReservationRecord :=
  s.reservations.values.filter fun record => scope ∈ record.reservation.val.scopes

def activeEstimates (s : InMemoryBudgetController) (scope : String) : List ModelUsage :=
  ((s.covering scope).filter fun record => record.receipt = none).map
    (·.reservation.val.estimate)

def actuals (s : InMemoryBudgetController) (scope : String) : List ModelUsage :=
  (s.covering scope).filterMap fun record => record.receipt.map (·.val.actual)

/-- How many reservations and reconciliations touched a scope. -/
def touchCount (s : InMemoryBudgetController) (scope : String) : Nat :=
  (s.covering scope).length + (s.actuals scope).length

theorem heldOn_eq (s : InMemoryBudgetController) (scope : String) :
    s.heldOn scope = (s.activeEstimates scope).sum := by
  unfold heldOn activeEstimates covering
  induction s.reservations.values with
  | nil => rfl
  | cons record rest ih =>
    rw [List.map_cons, List.sum_cons, ih]
    by_cases hmem : scope ∈ record.reservation.val.scopes <;>
      by_cases hactive : record.receipt = none <;> simp [heldBy, hmem, hactive]

theorem spentOn_eq (s : InMemoryBudgetController) (scope : String) :
    s.spentOn scope = (s.actuals scope).sum := by
  unfold spentOn actuals covering
  induction s.reservations.values with
  | nil => rfl
  | cons record rest ih =>
    rw [List.map_cons, List.sum_cons, ih]
    by_cases hmem : scope ∈ record.reservation.val.scopes <;>
      cases hreceipt : record.receipt <;> simp [spentBy, hmem, hreceipt]

theorem touches_eq (s : InMemoryBudgetController) (scope : String) :
    s.touches scope = s.touchCount scope := by
  unfold touches touchCount actuals covering
  induction s.reservations.values with
  | nil => rfl
  | cons record rest ih =>
    rw [List.map_cons, List.sum_cons, ih]
    by_cases hmem : scope ∈ record.reservation.val.scopes <;>
      cases hreceipt : record.receipt <;> simp [touchesBy, hmem, hreceipt] <;> omega

end Records

/-- No reconciled reservation spent more than its estimate, in cost or in total tokens. -/
def NoOverrun (s : InMemoryBudgetController) : Prop :=
  ∀ r record receipt, s.reservations.get? r = some record → record.receipt = some receipt →
    receipt.val.actual.costMinorUnits ≤ record.reservation.val.estimate.costMinorUnits ∧
      receipt.val.actual.totalTokens ≤ record.reservation.val.estimate.totalTokens

/-- What is reserved and spent on a scope stays within its limit. -/
def WithinLimits (s : InMemoryBudgetController) : Prop :=
  ∀ scope balance, s.balances.get? scope = some balance →
    balance.reserved.costMinorUnits + balance.actual.costMinorUnits ≤
        balance.limit.costMinorUnits ∧
      balance.reserved.totalTokens + balance.actual.totalTokens ≤ balance.limit.totalTokens

section Limits

variable {s : InMemoryBudgetController} {lost : String → ModelUsage} {strays : String → Nat}

theorem NoOverrun.of_insert {r : String} {record : ReservationRecord}
    (hopen : ∀ old, s.reservations.get? r = some old → old.receipt = none)
    {balances : Dict String MutableBalance} {bindings : Dict String BudgetBinding}
    (h : NoOverrun ⟨balances, bindings, s.reservations.insert r record⟩) : NoOverrun s := by
  intro r' record' receipt' hr' hreceipt'
  apply h r' record' receipt' _ hreceipt'
  refine (Dict.get?_insert_of_ne _ _ ?_).trans hr'
  rintro rfl
  rw [hopen record' hr'] at hreceipt'
  cases hreceipt'

/-- Reserving only what fits keeps a ledger within its limits. -/
theorem WithinLimits.debited {e : String} {binding : BudgetBinding} {estimate : ModelUsage}
    (bound : s.bindings.get? e = some binding) (admits : s.Admits e estimate)
    (h : WithinLimits s) : WithinLimits (s.debited binding.val.scopes estimate) := by
  intro scope balance hb
  obtain ⟨old, hold, rfl⟩ := get?_adjusted binding.scopes_nodup hb
  split
  · next hmem =>
    obtain ⟨binding', hbinding', hfits⟩ := admits
    rw [bound] at hbinding'
    cases hbinding'
    obtain ⟨hcost, htokens⟩ := hfits scope hmem old hold
    simp only [held, posted, add_eq, add_cost, add_total]
    omega
  · exact h scope old hold

/-- Reconciling with no more than the estimate keeps a ledger within its limits. -/
theorem WithinLimits.settled (hi : BudgetInvariant lost strays s) {r : String}
    {record : ReservationRecord} {actual : ModelUsage}
    (found : s.reservations.get? r = some record) (active : record.receipt = none)
    (hcost : actual.costMinorUnits ≤ record.reservation.val.estimate.costMinorUnits)
    (htokens : actual.totalTokens ≤ record.reservation.val.estimate.totalTokens)
    (h : WithinLimits s) {bindings : Dict String BudgetBinding}
    {reservations : Dict String ReservationRecord} :
    WithinLimits ⟨s.balances.adjustAll (settled record.reservation.val.estimate actual)
      record.reservation.val.scopes, bindings, reservations⟩ := by
  intro scope balance hb
  obtain ⟨old, hold, rfl⟩ := get?_adjusted (s := s) (hi.wired.record_nodup r record found) hb
  have hlimit := h scope old hold
  split
  · next hmem =>
    have hwithin := hi.within found active scope hmem old hold
    obtain ⟨hwc, hwi, hwo⟩ := hwithin
    simp only [InMemoryBudgetController.settled, posted, add_eq, add_cost, add_total]
    simp only [remainder, ModelUsage.totalTokens] at hlimit htokens ⊢
    omega
  · exact hlimit

/-- A call that leaves no overrun found none, and keeps the ledger within its limits. -/
theorem step_withinLimits (hi : BudgetInvariant lost strays s) (call : BudgetCall)
    (hover : NoOverrun (budgetMachine call s).2) (h : NoOverrun s → WithinLimits s) :
    WithinLimits (budgetMachine call s).2 := by
  cases call with
  | bind context scopes =>
    simp only [budgetMachine, BudgetCall.program, exec_map] at hover ⊢
    have hout := bind_outcome (s := s) context scopes
    generalize ((bind context scopes).exec s).1 = reply at hout
    generalize ((bind context scopes).exec s).2 = after at hout hover
    cases hout with
    | raised e => exact h hover
    | bound binding _ _ _ => exact h hover
  | reserve executionId estimate identifier =>
    simp only [budgetMachine, BudgetCall.program, exec_map] at hover ⊢
    have hout := reserve_outcome hi.wired executionId estimate identifier
    generalize ((reserve executionId estimate identifier).exec s).1 = reply at hout
    generalize ((reserve executionId estimate identifier).exec s).2 = after at hout hover
    cases hout with
    | unbound e _ => exact h hover
    | refused binding exhaustion _ _ => exact h hover
    | unnamed e binding bound admits _ => exact (h hover).debited bound admits
    | reserved reservation binding bound admits _ free _ _ _ _ =>
      have hbefore : NoOverrun s := hover.of_insert fun old hold => by
        rw [free] at hold
        cases hold
      exact (h hbefore).debited bound admits
  | reconcile reservationId actual =>
    simp only [budgetMachine, BudgetCall.program, exec_map] at hover ⊢
    have hout := reconcile_outcome hi.wired reservationId actual fun _ found active =>
      hi.within found active
    generalize ((reconcile reservationId actual).exec s).1 = reply at hout
    generalize ((reconcile reservationId actual).exec s).2 = after at hout hover
    cases hout with
    | unknown e _ => exact h hover
    | different e record receipt _ _ _ => exact h hover
    | repeated record receipt _ _ _ => exact h hover
    | settled record reconciled receipt found active receipt_eq actual_eq same =>
      have hbefore : NoOverrun s := hover.of_insert fun old hold => by
        rw [found] at hold
        cases hold
        exact active
      have hspent := hover reservationId reconciled receipt (Dict.get?_insert_self ..) receipt_eq
      rw [actual_eq, same] at hspent
      exact (h hbefore).settled hi found active hspent.1 hspent.2

end Limits

section Transitions

variable {s : InMemoryBudgetController} {lost : String → ModelUsage} {strays : String → Nat}

/-- The transition of a call grants a reservation. -/
def Granted (t : BudgetTransition) : Prop :=
  ∃ reservation, t.reply = .ok (.decided (.reserved reservation))

theorem reserve_grants (hw : s.Wired) (executionId : String) (estimate : ModelUsage)
    (identifier : Except PyError PyValue)
    (h : Answered (budgetMachine.transition s (.reserve executionId estimate identifier))) :
    (Granted (budgetMachine.transition s (.reserve executionId estimate identifier)) ↔
      s.Admits executionId estimate) ∧
    (¬s.Admits executionId estimate →
      (budgetMachine (.reserve executionId estimate identifier) s).2 = s) := by
  simp only [Granted, Machine.transition, budgetMachine, BudgetCall.program, exec_map]
  have hout := reserve_outcome hw executionId estimate identifier
  generalize ((reserve executionId estimate identifier).exec s).1 = reply at hout
  generalize ((reserve executionId estimate identifier).exec s).2 = after at hout
  cases hout with
  | unbound e hunbound =>
    have hnot : ¬s.Admits executionId estimate := by
      rintro ⟨binding, hbinding, -⟩
      rw [hunbound] at hbinding
      cases hbinding
    refine ⟨⟨?_, fun hadmits => absurd hadmits hnot⟩, fun _ => rfl⟩
    rintro ⟨_, hr⟩
    cases hr
  | refused binding exhaustion _ hnot =>
    refine ⟨⟨?_, fun hadmits => absurd hadmits hnot⟩, fun _ => rfl⟩
    rintro ⟨_, hr⟩
    cases hr
  | unnamed e binding _ admits hstale =>
    exact absurd (h executionId estimate identifier rfl admits) hstale
  | reserved reservation binding _ admits _ _ _ _ _ _ =>
    exact ⟨⟨fun _ => admits, fun _ => ⟨reservation, rfl⟩⟩, fun hnot => absurd admits hnot⟩

theorem reconcile_settles (hi : BudgetInvariant lost strays s) (reservationId : String)
    (actual : ModelUsage) {record : ReservationRecord}
    (found : s.reservations.get? reservationId = some record) :
    (record.receipt = none → ∃ receipt, (budgetMachine (.reconcile reservationId actual) s).1 =
      .ok (.reconciled receipt) ∧ receipt.val.actual = actual) ∧
    (record.receipt ≠ none → (budgetMachine (.reconcile reservationId actual) s).2 = s) := by
  simp only [budgetMachine, BudgetCall.program, exec_map]
  have hout := reconcile_outcome hi.wired reservationId actual fun _ found active =>
    hi.within found active
  generalize ((reconcile reservationId actual).exec s).1 = reply at hout
  generalize ((reconcile reservationId actual).exec s).2 = after at hout
  cases hout with
  | unknown e hunknown =>
    rw [found] at hunknown
    cases hunknown
  | different e record' receipt found' closed _ =>
    rw [found] at found'
    cases found'
    exact ⟨fun hopen => absurd (hopen.symm.trans closed) (by simp), fun _ => rfl⟩
  | repeated record' receipt found' closed _ =>
    rw [found] at found'
    cases found'
    exact ⟨fun hopen => absurd (hopen.symm.trans closed) (by simp), fun _ => rfl⟩
  | settled record' reconciled receipt found' active _ actual_eq _ =>
    rw [found] at found'
    cases found'
    exact ⟨fun _ => ⟨receipt, rfl, actual_eq⟩, fun hclosed => absurd active hclosed⟩

end Transitions

end InMemoryBudgetController

/-- What the ledger promises of a run: balances are what the reservations make of them, a
reservation is granted exactly where it fits, a reconciliation settles once, and without an
overrun no scope goes over its limit. -/
structure LedgerKept (s : InMemoryBudgetController) (calls : List BudgetCall) : Prop where
  balances : ∀ scope balance, (budgetMachine.run s calls).balances.get? scope = some balance →
    balance.reserved = ((budgetMachine.run s calls).activeEstimates scope).sum ∧
      balance.actual = ((budgetMachine.run s calls).actuals scope).sum ∧
      balance.revision = (budgetMachine.run s calls).touchCount scope
  reserves : ∀ t ∈ budgetMachine.history s calls, ∀ executionId estimate identifier,
    t.input = .reserve executionId estimate identifier →
      (Granted t ↔ t.before.Admits executionId estimate) ∧
        (¬t.before.Admits executionId estimate → t.after = t.before)
  reconciles : ∀ t ∈ budgetMachine.history s calls, ∀ reservationId actual record,
    t.input = .reconcile reservationId actual →
      t.before.reservations.get? reservationId = some record →
        (record.receipt = none → ∃ receipt, t.reply = .ok (.reconciled receipt) ∧
          receipt.val.actual = actual) ∧
        (record.receipt ≠ none → t.after = t.before)
  limits : NoOverrun (budgetMachine.run s calls) → WithinLimits (budgetMachine.run s calls)

/-- The transitions of an answered run start in ledgers that lost nothing. -/
theorem history_exact {s : InMemoryBudgetController}
    (h : BudgetInvariant (fun _ => 0) (fun _ => 0) s) {calls : List BudgetCall}
    (hans : ∀ t ∈ budgetMachine.history s calls, Answered t) :
    BudgetInvariant (fun _ => 0) (fun _ => 0) (budgetMachine.run s calls) ∧
      ∀ t ∈ budgetMachine.history s calls,
        BudgetInvariant (fun _ => 0) (fun _ => 0) t.before := by
  induction calls generalizing s with
  | nil => exact ⟨h, fun t ht => by cases ht⟩
  | cons call rest ih =>
    rw [Machine.history_cons, List.forall_mem_cons] at hans
    obtain ⟨lost, strays, hnext, hsame⟩ := h.step call
    obtain ⟨rfl, rfl⟩ := hsame hans.1
    obtain ⟨hrun, hrest⟩ := ih hnext hans.2
    refine ⟨hrun, ?_⟩
    rw [Machine.history_cons, List.forall_mem_cons]
    exact ⟨h, hrest⟩

theorem run_withinLimits {s : InMemoryBudgetController} {lost : String → ModelUsage}
    {strays : String → Nat} (h : BudgetInvariant lost strays s)
    (hlimits : NoOverrun s → WithinLimits s) (calls : List BudgetCall) :
    NoOverrun (budgetMachine.run s calls) → WithinLimits (budgetMachine.run s calls) := by
  have hrun : (∃ lost strays, BudgetInvariant lost strays (budgetMachine.run s calls)) ∧
      (NoOverrun (budgetMachine.run s calls) → WithinLimits (budgetMachine.run s calls)) := by
    refine Machine.run_invariant (P := fun s => (∃ lost strays, BudgetInvariant lost strays s) ∧
      (NoOverrun s → WithinLimits s)) ?_ ⟨⟨lost, strays, h⟩, hlimits⟩ calls
    rintro call s ⟨⟨lost, strays, hi⟩, hl⟩
    obtain ⟨lost', strays', hnext, -⟩ := hi.step call
    exact ⟨⟨lost', strays', hnext⟩, fun hover => step_withinLimits hi call hover hl⟩
  exact hrun.2

namespace Sample

def budgetLimits : List BudgetLimit :=
  [⟨⟨"tenant:a", 500, 5000⟩, rfl⟩, ⟨⟨"request:1", 100, 1000⟩, rfl⟩]

def budgets : InMemoryBudgetController where
  balances := (Dict.empty.insert "tenant:a" { limit := ⟨500, 5000, 0⟩ }).insert "request:1"
    { limit := ⟨100, 1000, 0⟩ }
  bindings := .empty
  reservations := .empty

theorem budgets_of : InMemoryBudgetController.of budgetLimits = .ok budgets := rfl

/-- Bind an execution to both scopes and reserve on them, with what the source answers. -/
def reserving (identifier : Except PyError PyValue) : List BudgetCall :=
  [.bind context ["request:1", "tenant:a"], .reserve "execution-1" ⟨25, 100, 50⟩ identifier]

theorem reserving_answered : ∀ t ∈ budgetMachine.history budgets
    (reserving (.ok (.str "reservation-1"))), Answered t := by
  intro t ht executionId estimate identifier hin _
  simp only [reserving, Machine.history_cons, Machine.history_nil, List.mem_cons,
    List.not_mem_nil, or_false] at ht
  rcases ht with rfl | rfl
  · cases hin
  · cases hin
    exact ⟨"reservation-1", rfl, by decide +kernel, by decide +kernel⟩

end Sample

section Failures

/-- A `reserve` that raises leaves the ledger as it was. -/
def DebitsNothing (t : BudgetTransition) : Prop :=
  ∀ executionId estimate identifier e, t.input = .reserve executionId estimate identifier →
    t.reply = .error e → t.after = t.before

variable {s : InMemoryBudgetController}

theorem debited_ne (hw : s.Wired) {e : String} {binding : BudgetBinding}
    (bound : s.bindings.get? e = some binding) (estimate : ModelUsage) :
    s.debited binding.val.scopes estimate ≠ s := by
  intro hsame
  have hpassed := BudgetBinding.postInit_eq_ok.1 binding.passed
  obtain ⟨scope, rest, hscopes⟩ := List.exists_cons_of_ne_nil hpassed.2.1.1
  have hmem : scope ∈ binding.val.scopes := by
    rw [hscopes]
    exact List.mem_cons_self ..
  obtain ⟨balance, hb⟩ := hw.binding_known e binding bound scope hmem
  have hafter := Dict.get?_adjustAll (held estimate) hpassed.2.1.2 s.balances scope
  rw [if_pos hmem, hb, Option.map_some] at hafter
  have hsame' : s.balances.adjustAll (held estimate) binding.val.scopes = s.balances :=
    congrArg InMemoryBudgetController.balances hsame
  rw [hsame', hb, Option.some.injEq] at hafter
  have hrevision : balance.revision = balance.revision + 1 :=
    congrArg MutableBalance.revision hafter
  omega

theorem step_debitsNothing_iff {lost : String → ModelUsage} {strays : String → Nat}
    (hi : BudgetInvariant lost strays s) (call : BudgetCall) :
    DebitsNothing (budgetMachine.transition s call) ↔
      Answered (budgetMachine.transition s call) := by
  constructor
  · intro h executionId estimate identifier hin hadmits
    obtain rfl : call = .reserve executionId estimate identifier := hin
    have hnothing := h executionId estimate identifier
    simp only [Machine.transition, budgetMachine, BudgetCall.program,
      exec_map] at hadmits hnothing ⊢
    have hout := reserve_outcome hi.wired executionId estimate identifier
    generalize ((reserve executionId estimate identifier).exec s).1 = reply at hout hnothing
    generalize ((reserve executionId estimate identifier).exec s).2 = after at hout hnothing
    by_contra hstale
    cases hout with
    | unbound e hunbound =>
      obtain ⟨binding, hbinding, -⟩ := hadmits
      rw [hunbound] at hbinding
      cases hbinding
    | refused binding exhaustion _ hnot => exact hnot hadmits
    | unnamed e binding bound _ _ =>
      exact debited_ne hi.wired bound estimate (hnothing e trivial rfl)
    | reserved reservation binding _ _ fresh _ _ _ _ _ => exact hstale fresh
  · intro h executionId estimate identifier e hin hreply
    obtain rfl : call = .reserve executionId estimate identifier := hin
    have hfresh := h executionId estimate identifier rfl
    simp only [Machine.transition, budgetMachine, BudgetCall.program, exec_map] at hreply hfresh ⊢
    have hout := reserve_outcome hi.wired executionId estimate identifier
    generalize ((reserve executionId estimate identifier).exec s).1 = reply at hout hreply
    generalize ((reserve executionId estimate identifier).exec s).2 = after at hout
    cases hout with
    | unbound e' _ => rfl
    | refused binding exhaustion _ _ => rfl
    | unnamed e' binding bound admits hstale => exact absurd (hfresh admits) hstale
    | reserved reservation binding _ _ _ _ _ _ _ _ => cases hreply

end Failures

/-- Failing reservations debit nothing in exactly the runs in which every reservation that
fits is given a fresh, non-blank identifier. -/
theorem failing_reserve_debits_nothing_iff {limits : List BudgetLimit}
    {s : InMemoryBudgetController} (hs : InMemoryBudgetController.of limits = .ok s)
    (calls : List BudgetCall) :
    (∀ t ∈ budgetMachine.history s calls, DebitsNothing t) ↔
      ∀ t ∈ budgetMachine.history s calls, Answered t := by
  have hbefore : ∀ t ∈ budgetMachine.history s calls,
      ∃ lost strays, BudgetInvariant lost strays t.before := by
    intro t ht
    refine Machine.history_invariant (P := fun s => ∃ lost strays, BudgetInvariant lost strays s)
      ?_ ⟨_, _, of_invariant hs⟩ ht
    rintro call s ⟨lost, strays, hi⟩
    obtain ⟨lost', strays', hnext, -⟩ := hi.step call
    exact ⟨lost', strays', hnext⟩
  have hiff : ∀ t ∈ budgetMachine.history s calls, (DebitsNothing t ↔ Answered t) := by
    intro t ht
    obtain ⟨lost, strays, hi⟩ := hbefore t ht
    obtain ⟨s', call, rfl⟩ := Machine.history_transition ht
    exact step_debitsNothing_iff hi call
  exact forall₂_congr hiff

theorem failing_reserve_debits_nothing_sample :
    InMemoryBudgetController.of Sample.budgetLimits = .ok Sample.budgets ∧
      ∀ t ∈ budgetMachine.history Sample.budgets (Sample.reserving (.ok (.str "reservation-1"))),
        DebitsNothing t := by
  refine ⟨Sample.budgets_of, (failing_reserve_debits_nothing_iff Sample.budgets_of _).2 ?_⟩
  exact Sample.reserving_answered

/-- An exhausted identifier source leaves the scopes debited without a reservation. -/
theorem failing_reserve_debits :
    ¬∀ t ∈ budgetMachine.history Sample.budgets
      (Sample.reserving (.error (.raised .stopIteration ""))), DebitsNothing t := by
  intro h
  have hreserve := h _ (List.mem_cons_of_mem _ (List.mem_singleton_self _)) _ _ _ _ rfl rfl
  exact absurd hreserve (by decide +kernel)

end AiRetrieval
