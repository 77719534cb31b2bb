import AiRetrieval.Spec.Budget

/-! What each call of the budget controller can do, in a ledger whose bindings and
reservations name scopes it has. Later proofs read these and never unfold the code. -/

namespace AiRetrieval.InMemoryBudgetController

open Program

def Fits (estimate : ModelUsage) (balance : MutableBalance) : Prop :=
  balance.reserved.costMinorUnits + balance.actual.costMinorUnits + estimate.costMinorUnits ≤
      balance.limit.costMinorUnits ∧
    balance.reserved.totalTokens + balance.actual.totalTokens + estimate.totalTokens ≤
      balance.limit.totalTokens

instance (estimate : ModelUsage) (balance : MutableBalance) : Decidable (Fits estimate balance) :=
  inferInstanceAs (Decidable (_ ∧ _))

/-- An estimate fits every scope the execution is bound to. -/
def Admits (s : InMemoryBudgetController) (executionId : String) (estimate : ModelUsage) : Prop :=
  ∃ binding, s.bindings.get? executionId = some binding ∧
    ∀ scope ∈ binding.val.scopes, ∀ balance, s.balances.get? scope = some balance →
      Fits estimate balance

/-- The identifier source answers with a text that is not blank and names no reservation. -/
def Fresh (s : InMemoryBudgetController) (identifier : Except PyError PyValue) : Prop :=
  ∃ reservationId, identifier = .ok (.str reservationId) ∧ blank reservationId = false ∧
    s.reservations.get? reservationId = none

/-- Bindings and reservations name scopes the ledger has, each once, and lie under their
own identifiers. -/
structure Wired (s : InMemoryBudgetController) : Prop where
  binding_keyed : ∀ e binding, s.bindings.get? e = some binding → binding.val.executionId = e
  binding_known : ∀ e binding, s.bindings.get? e = some binding →
    ∀ scope ∈ binding.val.scopes, ∃ balance, s.balances.get? scope = some balance
  record_keyed : ∀ r record, s.reservations.get? r = some record →
    record.reservation.val.reservationId = r
  record_nodup : ∀ r record, s.reservations.get? r = some record →
    record.reservation.val.scopes.Nodup
  record_known : ∀ r record, s.reservations.get? r = some record →
    ∀ scope ∈ record.reservation.val.scopes, ∃ balance, s.balances.get? scope = some balance

section Loops

variable {s : InMemoryBudgetController} {scopes : List String}

theorem balanceOf_of_get? {scope : String} {balance : MutableBalance}
    (h : s.balances.get? scope = some balance) : s.balanceOf scope = .ok balance := by
  unfold balanceOf
  rw [h]
  rfl

def posted (change : MutableBalance → MutableBalance) (balance : MutableBalance) :
    MutableBalance :=
  { change balance with revision := (change balance).revision + 1 }

theorem post_returns {change : MutableBalance → Except PyError MutableBalance}
    {f : MutableBalance → MutableBalance} {scope : String} {balance : MutableBalance}
    (hb : s.balances.get? scope = some balance) (hc : change balance = .ok (f balance)) :
    (post change scope).exec s = (.ok (scope, (posted f balance).revision),
      { s with balances := s.balances.adjust (posted f) scope }) := by
  unfold post
  simp only [exec_bind, exec_get, exec_liftExcept, balanceOf_of_get? hb, hc, exec_set, exec_pure,
    Dict.adjust_of_get? _ hb, posted]

/-- The loops of `reserve` and `reconcile`, where every scope takes the change. -/
theorem postAll_returns {change : MutableBalance → Except PyError MutableBalance}
    {f : MutableBalance → MutableBalance} (hnodup : scopes.Nodup)
    (h : ∀ scope ∈ scopes, ∃ balance, s.balances.get? scope = some balance ∧
      change balance = .ok (f balance)) :
    ∃ revisions, (scopes.mapM (post change)).exec s =
      (.ok revisions, { s with balances := s.balances.adjustAll (posted f) scopes }) := by
  induction scopes generalizing s with
  | nil => exact ⟨[], rfl⟩
  | cons scope rest ih =>
    rw [List.nodup_cons] at hnodup
    obtain ⟨balance, hb, hc⟩ := h scope (List.mem_cons_self ..)
    -- the rest of the scopes still have the balances they had
    have hrest : ∀ other ∈ rest, ∃ balance,
        (s.balances.adjust (posted f) scope).get? other = some balance ∧
          change balance = .ok (f balance) := by
      intro other hother
      obtain ⟨balance', hb', hc'⟩ := h other (List.mem_cons_of_mem _ hother)
      have hne : other ≠ scope := fun he => hnodup.1 (he ▸ hother)
      exact ⟨balance', by rw [Dict.get?_adjust, if_neg hne, hb'], hc'⟩
    obtain ⟨revisions, hr⟩ :=
      ih (s := { s with balances := s.balances.adjust (posted f) scope }) hnodup.2 hrest
    refine ⟨(scope, (posted f balance).revision) :: revisions, ?_⟩
    rw [List.mapM_cons, exec_bind_of_ok (post_returns hb hc), exec_bind_of_ok hr]
    rfl

def held (estimate : ModelUsage) : MutableBalance → MutableBalance :=
  posted fun balance => { balance with reserved := add balance.reserved estimate }

def debited (s : InMemoryBudgetController) (scopes : List String) (estimate : ModelUsage) :
    InMemoryBudgetController :=
  { s with balances := s.balances.adjustAll (held estimate) scopes }

theorem holdAll_returns (estimate : ModelUsage) (hnodup : scopes.Nodup)
    (h : ∀ scope ∈ scopes, ∃ balance, s.balances.get? scope = some balance) :
    ∃ revisions, (scopes.mapM (post (hold estimate))).exec s =
      (.ok revisions, s.debited scopes estimate) := by
  refine postAll_returns hnodup fun scope hscope => ?_
  obtain ⟨balance, hb⟩ := h scope hscope
  exact ⟨balance, hb, rfl⟩

/-- What is left of `reserved` once an estimate it holds is taken out. -/
def remainder (left right : ModelUsage) : ModelUsage where
  costMinorUnits := left.costMinorUnits - right.costMinorUnits
  inputTokens := left.inputTokens - right.inputTokens
  outputTokens := left.outputTokens - right.outputTokens

/-- `right` is part of `left` in every component. -/
structure Within (right left : ModelUsage) : Prop where
  cost : right.costMinorUnits ≤ left.costMinorUnits
  input : right.inputTokens ≤ left.inputTokens
  output : right.outputTokens ≤ left.outputTokens

theorem subtract_returns {left right : ModelUsage} (h : Within right left) :
    subtract left right = .ok (remainder left right) := by
  unfold subtract
  rw [require_of h.cost, require_of h.input, require_of h.output]
  rfl

/-- A balance after a reservation of `estimate` on it is reconciled with `actual`. -/
def settled (estimate actual : ModelUsage) : MutableBalance → MutableBalance :=
  posted fun balance =>
    { balance with
      reserved := remainder balance.reserved estimate
      actual := add balance.actual actual }

theorem settleAll_returns {estimate : ModelUsage} (actual : ModelUsage) (hnodup : scopes.Nodup)
    (h : ∀ scope ∈ scopes, ∃ balance, s.balances.get? scope = some balance ∧
      Within estimate balance.reserved) :
    ∃ revisions, (scopes.mapM (post (settle estimate actual))).exec s =
      (.ok revisions,
        { s with balances := s.balances.adjustAll (settled estimate actual) scopes }) := by
  refine postAll_returns hnodup fun scope hscope => ?_
  obtain ⟨balance, hb, hw⟩ := h scope hscope
  refine ⟨balance, hb, ?_⟩
  unfold settle
  rw [subtract_returns hw]
  rfl

end Loops

section Exhaustion

variable {s : InMemoryBudgetController} {scopes : List String} {estimate : ModelUsage}

theorem shortage_none_iff (balance : MutableBalance) :
    ((decide ((estimate.costMinorUnits : Int) > availableCost balance) ||
      decide ((estimate.totalTokens : Int) > availableTokens balance)) = false) ↔
      Fits estimate balance := by
  rw [Bool.or_eq_false_iff, decide_eq_false_iff_not, decide_eq_false_iff_not]
  unfold availableCost availableTokens Fits
  omega

theorem exhaustion_decides (estimate : ModelUsage)
    (h : ∀ scope ∈ scopes, ∃ balance, s.balances.get? scope = some balance) :
    (s.exhaustion scopes estimate = .ok none ∧ ∀ scope ∈ scopes, ∀ balance,
        s.balances.get? scope = some balance → Fits estimate balance) ∨
      ((∃ exhaustion, s.exhaustion scopes estimate = .ok (some exhaustion)) ∧
        ¬∀ scope ∈ scopes, ∀ balance, s.balances.get? scope = some balance →
          Fits estimate balance) := by
  let test (scope : String) : Shortage :=
    let balance := (s.balances.get? scope).getD { limit := {} }
    { scope := scope
      cost := (estimate.costMinorUnits : Int) > availableCost balance
      tokens := (estimate.totalTokens : Int) > availableTokens balance }
  have htest : ∀ scope ∈ scopes, s.shortage estimate scope = .ok (test scope) := by
    intro scope hscope
    obtain ⟨balance, hb⟩ := h scope hscope
    simp only [shortage, balanceOf_of_get? hb, test, hb, Option.getD_some]
    rfl
  have hfits : ∀ scope ∈ scopes, (((test scope).cost || (test scope).tokens) = false ↔
      ∀ balance, s.balances.get? scope = some balance → Fits estimate balance) := by
    intro scope hscope
    obtain ⟨balance, hb⟩ := h scope hscope
    simp only [test, hb, Option.getD_some, shortage_none_iff, Option.some.injEq, forall_eq']
  have hloop : s.exhaustion scopes estimate = (do
      let shortages := scopes.map test
      let exhaustedScopes :=
        (shortages.filter fun short => short.cost || short.tokens).map (·.scope)
      if exhaustedScopes = [] then
        return none
      else
        let cost := if shortages.any (·.cost) then [BudgetDimension.cost] else []
        let tokens := if shortages.any (·.tokens) then [BudgetDimension.tokens] else []
        return some (← Checked.make BudgetExhaustion.postInit
          ⟨exhaustedScopes, cost ++ tokens⟩)) := by
    unfold exhaustion
    rw [except_mapM_eq_ok htest]
    rfl
  by_cases hall : ∀ scope ∈ scopes, ((test scope).cost || (test scope).tokens) = false
  · left
    refine ⟨?_, fun scope hscope => (hfits scope hscope).1 (hall scope hscope)⟩
    have hnone : ((scopes.map test).filter fun short => short.cost || short.tokens) = [] := by
      rw [List.filter_eq_nil_iff]
      intro short hshort
      obtain ⟨scope, hscope, rfl⟩ := List.mem_map.1 hshort
      rw [hall scope hscope]
      exact Bool.false_ne_true
    rw [hloop]
    dsimp only
    rw [hnone]
    rfl
  · right
    have hsome : (((scopes.map test).filter fun short => short.cost || short.tokens).map
        (·.scope)) ≠ [] := by
      intro hnil
      apply hall
      intro scope hscope
      rw [List.map_eq_nil_iff, List.filter_eq_nil_iff] at hnil
      simpa using hnil (test scope) (List.mem_map_of_mem hscope)
    refine ⟨?_, fun hf => hall fun scope hscope => (hfits scope hscope).2 (hf scope hscope)⟩
    rw [hloop]
    dsimp only
    rw [if_neg hsome]
    have hpassed (dimensions : List BudgetDimension) :
        BudgetExhaustion.postInit ⟨_, dimensions⟩ = .ok () := require_of hsome
    rw [Checked.make_of_passed (hpassed _)]
    exact ⟨_, rfl⟩

end Exhaustion

section Calls

variable {s : InMemoryBudgetController}

theorem newReservationId_of_fresh {identifier : Except PyError PyValue}
    (h : s.Fresh identifier) : ∃ reservationId, s.newReservationId identifier = .ok reservationId ∧
      blank reservationId = false ∧ s.reservations.get? reservationId = none := by
  obtain ⟨reservationId, rfl, hblank, hfree⟩ := h
  refine ⟨reservationId, ?_, hblank, hfree⟩
  have hcontains : s.reservations.contains reservationId = false := by
    unfold Dict.contains
    rw [hfree]
    rfl
  unfold newReservationId
  rw [except_bind_eq_ok]
  refine ⟨.str reservationId, rfl, ?_⟩
  simp only [hblank, hcontains, Bool.false_eq_true, if_false]

theorem newReservationId_of_stale {identifier : Except PyError PyValue}
    (h : ¬s.Fresh identifier) : ∃ e, s.newReservationId identifier = .error e := by
  rcases hid : s.newReservationId identifier with e | reservationId
  · exact ⟨e, rfl⟩
  · exfalso
    apply h
    unfold newReservationId at hid
    obtain ⟨value, hvalue, hid⟩ := except_bind_eq_ok.1 hid
    split at hid
    · next text =>
      split at hid
      · cases hid
      · next hblank =>
        split at hid
        · cases hid
        · next hfree =>
          refine ⟨text, hvalue, by simpa using hblank, ?_⟩
          simpa [Dict.contains] using hfree
    · cases hid

/-- What `reserve` does: raise without a binding, refuse what does not fit, and debit every
bound scope of what does, whether or not it then gets an identifier. -/
inductive ReserveOutcome (s : InMemoryBudgetController) (executionId : String)
    (estimate : ModelUsage) (identifier : Except PyError PyValue) :
    Except PyError ReservationDecision → InMemoryBudgetController → Prop
  | unbound (e : PyError) (h : s.bindings.get? executionId = none) :
    ReserveOutcome s executionId estimate identifier (.error e) s
  | refused (binding : BudgetBinding) (exhaustion : BudgetExhaustion)
    (bound : s.bindings.get? executionId = some binding)
    (h : ¬s.Admits executionId estimate) :
    ReserveOutcome s executionId estimate identifier (.ok (.exhausted exhaustion)) s
  | unnamed (e : PyError) (binding : BudgetBinding)
    (bound : s.bindings.get? executionId = some binding) (admits : s.Admits executionId estimate)
    (h : ¬s.Fresh identifier) :
    ReserveOutcome s executionId estimate identifier (.error e)
      (s.debited binding.val.scopes estimate)
  | reserved (reservation : BudgetReservation) (binding : BudgetBinding)
    (bound : s.bindings.get? executionId = some binding) (admits : s.Admits executionId estimate)
    (fresh : s.Fresh identifier)
    (free : s.reservations.get? reservation.val.reservationId = none)
    (scopes : reservation.val.scopes = binding.val.scopes)
    (estimate_eq : reservation.val.estimate = estimate)
    (execution : reservation.val.executionId = executionId)
    (active : reservation.val.state = .active) :
    ReserveOutcome s executionId estimate identifier (.ok (.reserved reservation))
      { s.debited binding.val.scopes estimate with
        reservations := s.reservations.insert reservation.val.reservationId ⟨reservation, none⟩ }

theorem reserve_outcome (hw : s.Wired) (executionId : String) (estimate : ModelUsage)
    (identifier : Except PyError PyValue) :
    ReserveOutcome s executionId estimate identifier
      ((reserve executionId estimate identifier).exec s).1
      ((reserve executionId estimate identifier).exec s).2 := by
  rcases hbound : s.bindings.get? executionId with _ | binding
  · unfold reserve
    simp only [exec_bind, exec_get, hbound, exec_throw]
    exact .unbound _ hbound
  · have hpassed := BudgetBinding.postInit_eq_ok.1 binding.passed
    have hadmits : s.Admits executionId estimate ↔ ∀ scope ∈ binding.val.scopes, ∀ balance,
        s.balances.get? scope = some balance → Fits estimate balance := by
      unfold Admits
      simp only [hbound, Option.some.injEq, exists_eq_left']
    unfold reserve
    simp only [exec_bind, exec_get, hbound, exec_liftExcept]
    rcases exhaustion_decides estimate (hw.binding_known _ _ hbound) with
      ⟨hx, hfit⟩ | ⟨⟨exhaustion, hx⟩, hfit⟩
    · obtain ⟨revisions, hr⟩ :=
        holdAll_returns estimate hpassed.2.1.2 (hw.binding_known _ _ hbound)
      simp only [hx, exec_bind, hr, exec_liftExcept]
      by_cases hfresh : s.Fresh identifier
      · obtain ⟨reservationId, hid, hblank, hfree⟩ := newReservationId_of_fresh hfresh
        have hexecution : blank executionId = false := by
          rw [← hw.binding_keyed _ _ hbound]
          exact hpassed.1.1
        have hreservation : BudgetReservation.postInit {
            reservationId := reservationId
            executionId := executionId
            scopes := binding.val.scopes
            estimate := estimate
            scopeRevisions := revisions } = .ok () :=
          BudgetReservation.postInit_eq_ok.2 ⟨hblank, hexecution, hpassed.2.1.1⟩
        simp only [hid, Checked.make_of_passed hreservation, exec_modify, exec_pure]
        exact .reserved _ binding hbound (hadmits.2 hfit) hfresh hfree rfl rfl rfl rfl
      · obtain ⟨e, he⟩ := newReservationId_of_stale hfresh
        simp only [he]
        exact .unnamed e binding hbound (hadmits.2 hfit) hfresh
    · simp only [hx, exec_pure]
      exact .refused binding exhaustion hbound fun h => hfit (hadmits.1 h)

/-- What `reconcile` does: raise or repeat its receipt where it has nothing to settle, and
otherwise settle every scope of the reservation. -/
inductive ReconcileOutcome (s : InMemoryBudgetController) (reservationId : String)
    (actual : ModelUsage) :
    Except PyError ReconciliationReceipt → InMemoryBudgetController → Prop
  | unknown (e : PyError) (h : s.reservations.get? reservationId = none) :
    ReconcileOutcome s reservationId actual (.error e) s
  | different (e : PyError) (record : ReservationRecord) (receipt : ReconciliationReceipt)
    (found : s.reservations.get? reservationId = some record)
    (closed : record.receipt = some receipt) (h : receipt.val.actual ≠ actual) :
    ReconcileOutcome s reservationId actual (.error e) s
  | repeated (record : ReservationRecord) (receipt : ReconciliationReceipt)
    (found : s.reservations.get? reservationId = some record)
    (closed : record.receipt = some receipt) (h : receipt.val.actual = actual) :
    ReconcileOutcome s reservationId actual (.ok receipt) s
  | settled (record reconciled : ReservationRecord) (receipt : ReconciliationReceipt)
    (found : s.reservations.get? reservationId = some record) (active : record.receipt = none)
    (receipt_eq : reconciled.receipt = some receipt) (actual_eq : receipt.val.actual = actual)
    (same : reconciled.reservation.val =
      { record.reservation.val with state := .reconciled }) :
    ReconcileOutcome s reservationId actual (.ok receipt)
      { s with
        balances := s.balances.adjustAll
          (InMemoryBudgetController.settled record.reservation.val.estimate actual)
          record.reservation.val.scopes
        reservations := s.reservations.insert reservationId reconciled }

theorem reconcile_outcome (hw : s.Wired) (reservationId : String) (actual : ModelUsage)
    (hheld : ∀ record, s.reservations.get? reservationId = some record → record.receipt = none →
      ∀ scope ∈ record.reservation.val.scopes, ∀ balance, s.balances.get? scope = some balance →
        Within record.reservation.val.estimate balance.reserved) :
    ReconcileOutcome s reservationId actual ((reconcile reservationId actual).exec s).1
      ((reconcile reservationId actual).exec s).2 := by
  unfold reconcile
  simp only [exec_bind, exec_get]
  rcases hfound : s.reservations.get? reservationId with _ | ⟨reservation, receipt | receipt⟩
  · exact .unknown _ hfound
  · have hscopes : ∀ scope ∈ reservation.val.scopes, ∃ balance,
        s.balances.get? scope = some balance ∧
          Within reservation.val.estimate balance.reserved := by
      intro scope hscope
      obtain ⟨balance, hb⟩ := hw.record_known _ _ hfound scope hscope
      exact ⟨balance, hb, hheld _ hfound rfl scope hscope balance hb⟩
    obtain ⟨revisions, hr⟩ := settleAll_returns actual
      (hw.record_nodup _ _ hfound) hscopes
    have hkeyed : reservation.val.reservationId = reservationId := hw.record_keyed _ _ hfound
    have hpassed := BudgetReservation.postInit_eq_ok.1 reservation.passed
    have hreceipt : ReconciliationReceipt.postInit ⟨reservationId, actual,
        released reservation.val.estimate actual, revisions⟩ = .ok () :=
      requireText_eq_ok.2 (hkeyed ▸ hpassed.1)
    have hreconciled : BudgetReservation.postInit
        { reservation.val with state := .reconciled } = .ok () :=
      BudgetReservation.postInit_eq_ok.2 hpassed
    simp only [exec_bind, hr, exec_liftExcept, Checked.make_of_passed hreceipt,
      Checked.make_of_passed hreconciled, exec_modify, exec_pure]
    exact .settled ⟨reservation, none⟩ _ _ hfound rfl rfl rfl rfl
  · dsimp only
    split
    · next h => exact .different _ _ receipt hfound rfl h
    · next h => exact .repeated _ receipt hfound rfl (not_not.1 h)

/-- What `bind` does: raise, or bind a free execution to scopes the ledger has, or bind it
again as it is bound. -/
inductive BindOutcome (s : InMemoryBudgetController) (executionId : String) :
    Except PyError BudgetBinding → InMemoryBudgetController → Prop
  | raised (e : PyError) : BindOutcome s executionId (.error e) s
  | bound (binding : BudgetBinding) (keyed : binding.val.executionId = executionId)
    (known : ∀ scope ∈ binding.val.scopes, ∃ balance, s.balances.get? scope = some balance)
    (h : ∀ existing, s.bindings.get? executionId = some existing → existing = binding) :
    BindOutcome s executionId (.ok binding)
      { s with bindings := s.bindings.insert executionId binding }

theorem bind_outcome (context : ExecutionContext) (scopes : List String) :
    BindOutcome s context.executionId.val ((bind context scopes).exec s).1
      ((bind context scopes).exec s).2 := by
  unfold bind
  simp only [exec_bind, exec_liftExcept, exec_get]
  rcases normalizeScopes scopes with e | normalized
  · exact .raised e
  simp only
  rcases hknown : s.requireKnownScopes normalized with e | _
  · exact .raised e
  simp only
  rcases hmake : Checked.make BudgetBinding.postInit ⟨context.executionId.val,
    context.configuration.reference.val.version, normalized⟩ with e | proposed
  · exact .raised e
  have hval := Checked.make_eq_ok.1 hmake
  have hscopes : ∀ scope ∈ proposed.val.scopes, ∃ balance,
      s.balances.get? scope = some balance := by
    intro scope hscope
    rw [hval] at hscope
    have hmissing := List.filter_eq_nil_iff.1 (require_eq_ok.1 hknown) scope hscope
    rw [decide_eq_true_eq, not_not] at hmissing
    exact Option.isSome_iff_exists.1 hmissing
  have hkeyed : proposed.val.executionId = context.executionId.val := by rw [hval]
  simp only
  rcases hfound : s.bindings.get? context.executionId.val with _ | existing
  · exact .bound proposed hkeyed hscopes fun existing h => by rw [hfound] at h; cases h
  · dsimp only
    split
    · exact .raised _
    · next hsame =>
      refine .bound proposed hkeyed hscopes fun existing' h => ?_
      rw [hfound] at h
      cases h
      exact not_not.1 hsame

end Calls

end AiRetrieval.InMemoryBudgetController
