import AiRetrieval.Sanity.BudgetOutcomes

/-! The ledger invariant of the budget controller. `lost` is what failed reservations left
reserved on a scope and `strays` how often they moved its revision; both stay as they are
in every call whose identifier source answers. -/

namespace AiRetrieval

open Program

instance : Add ModelUsage := ⟨InMemoryBudgetController.add⟩

instance : Zero ModelUsage := ⟨{}⟩

theorem ModelUsage.ext {a b : ModelUsage} (hc : a.costMinorUnits = b.costMinorUnits)
    (hi : a.inputTokens = b.inputTokens) (ho : a.outputTokens = b.outputTokens) : a = b := by
  cases a; cases b; congr

/-- Usages add by components. -/
instance : AddCommMonoid ModelUsage where
  nsmul := nsmulRec
  add_assoc _ _ _ := ModelUsage.ext (Nat.add_assoc ..) (Nat.add_assoc ..) (Nat.add_assoc ..)
  zero_add _ := ModelUsage.ext (Nat.zero_add _) (Nat.zero_add _) (Nat.zero_add _)
  add_zero _ := ModelUsage.ext (Nat.add_zero _) (Nat.add_zero _) (Nat.add_zero _)
  add_comm _ _ := ModelUsage.ext (Nat.add_comm ..) (Nat.add_comm ..) (Nat.add_comm ..)

namespace InMemoryBudgetController

@[simp] theorem add_eq (a b : ModelUsage) : add a b = a + b := rfl

@[simp] theorem add_cost (a b : ModelUsage) :
    (a + b).costMinorUnits = a.costMinorUnits + b.costMinorUnits := rfl

@[simp] theorem add_input (a b : ModelUsage) :
    (a + b).inputTokens = a.inputTokens + b.inputTokens := rfl

@[simp] theorem add_output (a b : ModelUsage) :
    (a + b).outputTokens = a.outputTokens + b.outputTokens := rfl

@[simp] theorem add_total (a b : ModelUsage) :
    (a + b).totalTokens = a.totalTokens + b.totalTokens := by
  simp only [ModelUsage.totalTokens, add_input, add_output]
  omega

theorem within_add (a b : ModelUsage) : Within a (a + b) :=
  ⟨Nat.le_add_right .., Nat.le_add_right .., Nat.le_add_right ..⟩

theorem remainder_add (a b : ModelUsage) : remainder (a + b) a = b := by
  cases b
  simp [remainder]

section Sums

/-- What a reservation holds of a scope while it is active. -/
def heldBy (scope : String) (record : ReservationRecord) : ModelUsage :=
  if record.receipt = none ∧ scope ∈ record.reservation.val.scopes then
    record.reservation.val.estimate
  else 0

/-- What a reservation spent on a scope once it is reconciled. -/
def spentBy (scope : String) (record : ReservationRecord) : ModelUsage :=
  match record.receipt with
  | some receipt => if scope ∈ record.reservation.val.scopes then receipt.val.actual else 0
  | none => 0

def touchesBy (scope : String) (record : ReservationRecord) : Nat :=
  if scope ∈ record.reservation.val.scopes then
    if record.receipt = none then 1 else 2
  else 0

def heldOn (s : InMemoryBudgetController) (scope : String) : ModelUsage :=
  (s.reservations.values.map (heldBy scope)).sum

def spentOn (s : InMemoryBudgetController) (scope : String) : ModelUsage :=
  (s.reservations.values.map (spentBy scope)).sum

def touches (s : InMemoryBudgetController) (scope : String) : Nat :=
  (s.reservations.values.map (touchesBy scope)).sum

end Sums

/-- Every balance is what the reservations that cover its scope make of it. -/
structure BudgetInvariant (lost : String → ModelUsage) (strays : String → Nat)
    (s : InMemoryBudgetController) : Prop where
  wired : s.Wired
  reserved : ∀ scope balance, s.balances.get? scope = some balance →
    balance.reserved = s.heldOn scope + lost scope
  actual : ∀ scope balance, s.balances.get? scope = some balance →
    balance.actual = s.spentOn scope
  revision : ∀ scope balance, s.balances.get? scope = some balance →
    balance.revision = s.touches scope + strays scope

/-- A reservation that fits is given a usable identifier. -/
def Answered (t : BudgetTransition) : Prop :=
  ∀ executionId estimate identifier, t.input = .reserve executionId estimate identifier →
    t.before.Admits executionId estimate → t.before.Fresh identifier

section Wiring

variable {s : InMemoryBudgetController}

theorem get?_adjusted {f : MutableBalance → MutableBalance} {scopes : List String}
    (hnodup : scopes.Nodup) {scope : String} {balance : MutableBalance}
    (h : (s.balances.adjustAll f scopes).get? scope = some balance) :
    ∃ old, s.balances.get? scope = some old ∧
      balance = if scope ∈ scopes then f old else old := by
  rw [Dict.get?_adjustAll f hnodup] at h
  split at h
  · next hmem =>
    obtain ⟨old, hold, rfl⟩ := Option.map_eq_some_iff.1 h
    exact ⟨old, hold, by rw [if_pos hmem]⟩
  · next hmem => exact ⟨balance, h, by rw [if_neg hmem]⟩

theorem known_adjusted {f : MutableBalance → MutableBalance} {scopes : List String}
    (hnodup : scopes.Nodup) {scope : String}
    (h : ∃ balance, s.balances.get? scope = some balance) :
    ∃ balance, (s.balances.adjustAll f scopes).get? scope = some balance := by
  obtain ⟨balance, hb⟩ := h
  rw [Dict.get?_adjustAll f hnodup, hb]
  split
  · exact ⟨f balance, rfl⟩
  · exact ⟨balance, rfl⟩

theorem Wired.adjusted (hw : s.Wired) (f : MutableBalance → MutableBalance) {scopes : List String}
    (hnodup : scopes.Nodup) : Wired { s with balances := s.balances.adjustAll f scopes } where
  binding_keyed := hw.binding_keyed
  binding_known e binding h scope hscope :=
    known_adjusted hnodup (hw.binding_known e binding h scope hscope)
  record_keyed := hw.record_keyed
  record_nodup := hw.record_nodup
  record_known r record h scope hscope :=
    known_adjusted hnodup (hw.record_known r record h scope hscope)

/-- A new or changed reservation keeps the wiring where it names known scopes. -/
theorem Wired.recorded (hw : s.Wired) {r : String} {record : ReservationRecord}
    (keyed : record.reservation.val.reservationId = r)
    (nodup : record.reservation.val.scopes.Nodup)
    (known : ∀ scope ∈ record.reservation.val.scopes,
      ∃ balance, s.balances.get? scope = some balance) :
    Wired { s with reservations := s.reservations.insert r record } where
  binding_keyed := hw.binding_keyed
  binding_known := hw.binding_known
  record_keyed r' record' h := by
    rw [Dict.get?_insert] at h
    split at h
    · next he => cases h; rw [keyed, he]
    · exact hw.record_keyed _ _ h
  record_nodup r' record' h := by
    rw [Dict.get?_insert] at h
    split at h
    · cases h; exact nodup
    · exact hw.record_nodup _ _ h
  record_known r' record' h := by
    rw [Dict.get?_insert] at h
    split at h
    · cases h; exact known
    · exact hw.record_known _ _ h

theorem Wired.bound (hw : s.Wired) {e : String} {binding : BudgetBinding}
    (keyed : binding.val.executionId = e)
    (known : ∀ scope ∈ binding.val.scopes, ∃ balance, s.balances.get? scope = some balance) :
    Wired { s with bindings := s.bindings.insert e binding } where
  binding_keyed e' binding' h := by
    rw [Dict.get?_insert] at h
    split at h
    · next he => cases h; rw [keyed, he]
    · exact hw.binding_keyed _ _ h
  binding_known e' binding' h := by
    rw [Dict.get?_insert] at h
    split at h
    · cases h; exact known
    · exact hw.binding_known _ _ h
  record_keyed := hw.record_keyed
  record_nodup := hw.record_nodup
  record_known := hw.record_known

end Wiring

section Steps

variable {s : InMemoryBudgetController} {lost : String → ModelUsage} {strays : String → Nat}

theorem BudgetInvariant.within (h : BudgetInvariant lost strays s) {r : String}
    {record : ReservationRecord} (found : s.reservations.get? r = some record)
    (active : record.receipt = none) :
    ∀ scope ∈ record.reservation.val.scopes, ∀ balance, s.balances.get? scope = some balance →
      Within record.reservation.val.estimate balance.reserved := by
  intro scope hscope balance hb
  -- take the record's own summand out of the sum
  have hsum := Dict.sum_values_insert (heldBy scope) s.reservations r
    ⟨record.reservation, some ⟨⟨"r", 0, 0, []⟩, rfl⟩⟩
  rw [found, Option.map_some, Option.getD_some] at hsum
  have hheld : heldBy scope record = record.reservation.val.estimate := by
    unfold heldBy
    rw [if_pos ⟨active, hscope⟩]
  have hclosed : heldBy scope ⟨record.reservation, some ⟨⟨"r", 0, 0, []⟩, rfl⟩⟩ = 0 := by
    unfold heldBy
    rw [if_neg (by simp)]
  rw [hheld, hclosed, add_zero] at hsum
  rw [h.reserved scope balance hb, heldOn, ← hsum, add_comm _ record.reservation.val.estimate,
    add_assoc]
  exact within_add _ _

theorem BudgetInvariant.reserved_step (h : BudgetInvariant lost strays s) {e : String}
    {binding : BudgetBinding} (bound : s.bindings.get? e = some binding)
    {reservation : BudgetReservation}
    (free : s.reservations.get? reservation.val.reservationId = none)
    (scopes : reservation.val.scopes = binding.val.scopes) :
    BudgetInvariant lost strays
      { s.debited binding.val.scopes reservation.val.estimate with
        reservations :=
          s.reservations.insert reservation.val.reservationId ⟨reservation, none⟩ } := by
  have hnodup := binding.scopes_nodup
  have hwired := h.wired.adjusted (held reservation.val.estimate) hnodup
  refine ⟨hwired.recorded rfl (by rw [scopes]; exact hnodup) ?_, ?_, ?_, ?_⟩
  · rw [scopes]
    exact hwired.binding_known e binding bound
  · intro scope balance hb
    obtain ⟨old, hold, rfl⟩ := get?_adjusted hnodup hb
    rw [heldOn, Dict.sum_values_insert_free _ free]
    have hold' := h.reserved scope old hold
    simp only [heldOn] at hold'
    by_cases hmem : scope ∈ binding.val.scopes
    · rw [if_pos hmem]
      simp only [held, posted, add_eq, hold', heldBy, scopes, hmem, and_self, if_true]
      exact add_right_comm ..
    · rw [if_neg hmem, hold']
      simp only [heldBy, scopes, hmem, and_false, if_false, add_zero]
  · intro scope balance hb
    obtain ⟨old, hold, rfl⟩ := get?_adjusted hnodup hb
    rw [spentOn, Dict.sum_values_insert_free _ free]
    have hold' := h.actual scope old hold
    simp only [spentOn] at hold'
    simp only [spentBy, add_zero]
    split <;> exact hold'
  · intro scope balance hb
    obtain ⟨old, hold, rfl⟩ := get?_adjusted hnodup hb
    rw [touches, Dict.sum_values_insert_free _ free]
    have hold' := h.revision scope old hold
    simp only [touches] at hold'
    by_cases hmem : scope ∈ binding.val.scopes
    · simp only [hmem, if_true, held, posted, hold', touchesBy, scopes]
      omega
    · simp only [hmem, if_false, hold', touchesBy, scopes]
      omega

/-- A reservation that got no identifier leaves its estimate on the scopes. -/
theorem BudgetInvariant.unnamed_step (h : BudgetInvariant lost strays s)
    (binding : BudgetBinding) (estimate : ModelUsage) :
    BudgetInvariant
      (fun scope => lost scope + if scope ∈ binding.val.scopes then estimate else 0)
      (fun scope => strays scope + if scope ∈ binding.val.scopes then 1 else 0)
      (s.debited binding.val.scopes estimate) := by
  have hnodup := binding.scopes_nodup
  refine ⟨h.wired.adjusted (held estimate) hnodup, ?_, ?_, ?_⟩
  · intro scope balance hb
    obtain ⟨old, hold, rfl⟩ := get?_adjusted hnodup hb
    have hold' := h.reserved scope old hold
    split
    · simp only [held, posted, add_eq, hold']
      exact add_assoc ..
    · rw [hold', add_zero]
      rfl
  · intro scope balance hb
    obtain ⟨old, hold, rfl⟩ := get?_adjusted hnodup hb
    have hold' := h.actual scope old hold
    split <;> exact hold'
  · intro scope balance hb
    obtain ⟨old, hold, rfl⟩ := get?_adjusted hnodup hb
    have hold' := h.revision scope old hold
    split
    · simp only [held, posted, hold']
      exact Nat.add_assoc ..
    · rw [hold', Nat.add_zero]
      rfl

theorem BudgetInvariant.settled_step (h : BudgetInvariant lost strays s) {r : String}
    {record reconciled : ReservationRecord} {receipt : ReconciliationReceipt}
    {actual : ModelUsage} (found : s.reservations.get? r = some record)
    (active : record.receipt = none) (receipt_eq : reconciled.receipt = some receipt)
    (actual_eq : receipt.val.actual = actual)
    (same : reconciled.reservation.val = { record.reservation.val with state := .reconciled }) :
    BudgetInvariant lost strays
      { s with
        balances := s.balances.adjustAll (settled record.reservation.val.estimate actual)
          record.reservation.val.scopes
        reservations := s.reservations.insert r reconciled } := by
  have hnodup := h.wired.record_nodup r record found
  have hwithin := h.within found active
  have hscopes : reconciled.reservation.val.scopes = record.reservation.val.scopes := by
    rw [same]
  have hwired := h.wired.adjusted (settled record.reservation.val.estimate actual) hnodup
  refine ⟨hwired.recorded ?_ (by rw [hscopes]; exact hnodup) ?_, ?_, ?_, ?_⟩
  · rw [same]
    exact h.wired.record_keyed r record found
  · rw [hscopes]
    exact hwired.record_known r record found
  · intro scope balance hb
    obtain ⟨old, hold, rfl⟩ := get?_adjusted hnodup hb
    have hsum := Dict.sum_values_insert (heldBy scope) s.reservations r reconciled
    have hclosed : heldBy scope reconciled = 0 := by
      unfold heldBy
      rw [receipt_eq, if_neg (by simp)]
    rw [found, Option.map_some, Option.getD_some, hclosed, add_zero] at hsum
    have hold' := h.reserved scope old hold
    rw [heldOn, ← hsum] at hold'
    by_cases hmem : scope ∈ record.reservation.val.scopes
    · have hheld : heldBy scope record = record.reservation.val.estimate := by
        unfold heldBy
        rw [if_pos ⟨active, hmem⟩]
      rw [hheld, add_comm _ record.reservation.val.estimate, add_assoc] at hold'
      simp only [hmem, if_true, settled, posted, hold', remainder_add]
      rfl
    · have hheld : heldBy scope record = 0 := by
        unfold heldBy
        rw [if_neg fun hc => hmem hc.2]
      rw [hheld, add_zero] at hold'
      simp only [hmem, if_false, hold']
      rfl
  · intro scope balance hb
    obtain ⟨old, hold, rfl⟩ := get?_adjusted hnodup hb
    have hsum := Dict.sum_values_insert (spentBy scope) s.reservations r reconciled
    have hopen : spentBy scope record = 0 := by
      unfold spentBy
      rw [active]
    rw [found, Option.map_some, Option.getD_some, hopen, add_zero] at hsum
    have hold' := h.actual scope old hold
    rw [spentOn, hsum]
    rw [spentOn] at hold'
    unfold spentBy at hold' ⊢
    by_cases hmem : scope ∈ record.reservation.val.scopes
    · simp only [hmem, if_true, settled, posted, add_eq, hold', receipt_eq, hscopes, actual_eq]
    · simp only [hmem, if_false, hold', receipt_eq, hscopes, add_zero]
  · intro scope balance hb
    obtain ⟨old, hold, rfl⟩ := get?_adjusted hnodup hb
    have hsum := Dict.sum_values_insert (touchesBy scope) s.reservations r reconciled
    rw [found, Option.map_some, Option.getD_some] at hsum
    have hold' := h.revision scope old hold
    simp only [touches] at hold' ⊢
    unfold touchesBy at hsum hold' ⊢
    rw [receipt_eq, hscopes, active] at hsum
    by_cases hmem : scope ∈ record.reservation.val.scopes
    · simp only [hmem, if_true, reduceCtorEq, if_false] at hsum
      simp only [hmem, if_true, settled, posted, hold']
      omega
    · simp only [hmem, if_false] at hsum
      simp only [hmem, if_false, hold']
      omega

theorem BudgetInvariant.step (h : BudgetInvariant lost strays s) (call : BudgetCall) :
    ∃ lost' strays', BudgetInvariant lost' strays' (budgetMachine call s).2 ∧
      (Answered (budgetMachine.transition s call) → lost' = lost ∧ strays' = strays) := by
  cases call with
  | bind context scopes =>
    refine ⟨lost, strays, ?_, fun _ => ⟨rfl, rfl⟩⟩
    simp only [budgetMachine, BudgetCall.program, exec_map]
    have hout := bind_outcome (s := s) context scopes
    generalize ((bind context scopes).exec s).1 = reply at hout
    generalize ((bind context scopes).exec s).2 = after at hout
    cases hout with
    | raised e => exact h
    | bound binding keyed known _ =>
      exact ⟨h.wired.bound keyed known, h.reserved, h.actual, h.revision⟩
  | reserve executionId estimate identifier =>
    simp only [budgetMachine, BudgetCall.program, exec_map]
    have hout := reserve_outcome h.wired executionId estimate identifier
    generalize ((reserve executionId estimate identifier).exec s).1 = reply at hout
    generalize ((reserve executionId estimate identifier).exec s).2 = after at hout
    cases hout with
    | unbound e _ => exact ⟨lost, strays, h, fun _ => ⟨rfl, rfl⟩⟩
    | refused binding exhaustion _ _ => exact ⟨lost, strays, h, fun _ => ⟨rfl, rfl⟩⟩
    | unnamed e binding bound admits hstale =>
      refine ⟨_, _, h.unnamed_step binding estimate, fun hans => ?_⟩
      exact absurd (hans executionId estimate identifier rfl admits) hstale
    | reserved reservation binding bound _ _ free scopes estimate_eq _ _ =>
      subst estimate_eq
      exact ⟨lost, strays, h.reserved_step bound free scopes, fun _ => ⟨rfl, rfl⟩⟩
  | reconcile reservationId actual =>
    refine ⟨lost, strays, ?_, fun _ => ⟨rfl, rfl⟩⟩
    simp only [budgetMachine, BudgetCall.program, exec_map]
    have hout := reconcile_outcome h.wired reservationId actual fun _ found active =>
      h.within found active
    generalize ((reconcile reservationId actual).exec s).1 = reply at hout
    generalize ((reconcile reservationId actual).exec s).2 = after at hout
    cases hout with
    | unknown e _ => exact h
    | different e record receipt _ _ _ => exact h
    | repeated record receipt _ _ _ => exact h
    | settled record reconciled receipt found active receipt_eq actual_eq same =>
      exact h.settled_step found active receipt_eq actual_eq same

end Steps

section Start

/-- The balances a controller starts with: nothing reserved, nothing spent. -/
def Untouched (balances : Dict String MutableBalance) : Prop :=
  ∀ scope balance, balances.get? scope = some balance → balance = { limit := balance.limit }

theorem of_untouched {limits : List BudgetLimit} {s : InMemoryBudgetController}
    (h : of limits = .ok s) :
    Untouched s.balances ∧ s.bindings = .empty ∧ s.reservations = .empty := by
  obtain ⟨-, hs⟩ := except_seq_eq_ok.1 h
  cases hs
  clear h
  refine ⟨?_, rfl, rfl⟩
  -- by induction over the limits, from any untouched balances
  suffices hfold : ∀ balances : Dict String MutableBalance, Untouched balances →
      Untouched (limits.foldl (fun balances limit => balances.insert limit.val.scope
        { limit := ⟨limit.val.costMinorUnits, limit.val.tokenUnits, 0⟩ }) balances) from
    hfold .empty fun _ _ hempty => by cases hempty
  induction limits with
  | nil => exact fun _ hb => hb
  | cons limit rest ih =>
    intro balances hb
    apply ih
    intro scope balance hget
    rw [Dict.get?_insert] at hget
    split at hget
    · cases hget
      rfl
    · exact hb scope balance hget

theorem of_invariant {limits : List BudgetLimit} {s : InMemoryBudgetController}
    (h : of limits = .ok s) : BudgetInvariant (fun _ => 0) (fun _ => 0) s := by
  obtain ⟨huntouched, hbindings, hreservations⟩ := of_untouched h
  refine ⟨⟨?_, ?_, ?_, ?_, ?_⟩, ?_, ?_, ?_⟩
  · intro e binding he
    rw [hbindings] at he
    cases he
  · intro e binding he
    rw [hbindings] at he
    cases he
  · intro r record hr
    rw [hreservations] at hr
    cases hr
  · intro r record hr
    rw [hreservations] at hr
    cases hr
  · intro r record hr
    rw [hreservations] at hr
    cases hr
  all_goals
    intro scope balance hb
    rw [huntouched scope balance hb]
    simp only [heldOn, spentOn, touches, hreservations]
    rfl

end Start

end InMemoryBudgetController

end AiRetrieval
