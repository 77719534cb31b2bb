import AiRetrieval.Spec.Records

/-! The records of `domain/budget.py`. Costs, token counts and revisions that the source
checks to be non-negative integers are natural numbers. -/

namespace AiRetrieval

/-- `Usage` of `domain/budget.py`: minor currency units and two token counts. -/
structure ModelUsage where
  costMinorUnits : Nat := 0
  inputTokens : Nat := 0
  outputTokens : Nat := 0
  deriving DecidableEq

def ModelUsage.totalTokens (usage : ModelUsage) : Nat := usage.inputTokens + usage.outputTokens

inductive BudgetDimension where
  | cost
  | tokens
  deriving DecidableEq

inductive ReservationState where
  | active
  | reconciled
  deriving DecidableEq

structure BudgetLimit.Fields where
  scope : String
  costMinorUnits : Nat
  tokenUnits : Nat
  deriving DecidableEq

def BudgetLimit.postInit (r : BudgetLimit.Fields) : Except PyError Unit :=
  requireText "scope" r.scope

abbrev BudgetLimit := Checked BudgetLimit.postInit

structure BudgetBinding.Fields where
  executionId : String
  configurationVersion : String
  scopes : List String
  deriving DecidableEq

def BudgetBinding.postInit (r : BudgetBinding.Fields) : Except PyError Unit := do
  requireText "execution_id" r.executionId
  requireText "configuration_version" r.configurationVersion
  require (r.scopes ≠ [] ∧ r.scopes.Nodup)
    (.valueError "budget binding requires unique scopes")
  requireTexts (r.scopes.map fun scope => ("scope", scope))

abbrev BudgetBinding := Checked BudgetBinding.postInit

structure BudgetReservation.Fields where
  reservationId : String
  executionId : String
  scopes : List String
  estimate : ModelUsage
  scopeRevisions : List (String × Nat)
  state : ReservationState := .active
  deriving DecidableEq

def BudgetReservation.postInit (r : BudgetReservation.Fields) : Except PyError Unit := do
  requireText "reservation_id" r.reservationId
  requireText "execution_id" r.executionId
  require (r.scopes ≠ []) (.valueError "reservation requires at least one scope")

abbrev BudgetReservation := Checked BudgetReservation.postInit

structure BudgetExhaustion.Fields where
  exhaustedScopes : List String
  dimensions : List BudgetDimension
  deriving DecidableEq

def BudgetExhaustion.postInit (r : BudgetExhaustion.Fields) : Except PyError Unit :=
  require (r.exhaustedScopes ≠ []) (.valueError "budget exhaustion requires an exhausted scope")

abbrev BudgetExhaustion := Checked BudgetExhaustion.postInit

/-- A reservation decision has exactly one of its two outcomes. -/
inductive ReservationDecision where
  | reserved (reservation : BudgetReservation)
  | exhausted (exhaustion : BudgetExhaustion)
  deriving DecidableEq

structure ReconciliationReceipt.Fields where
  reservationId : String
  actual : ModelUsage
  released : ModelUsage
  scopeRevisions : List (String × Nat)
  deriving DecidableEq

def ReconciliationReceipt.postInit (r : ReconciliationReceipt.Fields) : Except PyError Unit :=
  requireText "reservation_id" r.reservationId

abbrev ReconciliationReceipt := Checked ReconciliationReceipt.postInit

theorem BudgetBinding.postInit_eq_ok {r : BudgetBinding.Fields} :
    postInit r = .ok () ↔ (blank r.executionId = false ∧ blank r.configurationVersion = false) ∧
      (r.scopes ≠ [] ∧ r.scopes.Nodup) ∧ ∀ scope ∈ r.scopes, blank scope = false := by
  simp only [postInit, except_seq_eq_ok, requireText_eq_ok, require_eq_ok, requireTexts_eq_ok,
    List.forall_mem_map]
  exact and_assoc.symm

theorem BudgetBinding.scopes_nodup (binding : BudgetBinding) : binding.val.scopes.Nodup :=
  (postInit_eq_ok.1 binding.passed).2.1.2

theorem BudgetReservation.postInit_eq_ok {r : BudgetReservation.Fields} :
    postInit r = .ok () ↔
      blank r.reservationId = false ∧ blank r.executionId = false ∧ r.scopes ≠ [] := by
  simp only [postInit, except_seq_eq_ok, requireText_eq_ok, require_eq_ok]

end AiRetrieval
