import AiRetrieval.Spec.TaskRecords
import Mathlib.Data.Rat.Defs
import Mathlib.Algebra.Order.Ring.Rat

/-! The records of `domain/model_routing.py` and of `model_routing/capacity.py`, and the plan
made of them. Qualities lie between zero and one, so they stand as rational numbers. -/

namespace AiRetrieval

inductive PolicyDecision where
  | allow
  | deny
  | indeterminate
  deriving DecidableEq

structure ModelCandidate.Fields where
  modelId : String
  providerId : String
  capabilities : FrozenSet
  allowedDataClasses : FrozenSet
  costEstimate : Nat
  priority : Int
  predictedLatencyMs : Nat
  qualityScore : Rat
  deriving DecidableEq

def ModelCandidate.postInit (r : ModelCandidate.Fields) : Except PyError Unit := do
  require (blank r.modelId = false ∧ blank r.providerId = false)
    (.valueError "model and provider identifiers must not be blank")
  require (0 ≤ r.qualityScore ∧ r.qualityScore ≤ 1)
    (.valueError "quality_score must be between zero and one")

abbrev ModelCandidate := Checked ModelCandidate.postInit

structure ModelOperation.Fields where
  operationId : String
  tenantId : String
  scopeId : String
  path : ExecutionPath
  work : ModelWork
  estimatedTotalTokens : Nat
  minimumQuality : Rat := 0
  dataClasses : List String := []
  deadline : Option DateTime := none
  completionReserveMs : Nat := 0
  deriving DecidableEq

def ModelOperation.postInit (r : ModelOperation.Fields) : Except PyError Unit := do
  require (blank r.operationId = false ∧ blank r.tenantId = false ∧ blank r.scopeId = false)
    (.valueError "operation, tenant, and scope identifiers must not be blank")
  require (0 ≤ r.minimumQuality ∧ r.minimumQuality ≤ 1)
    (.valueError "minimum_quality must be between zero and one")

abbrev ModelOperation := Checked ModelOperation.postInit

structure RoutingPolicy.Fields where
  version : String
  decision : PolicyDecision
  available : Bool
  valid : Bool
  allowedProviderIds : FrozenSet
  allowedDataClasses : FrozenSet
  minimumQuality : Rat := 0
  deriving DecidableEq

def RoutingPolicy.postInit (r : RoutingPolicy.Fields) : Except PyError Unit := do
  require (blank r.version = false) (.valueError "routing policy version must not be blank")
  require (0 ≤ r.minimumQuality ∧ r.minimumQuality ≤ 1)
    (.valueError "policy minimum_quality must be between zero and one")

abbrev RoutingPolicy := Checked RoutingPolicy.postInit

inductive EligibilityReason where
  | policyUnavailable
  | policyInvalid
  | policyDenied
  | providerDenied
  | dataPolicyDenied
  | capabilityMissing
  | qualityIneligible
  | budgetIneligible
  | deadlineIneligible
  deriving DecidableEq

structure CandidateEligibility where
  candidate : ModelCandidate
  reasons : List EligibilityReason
  deriving DecidableEq

def CandidateEligibility.eligible (item : CandidateEligibility) : Bool := item.reasons.isEmpty

inductive CapacityScopeKind where
  | system
  | request
  | job
  | tenant
  | provider
  | model
  deriving DecidableEq

structure CapacityScope.Fields where
  kind : CapacityScopeKind
  identifier : String
  deriving DecidableEq

def CapacityScope.postInit (r : CapacityScope.Fields) : Except PyError Unit :=
  require (blank r.identifier = false)
    (.valueError "capacity scope identifier must not be blank")

abbrev CapacityScope := Checked CapacityScope.postInit

structure CapacityLimit.Fields where
  concurrency : Option Nat := none
  requestsPerMinute : Option Nat := none
  tokensPerMinute : Option Nat := none
  deriving DecidableEq

def CapacityLimit.postInit (r : CapacityLimit.Fields) : Except PyError Unit :=
  require (¬(r.concurrency = none ∧ r.requestsPerMinute = none ∧ r.tokensPerMinute = none))
    (.valueError "at least one capacity limit is required")

abbrev CapacityLimit := Checked CapacityLimit.postInit

structure CapacityLease where
  operationId : String
  scopes : List CapacityScope
  deriving DecidableEq

structure CapacityAdmission where
  candidate : ModelCandidate
  lease : CapacityLease
  deriving DecidableEq

structure ModelPlan where
  operation : ModelOperation
  candidate : ModelCandidate
  lease : CapacityLease
  estimate : ModelUsage
  deriving DecidableEq

theorem ModelCandidate.texts (c : ModelCandidate) :
    blank c.val.modelId = false ∧ blank c.val.providerId = false := by
  have h := c.passed
  simp only [postInit, except_seq_eq_ok, require_eq_ok] at h
  exact h.1

theorem ModelOperation.texts (o : ModelOperation) : blank o.val.operationId = false ∧
    blank o.val.tenantId = false ∧ blank o.val.scopeId = false := by
  have h := o.passed
  simp only [postInit, except_seq_eq_ok, require_eq_ok] at h
  exact h.1

end AiRetrieval
