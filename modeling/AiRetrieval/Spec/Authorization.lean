import AiRetrieval.Spec.WriteBackRecords
import AiRetrieval.Library.Dictionaries

/-! `write_back/authorization.py`: the current policies and approvals, and the
approvals that were revoked since they were recorded. -/

namespace AiRetrieval

structure InMemoryWriteBackAuthorization where
  policies : Dict String WriteBackPolicy
  approvals : Dict String ApprovalRecord
  revoked : List String

/-- `replace(approval, revoked=True)`. -/
def ApprovalRecord.withdrawn (approval : ApprovalRecord) : ApprovalRecord :=
  ⟨{ approval.val with revoked := true }, approval.passed⟩

namespace InMemoryWriteBackAuthorization

def of (policies : List WriteBackPolicy) (approvals : List ApprovalRecord) :
    InMemoryWriteBackAuthorization where
  policies := policies.foldl (fun d policy => d.insert policy.val.version policy) .empty
  approvals := approvals.foldl (fun d approval => d.insert approval.val.reference approval) .empty
  revoked := []

def revoke (a : InMemoryWriteBackAuthorization) (approvalReference : String) :
    InMemoryWriteBackAuthorization :=
  { a with revoked := a.revoked.insert approvalReference }

/-- The authority after the revocations, in order. -/
def revokeAll (a : InMemoryWriteBackAuthorization) (revocations : List String) :
    InMemoryWriteBackAuthorization := revocations.foldl revoke a

def resolve (a : InMemoryWriteBackAuthorization) (policyVersion approvalReference : String) :
    AuthorizationSnapshot where
  policy := a.policies.get? policyVersion
  approval := (a.approvals.get? approvalReference).map fun approval =>
    if approval.val.reference ∈ a.revoked ∧ approval.val.revoked = false then approval.withdrawn
    else approval

end InMemoryWriteBackAuthorization

end AiRetrieval
