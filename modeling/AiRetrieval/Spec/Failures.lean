/-! `domain/failures.py`. -/

namespace AiRetrieval

inductive FailureCode where
  | ambiguousPath
  | missingPath
  | invalidDiscriminator
  | configurationUnavailable
  | queryPlanUnavailable
  | unsupportedOperation
  | mutationBlocked
  | unsupportedCapability
  | nondeterministicOrder
  | invalidQueryParameters
  | readOnlyCredentialRequired
  | databaseAuthenticationFailed
  | databaseAccessDenied
  | databaseProtectionRequired
  | resultNormalizationFailed
  | securityPolicyUnavailable
  | securityPolicyInvalid
  | securityPolicyDenied
  | securityProviderDenied
  | securityDataDenied
  | securityProtectionRequired
  | modelAuthenticationFailed
  deriving DecidableEq

structure TypedFailure where
  code : FailureCode
  message : String
  retryable : Bool := false
  deriving DecidableEq

end AiRetrieval
