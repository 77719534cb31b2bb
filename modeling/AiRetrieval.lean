import AiRetrieval.Sanity.StoreOutcomes
import AiRetrieval.Spec.Coordinator
import AiRetrieval.Spec.Execution
import AiRetrieval.Spec.Effects
import AiRetrieval.Spec.WriteBack
import AiRetrieval.Spec.Pipeline
import AiRetrieval.Library.Histories
import AiRetrieval.Spec.StoreMachine
import AiRetrieval.Sanity.StoreChanges
import AiRetrieval.Sanity.StoreInvariant
import AiRetrieval.Sanity.StoreGrowth
import AiRetrieval.Proofs.DurableStore
import AiRetrieval.Proofs.LeaseExclusion
import AiRetrieval.Proofs.BrokerConservation
import AiRetrieval.Sanity.WorldMoves
import AiRetrieval.Proofs.StaleClaims
import AiRetrieval.Sanity.EffectMoves
import AiRetrieval.Proofs.LiveMutations
import AiRetrieval.Sanity.EffectRecords
import AiRetrieval.Sanity.EffectOutcomes
import AiRetrieval.Proofs.EffectRecovery
import AiRetrieval.Library.Grouping
import AiRetrieval.Sanity.JobListings
import AiRetrieval.Proofs.TerminalReports
import AiRetrieval.Spec.CoordinatorMachine
import AiRetrieval.Sanity.CoordinatorOutcomes
import AiRetrieval.Sanity.WakeUps
import AiRetrieval.Proofs.LostWakeUps
import AiRetrieval.Spec.PipelineMachine
import AiRetrieval.Sanity.WriteBackMoves
import AiRetrieval.Sanity.PipelineMoves
import AiRetrieval.Spec.BudgetRecords
import AiRetrieval.Spec.Budget
import AiRetrieval.Sanity.BudgetOutcomes
import AiRetrieval.Sanity.BudgetInvariant
import AiRetrieval.Proofs.BudgetLedger
import AiRetrieval.Library.BinaryFloats
import AiRetrieval.Library.SlidingWindows
import AiRetrieval.Spec.RoutingRecords
import AiRetrieval.Spec.Capacity
import AiRetrieval.Sanity.Timestamps
import AiRetrieval.Sanity.CapacityOutcomes
import AiRetrieval.Proofs.CapacityLimits
import AiRetrieval.Spec.Router
import AiRetrieval.Sanity.PlanOutcomes
import AiRetrieval.Proofs.CapacityRefusals
import AiRetrieval.Library.Scripts
import AiRetrieval.Spec.ModelCalls
import AiRetrieval.Sanity.ModelCallSteps
import AiRetrieval.Proofs.ModelCallSettlement
import AiRetrieval.Spec.InteractiveRecords
import AiRetrieval.Spec.InteractiveCoordinator
import AiRetrieval.Sanity.Aggregation
import AiRetrieval.Sanity.CoordinatedRuns
import AiRetrieval.Proofs.ExactResponses
import AiRetrieval.Spec.OutputValidation
import AiRetrieval.Sanity.ValidatedOutputs
import AiRetrieval.Proofs.EscapingOutput
import AiRetrieval.Proofs.AcceptedOutput
import AiRetrieval.Spec.Authorization
import AiRetrieval.Sanity.ApprovalGate
import AiRetrieval.Sanity.WithheldResults
import AiRetrieval.Proofs.ApprovalGate
import AiRetrieval.Spec.SecurityRecords
import AiRetrieval.Spec.Concealment
import AiRetrieval.Sanity.ConcealedValues
import AiRetrieval.Spec.SecurityGateway
import AiRetrieval.Sanity.SensitiveEntries
import AiRetrieval.Proofs.Masking
import AiRetrieval.Proofs.Redaction
import AiRetrieval.Library.JsonEncoding
import AiRetrieval.Spec.CanonicalValues
import AiRetrieval.Spec.ConfigurationRegistry
import AiRetrieval.Sanity.ConfigurationVersions
import AiRetrieval.Proofs.BoundConfigurations
import AiRetrieval.Sanity.CanonicalReadings
import AiRetrieval.Proofs.ConfigurationDigests
import AiRetrieval.Library.GreedyPacking
import AiRetrieval.Spec.TaskRuntime
import AiRetrieval.Spec.TaskPacker
import AiRetrieval.Sanity.PackedRows
import AiRetrieval.Proofs.PackedTasks
import AiRetrieval.Sanity.RoutingOutcomes
import AiRetrieval.Proofs.EconomicalSelection
import AiRetrieval.Library.RoundRobin
import AiRetrieval.Spec.Scheduling
import AiRetrieval.Sanity.QueuedOperations
import AiRetrieval.Proofs.TenantTurns
import AiRetrieval.Library.Comparators
import AiRetrieval.Library.DecimalContexts
import AiRetrieval.Spec.RelationalRecords
import AiRetrieval.Spec.Normalization
import AiRetrieval.Sanity.NormalizedRows
import AiRetrieval.Proofs.OrderedResults
import AiRetrieval.Proofs.NormalizedDecimals
import AiRetrieval.Proofs.ExactRules
import AiRetrieval.Sanity.PackVerdicts
import AiRetrieval.Proofs.RecordedEvidence
import AiRetrieval.Proofs.QueueConservation
import AiRetrieval.Proofs.ReportPartition
import AiRetrieval.Proofs.DeadLetters
import AiRetrieval.Sanity.StageRuns
import AiRetrieval.Proofs.RetryTelemetry
import AiRetrieval.Sanity.ProfileFaults
import AiRetrieval.Proofs.ConfigurationReports
import AiRetrieval.Sanity.JsonData
import AiRetrieval.Proofs.CanonicalPayloads
import AiRetrieval.Proofs.MutationDigests
import AiRetrieval.Spec.BulkDispatch
import AiRetrieval.Sanity.DispatchedItems
import AiRetrieval.Proofs.BulkDispatches
import AiRetrieval.Sanity.RecordedSuccessors
import AiRetrieval.Proofs.ResumedStages
import AiRetrieval.Library.SortedKeys
import AiRetrieval.Proofs.CombinedVerdicts
import AiRetrieval.Proofs.WorkerRuns
import AiRetrieval.Proofs.OutboxDelivery
import AiRetrieval.Spec.Retry
import AiRetrieval.Proofs.RetryRuns
import AiRetrieval.Spec.Failures
import AiRetrieval.Spec.DataAccess
import AiRetrieval.Sanity.SubmittedReads
import AiRetrieval.Proofs.RetrievalReads
import AiRetrieval.Spec.TaskRegistry
import AiRetrieval.Sanity.RegisteredDefinitions
import AiRetrieval.Proofs.TaskDefinitions
import AiRetrieval.Library.CallLogs
import AiRetrieval.Spec.Admission
import AiRetrieval.Proofs.AdmissionRouting
import AiRetrieval.Proofs.TaskResolution
