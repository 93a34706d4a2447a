import JobScheduler.System
import JobScheduler.ExecutePhase
import JobScheduler.Effects
import JobScheduler.Exclusion
import JobScheduler.HandlerBudget
import JobScheduler.MutualExclusion
import JobScheduler.Fencing
import JobScheduler.RetryOutcome
import JobScheduler.Custody
import JobScheduler.Reachability
import JobScheduler.Reporting
import JobScheduler.DeadLettering
import JobScheduler.OutboxDelivery
import JobScheduler.Availability
import JobScheduler.DocumentHistory
import JobScheduler.Lifecycle
import JobScheduler.Cancellation
import JobScheduler.OptimisticLock
import JobScheduler.RetryBudget
import JobScheduler.OutboxStatus
import JobScheduler.ExclusiveDelivery
import JobScheduler.LeaderElection
import JobScheduler.ElectionStop
import JobScheduler.ActiveScheduler
import JobScheduler.Lineage
import JobScheduler.PollPhase
import JobScheduler.DueTime
import JobScheduler.ClockSkew
import JobScheduler.ClockIndependence
import JobScheduler.Completion
import JobScheduler.FieldCoherence
import JobScheduler.Delimited
import JobScheduler.IdempotencyKey
import JobScheduler.Submission
import JobScheduler.Resubmission
import JobScheduler.StoreCoherence
import JobScheduler.TenantSeparation
import JobScheduler.TimerLoop
import JobScheduler.PollSlots
import JobScheduler.PollStop
import JobScheduler.LoopSurvival
import JobScheduler.FailureRecords
import JobScheduler.Dequeue
import JobScheduler.PriorityPolicy
import JobScheduler.WorkerSlots
import JobScheduler.Drained
import JobScheduler.Peek
import JobScheduler.OutboxBooks
import JobScheduler.Listings
import JobScheduler.DeadLetters
import JobScheduler.WriteOnce
import JobScheduler.Provenance
import JobScheduler.Handlers
import JobScheduler.AuditTrail
import JobScheduler.Alone
import JobScheduler.BatchQueue
import JobScheduler.OutboxDrain
import JobScheduler.Backoff
import JobScheduler.BrokerConnection
import JobScheduler.BrokerPublish
import JobScheduler.Reconnection
import JobScheduler.Acknowledgement
import JobScheduler.Extension
import JobScheduler.Http
import JobScheduler.HttpFront
import JobScheduler.HttpAnswers
import JobScheduler.HttpPromises
import JobScheduler.HttpAccess
import JobScheduler.Overtaking
import JobScheduler.PollWait
import JobScheduler.Shutdown
import JobScheduler.Fleet
