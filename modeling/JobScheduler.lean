import JobScheduler.Cluster
import JobScheduler.Repository
import JobScheduler.Library.TransitionSystem
import JobScheduler.Service
import JobScheduler.Worker
import JobScheduler.Effects
import JobScheduler.History
import JobScheduler.Changes
import JobScheduler.Ownership
import JobScheduler.Refinement
import JobScheduler.Lifecycle
import JobScheduler.Budget
import JobScheduler.Coherence
import JobScheduler.Fencing
import JobScheduler.Attempts
import JobScheduler.Ledger
import JobScheduler.Execution
import JobScheduler.DeadLetters
import JobScheduler.Idempotency
import JobScheduler.Deployment
import JobScheduler.Requeue
import JobScheduler.Labels
import JobScheduler.Narrative
import JobScheduler.Queries
import JobScheduler.Timeline
import JobScheduler.Claiming
import JobScheduler.Delivery
import JobScheduler.Overlap
import JobScheduler.PublicationOrder
import JobScheduler.Shutdown
import JobScheduler.Leases
import JobScheduler.Library.RowLocks
import JobScheduler.RowLocks
import JobScheduler.Footprints
import JobScheduler.Tenancy
import JobScheduler.Backoff
import JobScheduler.Library.TokenBucket
import JobScheduler.RateLimit
import JobScheduler.Pagination
import JobScheduler.ApiClients
import JobScheduler.Library.Json
import JobScheduler.Library.Fallible
import JobScheduler.Webhook
import JobScheduler.WebhookTargets
import JobScheduler.WebhookOutcomes
import JobScheduler.CreateBody
import JobScheduler.Publishing
import JobScheduler.WebhookExchange
import JobScheduler.Library.Float64
import JobScheduler.Renewal
import JobScheduler.WorkerRegistry
import JobScheduler.FailurePaths
import JobScheduler.Library.JsonText
import JobScheduler.Library.Calendar
import JobScheduler.RequestHash
import JobScheduler.Exclusion
import JobScheduler.Exhaustion
import JobScheduler.Reconciliation
import JobScheduler.Validity
import JobScheduler.HttpApi
import JobScheduler.Authorization
import JobScheduler.Dashboard
import JobScheduler.Provenance
import JobScheduler.Timing
import JobScheduler.Failover
import JobScheduler.Duplicates
