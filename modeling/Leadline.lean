import Leadline.Library.Cursor
import Leadline.Library.FirstHit
import Leadline.Library.GuardedRun
import Leadline.Library.GetThenInsert
import Leadline.Library.Json
import Leadline.Library.JsonTexts
import Leadline.Library.KeepFirst
import Leadline.Library.Table
import Leadline.Library.WorkQueue
import Leadline.Rows
import Leadline.Publisher
import Leadline.WorkerLoop
import Leadline.WorkerLosses
import Leadline.WorkerBatches
import Leadline.DeadLetterReplay
import Leadline.UsageTracking
import Leadline.Delivery
import Leadline.SequencePipeline
import Leadline.SequenceService
import Leadline.SequenceExecution
import Leadline.SequenceEdits
import Leadline.PlanLimits
import Leadline.LeadService
import Leadline.LeadUniqueness
import Leadline.LeadRaces
import Leadline.LeadLifecycle
import Leadline.SequenceWorkers
import Leadline.SequenceSends
import Leadline.SequenceJobs
import Leadline.SequenceProgress
import Leadline.Webhooks
import Leadline.WebhookRetries
import Leadline.Integrations
import Leadline.StoreRaces
import Leadline.UsageRaces
import Leadline.Transactions
import Leadline.Conversations
import Leadline.PlanLimitRaces
import Leadline.SequenceTriggers
import Leadline.TriggerReplays
import Leadline.Library.Python
import Leadline.Routing
import Leadline.LeadRequests
import Leadline.SequenceRequests
import Leadline.MessageAnalysis
import Leadline.MessageEvents
import Leadline.IntegrationEvents
import Leadline.Api
import Leadline.RequestEffects
import Leadline.System
import Leadline.JobCascade
import Leadline.CascadeTermination
import Leadline.CascadeCompletion
import Leadline.ReadableRows
import Leadline.Library.Ownership
import Leadline.TenantWrites
import Leadline.TenantReferences
import Leadline.TenantViews
import Leadline.TenantIsolation
import Leadline.UsageTotals
import Leadline.AiUsage
import Leadline.AiBilling
import Leadline.RoutingReplays
import Leadline.MessageAnnotations
import Leadline.LeadScores
import Leadline.DeletedRows
import Leadline.StepDelays
import Leadline.DeliveryUsage
import Leadline.DeadLetterRequests
import Leadline.CreationAccounting
import Leadline.Provisioning
import Leadline.Authentication
import Leadline.SettingsRaces
import Leadline.RoutingRules
import Leadline.Library.FixedWindow
import Leadline.RateLimiter
import Leadline.ContactData
import Leadline.AnalysisBounds
import Leadline.Library.Pattern
import Leadline.Masking
import Leadline.RequestLogs
import Leadline.LeadSignals
import Leadline.CompanySizes
import Leadline.HubspotDeliveries
import Leadline.UsageReports
import Leadline.Redaction
import Leadline.MaskedAddresses
import Leadline.MaskedPhones
import Leadline.Encryption
import Leadline.CalendarAvailability
import Leadline.RolloutTool
import Leadline.RolloutRows
import Leadline.RolloutReruns
import Leadline.PublishedJobs
import Leadline.Gateway
import Leadline.GatewayAccess
import Leadline.GatewayRoles
import Leadline.GatewayQuota
import Leadline.GatewayAudit
import Leadline.ResultCache
import Leadline.Library.Lineage
import Leadline.DeadLetterCycle
import Leadline.Library.Histories
import Leadline.RowHistories
import Leadline.ForeignKeys
import Leadline.WorkerQueues
import Leadline.ClientRetries
import Leadline.Library.PathFormats
import Leadline.Routes
