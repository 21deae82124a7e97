import MissionControl.Library.Machine
import MissionControl.Library.Table
import MissionControl.Library.Pattern
import MissionControl.Library.RegExp
import MissionControl.Library.Lines
import MissionControl.Library.Utf8
import MissionControl.Library.Chain
import MissionControl.Library.Posix
import MissionControl.Library.FileSystem
import MissionControl.Library.FixedWindow
import MissionControl.Library.Records
import MissionControl.Library.Transaction
import MissionControl.Library.SharedCell
import MissionControl.Library.Like
import MissionControl.Library.Ranking
import MissionControl.Library.Search
import MissionControl.Library.Latest
import MissionControl.Library.Fallible
import MissionControl.Js
import MissionControl.Environment
import MissionControl.Daemon
import MissionControl.Grammar
import MissionControl.TenantPaths
import MissionControl.Allowlist
import MissionControl.Confinement
import MissionControl.Plan
import MissionControl.Transport
import MissionControl.Database
import MissionControl.Requests
import MissionControl.Executor
import MissionControl.ControlPlane
import MissionControl.Lifecycle
import MissionControl.Completion
import MissionControl.TenantStatus
import MissionControl.DryRuns
import MissionControl.TenantRows
import MissionControl.Agreement
import MissionControl.Separation
import MissionControl.PlannedJobs
import MissionControl.Accounts
import MissionControl.Integrity
import MissionControl.Artifacts
import MissionControl.JsonText
import MissionControl.ProvisionerClient
import MissionControl.LineFraming
import MissionControl.Pipelines
import MissionControl.PipelineRuns
import MissionControl.PipelineFinality
import MissionControl.PipelineSpawns
import MissionControl.PipelineInvariant
import MissionControl.Zod
import MissionControl.Validation
import MissionControl.Sql
import MissionControl.Tasks
import MissionControl.TaskUpdate
import MissionControl.BulkUpdate
import MissionControl.GithubSync
import MissionControl.QualityGate
import MissionControl.Webhooks
import MissionControl.WebhookEngine
import MissionControl.WebhookApi
import MissionControl.WebhookHistory
import MissionControl.RetryChains
import MissionControl.ScheduledRetries
import MissionControl.RetryFidelity
import MissionControl.CircuitBreaker
import MissionControl.HeldWebhooks
import MissionControl.Users
import MissionControl.AuthApi
import MissionControl.AuthWrites
import MissionControl.SessionRevocation
import MissionControl.Administrators
import MissionControl.GoogleBinding
import MissionControl.Memory
import MissionControl.MemoryConfinement
import MissionControl.RateLimit
import MissionControl.Scheduler
import MissionControl.Notifications
import MissionControl.ChatStore
import MissionControl.Gateways
import MissionControl.Migrations
import MissionControl.TokenUsage
import MissionControl.OpenclawConfig
import MissionControl.GatewayConfig
import MissionControl.ConfigWrites
import MissionControl.Agents
import MissionControl.AgentApi
import MissionControl.Settings
import MissionControl.Backups
import MissionControl.Retention
import MissionControl.Alerts
import MissionControl.PasswordPolicy
import MissionControl.Connections
import MissionControl.AgentLiveness
import MissionControl.ClientStore
import MissionControl.Replica
import MissionControl.GithubImport
import MissionControl.WebSocketHook
import MissionControl.GatewaySockets
import MissionControl.ServerEvents
import MissionControl.TimeBudget
import MissionControl.Resumption
import MissionControl.ClientIp
import MissionControl.Reviews
import MissionControl.ReviewBoard
import MissionControl.Comments
import MissionControl.CommentThreads
import MissionControl.CommentNotifications
import MissionControl.Mentions
import MissionControl.Heartbeat
import MissionControl.HeartbeatMentions
import MissionControl.DeliveryProgress
import MissionControl.MarkDelivered
import MissionControl.ListQueries
import MissionControl.ChatHistory
import MissionControl.Library.Upserts
import MissionControl.AgentsTable
import MissionControl.ConfigSync
import MissionControl.SyncPreview
import MissionControl.AgentNames
import MissionControl.GatewayEntries
import MissionControl.JsonAgreement
import MissionControl.WriteBack
import MissionControl.AgentRoutes
import MissionControl.EnvFile
import MissionControl.EnvReadBack
import MissionControl.ProtectedVars
import MissionControl.EnvEdits
import MissionControl.NestedPaths
import MissionControl.GatewayUpdates
import MissionControl.Redaction
import MissionControl.Library.Trim
import MissionControl.Library.Assignments
import MissionControl.Library.Csv
import MissionControl.Library.Groups
import MissionControl.Library.Query
import MissionControl.Dates
import MissionControl.Export
import MissionControl.ExportFilter
import MissionControl.TokenStats
import MissionControl.TokenCsv
import MissionControl.Library.Recency
import MissionControl.UnreadCounter
import MissionControl.LogBuffer
import MissionControl.Library.Resolve
import MissionControl.PathContainment
import MissionControl.OriginCheck
import MissionControl.Library.Percent
import MissionControl.AuthRequests
import MissionControl.AlertNotifications
import MissionControl.Transcripts
import MissionControl.Library.Accumulators
import MissionControl.TranscriptTallies
import MissionControl.TranscriptNoise
import MissionControl.TranscriptAppends
import MissionControl.ClaudeSessions
import MissionControl.SessionOrder
import MissionControl.MergeLaws
import MissionControl.UsernameSearch
import MissionControl.CleanupPreview
import MissionControl.CronJobs
import MissionControl.LogLines
import MissionControl.LogQueries
import MissionControl.Library.Composition
import MissionControl.Library.EventSource
import MissionControl.EventStreams
import MissionControl.SmartPoll
import MissionControl.ChatServer
import MissionControl.ChatDelivery
import MissionControl.CoordinatorReplies
import MissionControl.ChatViewer
import MissionControl.CronWrites
import MissionControl.CommandRuns
import MissionControl.TaskBoard
