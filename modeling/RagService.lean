import RagService.Properties.Administrators
import RagService.Properties.Announcements
import RagService.Properties.AttachedProfiles
import RagService.Properties.Attempts
import RagService.Properties.CacheCoherence
import RagService.Properties.CacheKeys
import RagService.Properties.ChatResponses
import RagService.Properties.ChunkSizes
import RagService.Properties.Citations
import RagService.Properties.Contexts
import RagService.Properties.DataPermissions
import RagService.Properties.DeletedBases
import RagService.Properties.Dictionaries
import RagService.Properties.DynamicSettings
import RagService.Properties.EmbeddingBatches
import RagService.Properties.EmbeddingOrder
import RagService.Properties.Evaluations
import RagService.Properties.Evidence
import RagService.Properties.FailedLogins
import RagService.Properties.Fusion
import RagService.Properties.HeadingPaths
import RagService.Properties.Hierarchies
import RagService.Properties.Identifiers
import RagService.Properties.IndexProfiles
import RagService.Properties.Installations
import RagService.Properties.Joins
import RagService.Properties.Lifespans
import RagService.Properties.LogDelivery
import RagService.Properties.LoginUsers
import RagService.Properties.Metrics
import RagService.Properties.OneOffTasks
import RagService.Properties.OnlineSessions
import RagService.Properties.OperaLogs
import RagService.Properties.Outbox
import RagService.Properties.Passwords
import RagService.Properties.PermissionCodes
import RagService.Properties.Pipeline
import RagService.Properties.PluginArchives
import RagService.Properties.PluginOrders
import RagService.Properties.PluginStarts
import RagService.Properties.RateLimits
import RagService.Properties.ReadIsolation
import RagService.Properties.ReadyDocuments
import RagService.Properties.Removals
import RagService.Properties.Reordering
import RagService.Properties.Reports
import RagService.Properties.Requirements
import RagService.Properties.RerankFallback
import RagService.Properties.ResultFiles
import RagService.Properties.Revocation
import RagService.Properties.SchedulerSync
import RagService.Properties.Schedules
import RagService.Properties.SearchQueries
import RagService.Properties.Sidebars
import RagService.Properties.SingleSession
import RagService.Properties.SnowflakeIds
import RagService.Properties.SnowflakeNodes
import RagService.Properties.SocialAccounts
import RagService.Properties.Starvation
import RagService.Properties.StoredObjects
import RagService.Properties.TreeAgreement
import RagService.Properties.UniqueNames
import RagService.Properties.Uploads
import RagService.Properties.WholeText
