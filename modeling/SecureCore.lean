import SecureCore.Net.ClientAddress
import SecureCore.Net.WellFormedHeaders
import SecureCore.System.Passwords
import SecureCore.System.Isolation
import SecureCore.System.Administration
import SecureCore.System.PasswordChanges
import SecureCore.System.FailedCalls
import SecureCore.System.RefreshOutcomes
import SecureCore.System.LegacyRoles
import SecureCore.System.LoginThrottling
import SecureCore.Json.Compact
import SecureCore.Utf8.Bytes
import SecureCore.Http.Persistence
import SecureCore.System.AuditLog
import SecureCore.Runtime.GracefulShutdown
import SecureCore.Transition.Run
import SecureCore.Runtime.PoolShutdown
import SecureCore.Database.PoolPartition
import SecureCore.Http.Conversation
import SecureCore.Http.FinalErrors
import SecureCore.Relational.Autocommit
import SecureCore.Database.Transactions
import SecureCore.Database.TransactionBooks
import SecureCore.Database.TransactionOutcomes
import SecureCore.Relational.MigrationCompletion
import SecureCore.System.MigratedData
import SecureCore.Http.Router
import SecureCore.Precedence.Table
import SecureCore.Http.RouteTable
import SecureCore.Http.Dispatch
import SecureCore.Coding.Pieces
import SecureCore.Http.PercentCoding
import SecureCore.Http.Targets
import SecureCore.Http.PathParameters
import SecureCore.Http.QueryParameters
import SecureCore.Http.QueryReaders
import SecureCore.Words.Prefix
import SecureCore.Net.Prefixes
import SecureCore.Quoted.Text
import SecureCore.Net.QuotedText
import SecureCore.Net.ForwardedClients
import SecureCore.Net.ForwardedHeader
import SecureCore.Windows.Counter
import SecureCore.Http.RateLimiter
import SecureCore.Http.RateLimiterRuns
import SecureCore.Http.RateLimits
import SecureCore.Security.FailureCounts
import SecureCore.Security.Pruning
import SecureCore.Units.Rounding
import SecureCore.Security.RetryAfter
import SecureCore.Layered.Assignments
import SecureCore.Config.Settings
import SecureCore.Words.Checked
import SecureCore.Security.LockoutDuration
import SecureCore.Bounded.Contents
import SecureCore.Http.BucketCapacity
import SecureCore.Security.TrackingCapacity
import SecureCore.Relational.Select
import SecureCore.Repository.AuditStatements
import SecureCore.Http.Registration
import SecureCore.Relational.Names
import SecureCore.System.LoginNames
import SecureCore.Ordered.Search
import SecureCore.Http.CorsPolicy
import SecureCore.Http.CorsGate
import SecureCore.Config.ServerConfig
import SecureCore.Config.Validity
import SecureCore.Config.Precedence
import SecureCore.Config.Rearrangement
import SecureCore.Config.Components
import SecureCore.Interleaving.Reliance
import SecureCore.System.BuiltInRoles
import SecureCore.Http.RbacRoutes
import SecureCore.System.RoleRevocation
import SecureCore.Interleaving.Growth
import SecureCore.Relational.Constraints
import SecureCore.System.UserGrowth
import SecureCore.System.SchemaConstraints
import SecureCore.System.RoleOrigins
import SecureCore.System.TableWrites
import SecureCore.Paging.Walk
import SecureCore.System.Readers
import SecureCore.System.UserListing
import SecureCore.System.RoleListings
import SecureCore.System.SessionOrigins
import SecureCore.Interleaving.Twins
import SecureCore.System.LoginSecrecy
import SecureCore.System.AuditWalk
import SecureCore.Interleaving.CompareExchange
import SecureCore.Runtime.MetricsThreads
import SecureCore.Runtime.ServiceState
import SecureCore.Interleaving.Projection
import SecureCore.Http.Handling
import SecureCore.Http.Handlers
import SecureCore.Http.RouteLookup
import SecureCore.Http.Endpoints
import SecureCore.System.CallOutcomes
import SecureCore.System.AuditedCalls
import SecureCore.System.Conduct
import SecureCore.System.Requests
