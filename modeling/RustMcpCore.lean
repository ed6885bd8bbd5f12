import RustMcpCore.Auth.Inbound.Agreement
import RustMcpCore.Auth.Inbound.CachedFetch
import RustMcpCore.Auth.Inbound.Order
import RustMcpCore.Auth.Oauth.HttpBridge
import RustMcpCore.Auth.Outbound.Rotation
import RustMcpCore.Auth.Outbound.TokenConfinement
import RustMcpCore.Auth.Outbound.TokenExpiry
import RustMcpCore.Config.EnvValues
import RustMcpCore.Engine.CancelledRequests
import RustMcpCore.Engine.Capabilities
import RustMcpCore.Engine.CatalogFaults
import RustMcpCore.Engine.StructuredRuns
import RustMcpCore.Engine.DeliveredSizes
import RustMcpCore.Engine.Disclosure
import RustMcpCore.Engine.HeaderPrecedence
import RustMcpCore.Engine.PageTraversal
import RustMcpCore.Engine.PathAgreement
import RustMcpCore.Engine.PathSelection
import RustMcpCore.Engine.SchemaValidatorCache
import RustMcpCore.Engine.TaskCancellation
import RustMcpCore.Engine.TemplateFilters
import RustMcpCore.Engine.ToolMap
import RustMcpCore.Engine.UpstreamConfinement
import RustMcpCore.Engine.UriTemplates
import RustMcpCore.Http.Coverage
import RustMcpCore.Http.CreationBudget
import RustMcpCore.Http.EndpointPaths
import RustMcpCore.Http.PeerIsolation
import RustMcpCore.Http.RetryLoop
import RustMcpCore.Http.SessionLogging
import RustMcpCore.Http.SessionRecords
import RustMcpCore.Http.Unauthorized
import RustMcpCore.LogSafety
import RustMcpCore.Notifications.Delivery
import RustMcpCore.Plugins.Progress
import RustMcpCore.Plugins.RegistryConsistency
import RustMcpCore.Runtime.Announcements
import RustMcpCore.Runtime.Consistency
import RustMcpCore.Runtime.Freshness
import RustMcpCore.Runtime.Reload
import RustMcpCore.Runtime.Serving
import RustMcpCore.Tasks.Announcements
import RustMcpCore.Tasks.Isolation
import RustMcpCore.Tasks.PeerKeys
import RustMcpCore.Auth.Inbound.Discovery
import RustMcpCore.Auth.Inbound.KeySource
import RustMcpCore.Auth.Inbound.NestedFetch
import RustMcpCore.Config.Loading
import RustMcpCore.Http.Metadata
