import RustMcpCore.Config.Auth
import RustMcpCore.Config.Upstream
import RustMcpCore.Json

/-! # The configuration

The sections that start-up, reload and the engine look at. A section is active when
it is present and not switched off.
-/
namespace RustMcpCore
open Library

/-! ## Transport -/

inductive TransportMode
  | streamableHttp
  | stdio
  deriving DecidableEq

inductive StreamableHttpSessionMode
  | none
  | optional
  | required
  deriving DecidableEq

inductive StreamableHttpRateLimitKeySource
  | peerAddr
  | xForwardedFor
  deriving DecidableEq

structure StreamableHttpRateBucketConfig where
  capacity : UInt64
  refillPerSec : UInt64

structure StreamableHttpPerIpRateBucketConfig where
  capacity : UInt64
  refillPerSec : UInt64
  keySource : StreamableHttpRateLimitKeySource

structure StreamableHttpRateLimitConfig where
  enabled : Option Bool
  global : Option StreamableHttpRateBucketConfig
  perIp : Option StreamableHttpPerIpRateBucketConfig

def StreamableHttpRateLimitConfig.isActive (config : StreamableHttpRateLimitConfig) : Bool :=
  config.enabled ≠ some false

def StreamableHttpRateLimitConfig.hasAnyBucket (config : StreamableHttpRateLimitConfig) : Bool :=
  config.global.isSome || config.perIp.isSome

structure StreamableHttpSessionHardeningConfig where
  maxSessions : Option UInt64
  idleTtlSecs : Option UInt64
  maxLifetimeSecs : Option UInt64
  creationRate : Option StreamableHttpRateLimitConfig

structure StreamableHttpHardeningConfig where
  maxRequestBytes : UInt64
  catchPanics : Bool
  sanitizeSensitiveHeaders : Bool
  session : Option StreamableHttpSessionHardeningConfig
  rateLimit : Option StreamableHttpRateLimitConfig

def StreamableHttpHardeningConfig.default : StreamableHttpHardeningConfig where
  maxRequestBytes := 1048576
  catchPanics := true
  sanitizeSensitiveHeaders := true
  session := none
  rateLimit := none

inductive ProtocolVersionNegotiationMode
  | strict
  | negotiate
  deriving DecidableEq

structure StreamableHttpTransportConfig where
  enableGetStream : Bool
  enableSseResumption : Bool
  sessionMode : StreamableHttpSessionMode
  allowDeleteSession : Bool
  protocolVersionNegotiation : ProtocolVersionNegotiationMode
  hardening : Option StreamableHttpHardeningConfig

def StreamableHttpTransportConfig.effectiveHardening (config : StreamableHttpTransportConfig) :
    StreamableHttpHardeningConfig :=
  config.hardening.getD .default

structure TransportConfig where
  mode : TransportMode
  streamableHttp : StreamableHttpTransportConfig

def TransportConfig.default : TransportConfig where
  mode := .streamableHttp
  streamableHttp :=
    { enableGetStream := true
      enableSseResumption := false
      sessionMode := .optional
      allowDeleteSession := false
      protocolVersionNegotiation := .strict
      hardening := none }

/-! ## Server -/

structure ServerLoggingConfig where
  level : String

structure ErrorExposureConfig where
  exposeInternalDetails : Bool := false

structure ResponseLimitsConfig where
  textBytes : Option UInt64
  structuredBytes : Option UInt64
  binaryBytes : Option UInt64
  otherBytes : Option UInt64
  totalBytes : Option UInt64

structure ServerSection where
  host : String
  port : UInt16
  endpointPath : String
  transport : TransportConfig
  auth : Option AuthConfig
  errors : ErrorExposureConfig := {}
  logging : ServerLoggingConfig
  responseLimits : Option ResponseLimitsConfig := none

def ServerSection.authActive (server : ServerSection) : Bool := server.auth.any AuthConfig.isActive

def ServerSection.default : ServerSection where
  host := "127.0.0.1"
  port := 3000
  endpointPath := "/mcp"
  transport := .default
  auth := none
  logging := { level := "info" }

/-! ## Tools, prompts, resources -/

structure IconConfig where
  src : String
  mimeType : Option String
  sizes : Option (List String)

structure PaginationConfig where
  pageSize : UInt64

inductive TaskSupport
  | forbidden
  | optional
  | required
  deriving DecidableEq

inductive ExecuteType
  | http
  | plugin
  deriving DecidableEq

structure ExecuteHttpConfig where
  upstream : String
  method : String
  path : String
  query : Option Value
  headers : Option Value
  body : Option Value
  retry : Option OutboundRetryConfig
  taskSupport : TaskSupport

structure ExecutePluginConfig where
  plugin : String
  config : Option Value
  taskSupport : TaskSupport

inductive ExecuteConfig
  | http (config : ExecuteHttpConfig)
  | plugin (config : ExecutePluginConfig)

namespace ExecuteConfig

def executeType : ExecuteConfig → ExecuteType
  | .http _ => .http
  | .plugin _ => .plugin

def taskSupport : ExecuteConfig → TaskSupport
  | .http config => config.taskSupport
  | .plugin config => config.taskSupport

def asHttp : ExecuteConfig → Option ExecuteHttpConfig
  | .http config => some config
  | .plugin _ => none

def asPlugin : ExecuteConfig → Option ExecutePluginConfig
  | .plugin config => some config
  | .http _ => none

end ExecuteConfig

inductive ContentFallback
  | text
  | jsonText

structure ResponseStructuredConfig where
  template : Option Value
  fallback : Option ContentFallback

structure ResponseContentConfig where
  items : List Value

inductive ResponseConfig
  | structured (config : ResponseStructuredConfig)
  | content (config : ResponseContentConfig)

structure ToolConfig where
  name : String
  title : Option String := none
  description : String
  cancellable : Bool
  inputSchema : Value
  outputSchema : Option Value
  annotations : Option Value := none
  icons : Option (List IconConfig) := none
  /-- `_meta`. -/
  metaValue : Option Value := none
  execute : ExecuteConfig
  response : Option ResponseConfig

structure ToolsConfig where
  enabled : Option Bool
  notifyListChanged : Bool
  items : List ToolConfig

def ToolsConfig.isActive (tools : ToolsConfig) : Bool := tools.enabled ≠ some false

inductive PromptMessageRoleConfig
  | user
  | assistant

structure PromptTemplateMessageConfig where
  role : PromptMessageRoleConfig
  content : Value

structure PromptItemConfig where
  name : String
  title : Option String
  description : Option String
  icons : Option (List IconConfig)
  argumentsSchema : Value
  /-- `template.messages`. -/
  messages : List PromptTemplateMessageConfig
  completions : Option (HashMap String String)

inductive PromptProviderConfig
  | inline (items : List PromptItemConfig)
  | plugin (plugin : String) (config : Option Value)

structure PromptsConfig where
  enabled : Option Bool
  notifyListChanged : Bool
  pagination : Option PaginationConfig := none
  providers : List PromptProviderConfig := []

def PromptsConfig.isActive (prompts : PromptsConfig) : Bool := prompts.enabled ≠ some false

inductive ResourceAudienceConfig
  | user
  | assistant

structure ResourceAnnotationsConfig where
  audience : Option (List ResourceAudienceConfig)
  /-- The bits of an `f32`. -/
  priority : Option UInt32
  lastModified : Option String

structure ResourceContentConfig where
  text : Option String
  blob : Option String

structure ResourceItemConfig where
  uri : String
  name : String
  title : Option String
  description : Option String
  mimeType : Option String
  size : Option UInt32
  icons : Option (List IconConfig)
  annotations : Option ResourceAnnotationsConfig
  content : Option ResourceContentConfig

structure ResourceTemplateConfig where
  uriTemplate : String
  name : String
  title : Option String
  description : Option String
  mimeType : Option String
  icons : Option (List IconConfig)
  annotations : Option ResourceAnnotationsConfig
  argumentsSchema : Value
  completions : Option (HashMap String String)

inductive ResourceProviderConfig
  | inline (items : Option (List ResourceItemConfig))
      (templates : Option (List ResourceTemplateConfig))
  | plugin (plugin : String) (config : Option Value)
      (templates : Option (List ResourceTemplateConfig))

structure ResourcesConfig where
  enabled : Option Bool
  notifyListChanged : Bool
  pagination : Option PaginationConfig := none
  providers : List ResourceProviderConfig := []

def ResourcesConfig.isActive (resources : ResourcesConfig) : Bool :=
  resources.enabled ≠ some false

/-! ## Utilities and client features -/

inductive CompletionProviderConfig
  | inline (name : String) (values : List String)
  | plugin (name plugin : String) (config : Option Value)

structure CompletionConfig where
  enabled : Option Bool
  providers : List CompletionProviderConfig

def CompletionConfig.isActive (completion : CompletionConfig) : Bool :=
  completion.enabled ≠ some false

structure TaskCapabilities where
  list : Bool
  cancel : Bool

structure TasksConfig where
  enabled : Option Bool
  capabilities : TaskCapabilities
  statusNotifications : Bool

/-- A section that only says whether it is enabled. -/
def TasksConfig.switch (enabled : Option Bool) : TasksConfig where
  enabled := enabled
  capabilities := ⟨true, true⟩
  statusNotifications := false

def TasksConfig.isActive (tasks : TasksConfig) : Bool := tasks.enabled ≠ some false

structure ClientRootsConfig where
  enabled : Bool

structure ClientSamplingConfig where
  enabled : Option Bool

structure ClientElicitationConfig where
  enabled : Option Bool

structure ClientFeaturesConfig where
  roots : Option ClientRootsConfig
  sampling : Option ClientSamplingConfig
  elicitation : Option ClientElicitationConfig

/-! ## Plugins -/

inductive PluginType
  | tool
  | auth
  | httpRouter
  | completion
  | prompt
  | resource
  deriving DecidableEq

inductive HttpRouterTargetType
  | wrap
  | route
  deriving DecidableEq

structure PluginTargetConfig where
  targetType : HttpRouterTargetType
  path : String

structure PluginConfig where
  name : String
  pluginType : PluginType
  targets : Option (List PluginTargetConfig)
  config : Option Value

/-! ## The whole -/

structure McpConfig where
  server : ServerSection
  /-- `client_logging` is present. -/
  clientLogging : Bool
  /-- `progress` is present. -/
  progress : Bool
  prompts : Option PromptsConfig
  resources : Option ResourcesConfig
  tasks : Option TasksConfig
  clientFeatures : ClientFeaturesConfig
  outboundHttp : Option OutboundHttpConfig
  upstreams : HashMap String UpstreamConfig
  completion : Option CompletionConfig
  pagination : Option PaginationConfig
  tools : Option ToolsConfig
  plugins : List PluginConfig

namespace McpConfig
variable (config : McpConfig)

def tasksActive : Bool := config.tasks.any TasksConfig.isActive

def tasksStatusNotificationsActive : Bool :=
  config.tasks.any fun tasks => tasks.isActive && tasks.statusNotifications

def tasksListActive : Bool :=
  config.tasks.any fun tasks => tasks.isActive && tasks.capabilities.list

def tasksCancelActive : Bool :=
  config.tasks.any fun tasks => tasks.isActive && tasks.capabilities.cancel

def clientRootsActive : Bool := config.clientFeatures.roots.any (·.enabled)

def clientSamplingActive : Bool :=
  config.clientFeatures.sampling.any fun sampling => sampling.enabled ≠ some false

def clientElicitationActive : Bool :=
  config.clientFeatures.elicitation.any fun elicitation => elicitation.enabled ≠ some false

def toolsNotifyListChanged : Bool :=
  config.tools.any fun tools => tools.isActive && tools.notifyListChanged

def toolsItems : List ToolConfig :=
  ((config.tools.filter ToolsConfig.isActive).map (·.items)).getD []

def promptsActive : Bool := config.prompts.any PromptsConfig.isActive

def resourcesActive : Bool := config.resources.any ResourcesConfig.isActive

def completionActive : Bool := config.completion.any CompletionConfig.isActive

def exposeInternalErrorDetails : Bool := config.server.errors.exposeInternalDetails

def responseLimits : Option ResponseLimitsConfig := config.server.responseLimits

/-- What a file that only gives its version loads as. -/
def empty : McpConfig where
  server := .default
  clientLogging := false
  progress := false
  prompts := none
  resources := none
  tasks := none
  clientFeatures := ⟨none, none, none⟩
  outboundHttp := none
  upstreams := ∅
  completion := none
  pagination := none
  tools := none
  plugins := []

/-- The same with prompts whose changes are announced. -/
def withPrompts : McpConfig :=
  { empty with prompts := some { enabled := none, notifyListChanged := true } }

/-- The same with authentication by the given providers. -/
def withProviders (providers : List AuthProviderConfig) : McpConfig :=
  { empty with server := { ServerSection.default with
      auth := some
        { enabled := none
          providers
          oauth := some ⟨none, "http://127.0.0.1:3000/mcp", none, true⟩ } } }

end McpConfig
end RustMcpCore
