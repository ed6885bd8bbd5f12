import RustMcpCore.Config.Root
import RustMcpCore.Errors
import RustMcpCore.Library.Text

/-! # Checks before the state is built

What the compiled crate refuses, the process-wide log level, and the transport.
All checks but the logging set-up only read the configuration.
-/
namespace RustMcpCore
open Library

/-! ## Compiled features -/

/-- The cargo features that the checks ask about. -/
structure Features where
  httpTools : Bool
  prompts : Bool
  resources : Bool
  clientLogging : Bool
  progressUtility : Bool
  tasksUtility : Bool
  clientFeatures : Bool
  httpHardening : Bool
  auth : Bool
  streamableHttp : Bool

def Features.full : Features := ⟨true, true, true, true, true, true, true, true, true, true⟩

/-- The shape of most checks: an active section is an invalid request. -/
def rejectActive (active : Bool) (message : String) : Option McpError :=
  if active then some (.invalidRequest message none) else none

def checkHttpTools (config : McpConfig) : Option McpError :=
  (config.toolsItems.find? fun tool => tool.execute.executeType = .http).map fun tool =>
    .invalidRequest
      s!"http_tools feature disabled but tool '{tool.name}' uses execute.type=http" none

def checkPrompts (config : McpConfig) : Option McpError :=
  rejectActive config.promptsActive "prompts feature disabled but prompts config is active"

def checkResources (config : McpConfig) : Option McpError :=
  rejectActive config.resourcesActive "resources feature disabled but resources config is active"

def checkLogging (config : McpConfig) : Option McpError :=
  rejectActive config.clientLogging
    "client_logging feature disabled but logging config is present"

def checkProgress (config : McpConfig) : Option McpError :=
  rejectActive config.progress "progress_utility feature disabled but progress config is present"

def checkTasks (config : McpConfig) : Option McpError :=
  if config.tasksActive then
    some (.invalidRequest "tasks_utility feature disabled but tasks config is active" none)
  else
    (config.toolsItems.find? fun tool => tool.execute.taskSupport ≠ .forbidden).map fun tool =>
      .invalidRequest
        s!"tasks_utility feature disabled but tool '{tool.name}' sets execute.task_support" none

def checkClientFeatures (config : McpConfig) : Option McpError :=
  rejectActive
    (config.clientRootsActive || config.clientSamplingActive || config.clientElicitationActive)
    "client_features feature disabled but client_features has enabled sections"

def checkHttpHardening (config : McpConfig) : Option McpError :=
  rejectActive config.server.transport.streamableHttp.hardening.isSome
    ("http_hardening feature disabled but server.transport.streamable_http.hardening config " ++
      "is present")

/-- The first complaint of a check whose feature is not compiled in. -/
def firstMissing (checks : List (Bool × Option McpError)) : Option McpError :=
  checks.findSome? fun check => if check.1 then none else check.2

def sharedFeatureValidationError (features : Features) (config : McpConfig) : Option McpError :=
  firstMissing
    [(features.httpTools, checkHttpTools config),
      (features.prompts, checkPrompts config),
      (features.resources, checkResources config),
      (features.clientLogging, checkLogging config),
      (features.progressUtility, checkProgress config),
      (features.tasksUtility, checkTasks config),
      (features.clientFeatures, checkClientFeatures config),
      (features.httpHardening, checkHttpHardening config)]

def McpConfig.hasHttpRouter (config : McpConfig) : Bool :=
  config.plugins.any fun plugin => plugin.pluginType = .httpRouter

def STREAMABLE_HTTP_DISABLED : String :=
  "streamable_http feature disabled but server.transport.mode=streamable_http"

def compiledFeatureValidationError (features : Features) (config : McpConfig) :
    Option McpError :=
  (sharedFeatureValidationError features config).or <| firstMissing
    [(features.auth, rejectActive config.server.authActive
        "auth feature disabled but server.auth is active"),
      (features.streamableHttp,
        rejectActive (config.server.transport.mode = .streamableHttp) STREAMABLE_HTTP_DISABLED),
      (features.streamableHttp, rejectActive config.hasHttpRouter
        "streamable_http feature disabled but plugins include type=http_router")]

/-! ## Logging -/

inductive Level
  | trace
  | debug
  | info
  | warn
  | error
  deriving DecidableEq

/-- No word of the list has a letter that only Unicode lowercasing yields, so the
ASCII one is enough. -/
def parseLogLevel (level : String) : Except McpError Level :=
  match Text.toAsciiLowercase level with
  | "trace" => .ok .trace
  | "debug" => .ok .debug
  | "info" => .ok .info
  | "warn" => .ok .warn
  | "error" => .ok .error
  | _ => .error (.invalidRequest s!"invalid log level: {level}" none)

inductive LogReloadError
  | subscriberGone
  | poisoned

def LogReloadError.message : LogReloadError → String
  | .subscriberGone => "subscriber no longer exists"
  | .poisoned => "lock poisoned"

/-- `LOG_LEVEL_RELOAD_HANDLE`, with the filter behind it. -/
structure LogHandle where
  filter : Level
  failure : Option LogReloadError

def LogHandle.modify (handle : LogHandle) (filter : Level) : Except LogReloadError LogHandle :=
  match handle.failure with
  | some error => .error error
  | none => .ok { handle with filter }

/-- The logging state of the process. A handle exists only behind a global
subscriber that this crate has set. -/
structure Logging where
  subscriber : Bool
  handle : Option LogHandle
  owned : handle.isSome = true → subscriber = true

namespace Logging

/-- Nothing is set up yet. -/
def unset : Logging := ⟨false, none, nofun⟩

/-- This crate has set the subscriber. -/
def installed (handle : LogHandle) : Logging := ⟨true, some handle, fun _ => rfl⟩

/-- The host has set a subscriber of its own. -/
def external : Logging := ⟨true, none, nofun⟩

theorem cases (logging : Logging) :
    logging = .unset ∨ (∃ handle, logging = .installed handle) ∨ logging = .external := by
  obtain ⟨subscriber, _ | handle, owned⟩ := logging
  · cases subscriber
    · exact .inl rfl
    · exact .inr (.inr rfl)
  · obtain rfl := owned rfl
    exact .inr (.inl ⟨handle, rfl⟩)

/-- Change the filter through the handle, or report why it refuses. -/
def modify (handle : LogHandle) (filter : Level) (failed : String) : Except McpError Logging :=
  match handle.modify filter with
  | .ok handle => .ok (.installed handle)
  | .error error => .error (.internalError s!"{failed}: {error.message}" none)

end Logging

/-- An error leaves the logging state as it was. -/
def initLogging (level : String) (logging : Logging) : Except McpError Logging :=
  match parseLogLevel level with
  | .error e => .error e
  | .ok filter =>
    match logging.handle with
    | some handle => Logging.modify handle filter "failed to update logging level"
    | none =>
      -- `set_global_default`, and the second look at the handle when that fails.
      if logging.subscriber then
        match logging.handle with
        | some handle => Logging.modify handle filter "failed to update logging level after init conflict"
        | none => .ok logging
      else .ok (.installed ⟨filter, none⟩)

/-- What a successful set-up leaves: the parsed level, unless the host owns the
subscriber. -/
theorem initLogging_eq_ok {level : String} {logging logging' : Logging} :
    initLogging level logging = .ok logging' ↔ ∃ filter, parseLogLevel level = .ok filter ∧
      ((logging = .unset ∧ logging' = .installed ⟨filter, none⟩) ∨
        (∃ old, logging = .installed ⟨old, none⟩ ∧ logging' = .installed ⟨filter, none⟩) ∨
        (logging = .external ∧ logging' = .external)) := by
  unfold initLogging
  cases parseLogLevel level with
  | error e => simp
  | ok filter =>
    simp only [Except.ok.injEq, exists_eq_left']
    rcases logging.cases with rfl | ⟨⟨old, failure⟩, rfl⟩ | rfl
    · simp [Logging.unset, Logging.installed, Logging.external, eq_comm]
    · cases failure <;>
        simp [Logging.unset, Logging.installed, Logging.external, Logging.modify,
          LogHandle.modify, eq_comm]
    · simp [Logging.unset, Logging.installed, Logging.external, eq_comm]

/-! ## Transport -/

def refuseIf (bad : Bool) (message : String) : Except McpError Unit :=
  if bad then .error (.invalidRequest message none) else .ok ()

def validateStdioTransport (config : McpConfig) : Except McpError Unit := do
  refuseIf config.server.authActive "stdio transport requires auth to be disabled"
  refuseIf config.hasHttpRouter "http_router plugins require streamable_http transport"

def validateStreamableHardeningRateLimits (streamable : StreamableHttpTransportConfig) :
    Except McpError Unit := do
  let unbounded (limit : Option StreamableHttpRateLimitConfig) : Bool :=
    limit.any fun rate => rate.isActive && !rate.hasAnyBucket
  refuseIf (unbounded (streamable.hardening.bind (·.rateLimit)))
    ("transport.streamable_http.hardening.rate_limit requires global or per_ip when enabled")
  refuseIf (unbounded ((streamable.hardening.bind (·.session)).bind (·.creationRate)))
    ("transport.streamable_http.hardening.session.creation_rate requires global or per_ip " ++
      "when enabled")

def validateStreamableStatelessConstraints (streamable : StreamableHttpTransportConfig) :
    Except McpError Unit := do
  refuseIf streamable.enableSseResumption
    ("transport.streamable_http.enable_sse_resumption requires " ++
      "session_mode=optional|required")
  refuseIf streamable.allowDeleteSession
    "transport.streamable_http.allow_delete_session requires session_mode=optional|required"
  refuseIf (streamable.hardening.bind (·.session)).isSome
    "transport.streamable_http.hardening.session requires session_mode=optional|required"

def validateStreamableHttpTransport (config : McpConfig) : Except McpError Unit := do
  refuseIf (Text.trim config.server.host = "") "server.host is required for streamable_http"
  refuseIf (Text.trim config.server.endpointPath = "")
    "server.endpoint_path is required for streamable_http"
  let streamable := config.server.transport.streamableHttp
  refuseIf (!streamable.enableGetStream && streamable.enableSseResumption)
    "transport.streamable_http.enable_sse_resumption requires enable_get_stream=true"
  if streamable.sessionMode = .none then
    validateStreamableStatelessConstraints streamable
  validateStreamableHardeningRateLimits streamable

def validateTransport (features : Features) (config : McpConfig) :
    Except McpError TransportMode := do
  let mode := config.server.transport.mode
  match mode with
  | .stdio => validateStdioTransport config
  | .streamableHttp =>
    if features.streamableHttp then validateStreamableHttpTransport config
    else .error (.invalidRequest STREAMABLE_HTTP_DISABLED none)
  pure mode

end RustMcpCore
