import RustMcpCore.Engine.Resources
import RustMcpCore.Engine.ResponseLimits
import RustMcpCore.Engine.Pagination
import RustMcpCore.Http.Client
import RustMcpCore.Plugins.Registry
import RustMcpCore.Tasks.Store

/-! # The engine and what it is surrounded by

Other crates are functions; the plugins, the upstreams and the token manager act on a
state that stands for everything outside of the engine.
-/
namespace RustMcpCore.Dispatch
open Library Outbound

/-- What the engine takes from other crates. -/
structure Crates where
  json : SerdeJson
  fromSlice : FromSlice
  results : ResultSerde
  models : RmcpModels
  schemas : JsonSchema
  base64 : Base64
  parsers : Parsers
  completions : CompletionRules

structure RequestContext where
  ct : CancellationToken
  peer : Peer
  /-- `peer_key` of it. -/
  peerKey : String

/-- A cancellation that is not there is a token of the call's own. -/
structure PluginContext where
  request : Option RequestContext
  cancellation : Option CancellationToken
  upstreams : HashMap String UpstreamConfig
  outboundHttp : Option OutboundHttpConfig

structure PluginCallParams where
  config : Value
  ctx : PluginContext

/-- How a call comes back; the message of a panic, if its payload is a text. -/
inductive Unwound (T : Type)
  | returned (value : T)
  | panicked (message : Option String)

abbrev ToolOutcome := Unwound (Except McpError CallToolResult)

structure EngineOutside (W : Type) extends Outside W where
  /-- `OutboundTokenManager::access_token`. -/
  accessToken : String → UpstreamOauth2AuthConfig → Bool → W → Except McpError String × W
  callTool : Plugin → Value → PluginCallParams → W → ToolOutcome × W
  callToolUnlessCancelled : Plugin → Value → PluginCallParams → W → Option ToolOutcome × W
  listPrompts : Plugin → PluginCallParams → W → Except McpError (List PromptEntry) × W
  getPrompt : Plugin → String → Value → PluginCallParams → W → Except McpError GetPromptResult × W
  listResources : Plugin → PluginCallParams → W → Except McpError (List Resource) × W
  readResource : Plugin → String → PluginCallParams → W → Except McpError ReadResourceResult × W
  complete : Plugin → CompleteRequestParams → PluginCallParams → W →
    Except McpError CompletionInfo × W

structure Environment (W : Type) where
  crates : Crates
  outside : EngineOutside W

structure Engine where
  config : McpConfig
  toolMap : HashMap String ToolConfig
  plugins : PluginRegistry
  completionSources : HashMap String CompletionProviderConfig

namespace Engine
variable (engine : Engine)

def buildPluginContext (request : Option RequestContext) : PluginContext where
  request
  cancellation := request.map (·.ct)
  upstreams := engine.config.upstreams
  outboundHttp := engine.config.outboundHttp

/-- The shape of the `lookup_*_plugin` functions. -/
def lookupPlugin (pluginType : PluginType) (pluginName : String) : Except McpError Plugin :=
  match engine.plugins.getPlugin pluginType pluginName with
  | some plugin => .ok plugin
  | none =>
    let label := pluginType.asStr
    .error (.invalidRequest s!"{label} plugin not registered: {pluginName}" none)

def lookupToolPlugin := engine.lookupPlugin .tool
def lookupPromptPlugin := engine.lookupPlugin .prompt
def lookupResourcePlugin := engine.lookupPlugin .resource
def lookupCompletionPlugin := engine.lookupPlugin .completion

end Engine

end RustMcpCore.Dispatch
