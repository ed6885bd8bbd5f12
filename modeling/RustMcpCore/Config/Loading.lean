import Mathlib.Data.Finset.Insert
import RustMcpCore.Config.EnvPlaceholders
import RustMcpCore.Engine.Construction
import RustMcpCore.Http.OutboundPipeline
import RustMcpCore.Http.RateLimit

/-! # What a file has to meet to be loaded

After the schema a file is checked for what a schema cannot say. Each check is compared with the
condition it stands for, and the conditions with what start-up and the requests rely on.
-/
namespace RustMcpCore
open Library Dispatch

inductive TopLevelCombinatorsPolicy
  | off
  | warn
  | error
  deriving DecidableEq

/-- `McpConfig` with `server.client_compat`, which only the loader reads. -/
structure ParsedConfig where
  config : McpConfig
  topLevelCombinators : TopLevelCombinatorsPolicy

namespace Loader

structure ConfigCrates where
  json : SerdeJson
  /-- `serde_yaml::from_str`. -/
  yaml : String → Except String Value

/-- The part of `load_mcp_config_from_path` that ends with the value of the file. All that comes
after it sees nothing but this value. The path is given with its extension. -/
def loadConfigValue (crates : ConfigCrates) (surroundings : Surroundings) (path : String)
    (extension : Option String) : Except McpError Value := do
  let raw ← (surroundings.readToString path).mapError fun error => .internalError error none
  let expanded ← expandEnvVars surroundings raw
  let fromStr := if Text.eqIgnoreAsciiCase (extension.getD "") "json" then crates.json.fromStr
    else crates.yaml
  (fromStr expanded).mapError fun error => .invalidRequest error none

structure LoaderCrates extends ConfigCrates where
  /-- The messages of `jsonschema` on a value, unless the schema does not compile. -/
  schemaErrors : Value → Except String (List String)
  fromValue : Value → Except String ParsedConfig

/-! ## The checks -/

def checkPluginName (seen : Finset String) (plugin : Value) : Except McpError (Finset String) :=
  match (plugin.get "name").bind Value.asStr with
  | none => .error (.invalidRequest "plugins[].name must be a string" none)
  | some name =>
    if name ∈ seen then .error (.invalidRequest s!"duplicate plugin name: {name}" none)
    else .ok (insert name seen)

def validatePluginNames (value : Value) : Except McpError Unit :=
  match (value.get "plugins").bind Value.asArray with
  | none => .ok ()
  | some plugins => (plugins.foldlM checkPluginName ∅).map fun _ => ()

def validateConfig (crates : LoaderCrates) (value : Value) : Except McpError Unit := do
  let messages ← (crates.schemaErrors value).mapError fun error => .internalError error none
  refuseIf (!messages.isEmpty)
    ("config schema validation failed: " ++ "; ".intercalate messages)
  validatePluginNames value

/-- The keywords that some clients reject at the top of a schema, as far as it has them. -/
def topLevelCombinators (schema : Map) : List String :=
  ["anyOf", "oneOf", "allOf"].filter fun key => (schema.lookup key).isSome

def checkInputSchema (policy : TopLevelCombinatorsPolicy) (tool : ToolConfig) (index : ℕ) :
    Except McpError Unit :=
  let found := (tool.inputSchema.asObject.map topLevelCombinators).getD []
  let keys := ", ".intercalate (found.map fun key => s!"`{key}`")
  let detail := s!"tools.{index}.input_schema (tool '{tool.name}') uses top-level {keys}. " ++
    "some AI clients reject top-level combinators; prefer object-only constraints " ++
    "like `required` and `minProperties`."
  refuseIf (!found.isEmpty && policy ≠ .warn)
    ("input schema client compatibility check failed: " ++ detail)

def validateInputSchemaClientCompat (parsed : ParsedConfig) : Except McpError Unit :=
  if parsed.topLevelCombinators = .off then .ok ()
  else parsed.config.toolsItems.zipIdx.forM fun item =>
    checkInputSchema parsed.topLevelCombinators item.1 item.2

def validateCompletionSemantics (config : McpConfig) : Except McpError Unit :=
  refuseIf (config.completion.any fun completion =>
      completion.isActive && completion.providers.isEmpty)
    ("completion config is active but completion.providers is empty; set " ++
      "completion.enabled=false to disable completion")

def validateStreamableHttpHardeningSemantics (config : McpConfig) : Except McpError Unit := do
  let streamableHttp := config.server.transport.streamableHttp
  refuseIf (streamableHttp.sessionMode = .none &&
      (streamableHttp.hardening.bind (·.session)).isSome)
    "transport.streamable_http.hardening.session requires session_mode=optional|required"
  refuseIf ((streamableHttp.hardening.bind (·.rateLimit)).any fun rateLimit =>
      rateLimit.isActive && !rateLimit.hasAnyBucket)
    "transport.streamable_http.hardening.rate_limit requires global or per_ip when enabled"
  refuseIf (((streamableHttp.hardening.bind (·.session)).bind (·.creationRate)).any
      fun creationRate => creationRate.isActive && !creationRate.hasAnyBucket)
    ("transport.streamable_http.hardening.session.creation_rate requires global or per_ip " ++
      "when enabled")

def validateRetryConfig (path : String) (retry : OutboundRetryConfig) : Except McpError Unit := do
  refuseIf (retry.maxAttempts = 0) s!"{path}.max_attempts must be >= 1"
  refuseIf (retry.delayMs = 0) s!"{path}.delay_ms must be >= 1"
  refuseIf (!retry.onNetworkErrors && retry.onStatuses.isEmpty)
    s!"{path} must configure on_statuses when on_network_errors is false"

/-- The check of a section that may have no retry policy of its own. -/
def validateOptionalRetry (path : String) (retry : Option OutboundRetryConfig) :
    Except McpError Unit :=
  (retry.map (validateRetryConfig path)).getD (.ok ())

def validateOutboundRetrySemantics (config : McpConfig) : Except McpError Unit := do
  validateOptionalRetry "outbound_http.retry" (config.outboundHttp.bind (·.retry))
  config.upstreams.entries.forM fun entry =>
    validateOptionalRetry s!"upstreams.{entry.1}.retry" entry.2.retry
  config.toolsItems.zipIdx.forM fun item =>
    validateOptionalRetry s!"tools.{item.2}.execute.retry" (item.1.execute.asHttp.bind (·.retry))

def loadMcpConfigFromPath (crates : LoaderCrates) (surroundings : Surroundings) (path : String)
    (extension : Option String) : Except McpError ParsedConfig := do
  let value ← loadConfigValue crates.toConfigCrates surroundings path extension
  validateConfig crates value
  let parsed ← (crates.fromValue value).mapError fun error => .invalidRequest error none
  validateStreamableHttpHardeningSemantics parsed.config
  validateCompletionSemantics parsed.config
  validateOutboundRetrySemantics parsed.config
  validateInputSchemaClientCompat parsed
  return parsed

/-- `extensionOf` is `Path::extension`. -/
def loadMcpConfig (crates : LoaderCrates) (surroundings : Surroundings)
    (extensionOf : String → Option String) (path : Option String) :
    Except McpError ParsedConfig :=
  match path.or (surroundings.envVar "MCP_CONFIG_PATH").toOption with
  | none =>
    .error (.invalidRequest "MCP_CONFIG_PATH is required for config-driven servers" none)
  | some path => loadMcpConfigFromPath crates surroundings path (extensionOf path)

/-! ## What the checks check -/

theorem refuseIf_eq_ok {bad : Bool} {message : String} :
    refuseIf bad message = .ok () ↔ bad = false := by
  cases bad with
  | false => exact iff_of_true rfl rfl
  | true => exact iff_of_false (fun h => by cases h) fun h => by cases h

/-- One check after the other. -/
theorem then_eq_ok {ε : Type} {first second : Except ε Unit} :
    (first >>= fun _ => second) = .ok () ↔ first = .ok () ∧ second = .ok () := by
  cases first with
  | error => exact iff_of_false (fun h => by cases h) fun h => by cases h.1
  | ok _ => exact ⟨fun h => ⟨rfl, h⟩, fun h => h.2⟩

/-- The names of the plugins of a file, if it has such a list. -/
def pluginsOf (value : Value) : List Value :=
  ((value.get "plugins").bind Value.asArray).getD []

def nameOf (plugin : Value) : Option String := (plugin.get "name").bind Value.asStr

/-- A retry policy that tries at least once, pauses, and has something to retry on. -/
structure Retries (retry : OutboundRetryConfig) : Prop where
  attempts : retry.maxAttempts ≠ 0
  delay : retry.delayMs ≠ 0
  cause : retry.onNetworkErrors = true ∨ retry.onStatuses ≠ []

/-- The retry policies that the configuration has. -/
inductive HasRetry (config : McpConfig) : OutboundRetryConfig → Prop
  | global {outboundHttp : OutboundHttpConfig} {retry : OutboundRetryConfig}
      (present : config.outboundHttp = some outboundHttp) (has : outboundHttp.retry = some retry) :
      HasRetry config retry
  | upstream {name : String} {upstream : UpstreamConfig} {retry : OutboundRetryConfig}
      (present : config.upstreams.lookup name = some upstream)
      (has : upstream.retry = some retry) : HasRetry config retry
  | tool {tool : ToolConfig} {executeHttp : ExecuteHttpConfig} {retry : OutboundRetryConfig}
      (present : tool ∈ config.toolsItems) (executes : tool.execute = .http executeHttp)
      (has : executeHttp.retry = some retry) : HasRetry config retry

/-- The limits on requests and on new sessions that the configuration has. -/
inductive HasRateLimit (hardening : StreamableHttpHardeningConfig) :
    StreamableHttpRateLimitConfig → Prop
  | requests {limit : StreamableHttpRateLimitConfig} (has : hardening.rateLimit = some limit) :
      HasRateLimit hardening limit
  | sessions {session : StreamableHttpSessionHardeningConfig}
      {limit : StreamableHttpRateLimitConfig} (present : hardening.session = some session)
      (has : session.creationRate = some limit) : HasRateLimit hardening limit

/-- The transport settings go together. -/
structure TransportSound (streamableHttp : StreamableHttpTransportConfig) : Prop where
  sessions : ∀ hardening, streamableHttp.hardening = some hardening →
    hardening.session.isSome = true → streamableHttp.sessionMode ≠ .none
  limits : ∀ hardening limit, streamableHttp.hardening = some hardening →
    HasRateLimit hardening limit → limit.isActive = true → limit.hasAnyBucket = true

/-- What a file means that passes all checks after its schema. -/
structure WellFormed (value : Value) (parsed : ParsedConfig) : Prop where
  /-- Every plugin has a name, and no two have the same one. -/
  names : ∃ names : List String, (pluginsOf value).map nameOf = names.map some ∧ names.Nodup
  transport : TransportSound parsed.config.server.transport.streamableHttp
  completion : ∀ completion, parsed.config.completion = some completion →
    completion.isActive = true → completion.providers ≠ []
  retries : ∀ retry, HasRetry parsed.config retry → Retries retry
  schemas : parsed.topLevelCombinators = .error → ∀ tool ∈ parsed.config.toolsItems,
    ∀ schema, tool.inputSchema = .object schema → topLevelCombinators schema = []

section Checks
variable {value : Value} {parsed : ParsedConfig} {config : McpConfig}

theorem checkPluginName_eq_ok {seen after : Finset String} {plugin : Value} :
    checkPluginName seen plugin = .ok after ↔
      ∃ name, nameOf plugin = some name ∧ name ∉ seen ∧ after = insert name seen := by
  unfold checkPluginName nameOf
  cases (plugin.get "name").bind Value.asStr with
  | none => simp
  | some name =>
    by_cases hseen : name ∈ seen
    · simp [hseen]
    · simp [hseen, eq_comm]

/-- The names that were seen before count as taken. -/
theorem foldlM_checkPluginName {seen : Finset String} {plugins : List Value} :
    (∃ after, plugins.foldlM checkPluginName seen = .ok after) ↔
      ∃ names : List String, plugins.map nameOf = names.map some ∧ names.Nodup ∧
        ∀ name ∈ names, name ∉ seen := by
  induction plugins generalizing seen with
  | nil =>
    refine iff_of_true ⟨seen, rfl⟩ ⟨[], rfl, List.nodup_nil, List.forall_mem_nil _⟩
  | cons plugin plugins ih =>
    rw [List.foldlM_cons]
    constructor
    · rintro ⟨after, hafter⟩
      obtain ⟨next, hnext, hrest⟩ := bind_eq_ok hafter
      obtain ⟨name, hname, hfresh, rfl⟩ := checkPluginName_eq_ok.mp hnext
      obtain ⟨names, hnames, hnodup, hothers⟩ := ih.mp ⟨after, hrest⟩
      refine ⟨name :: names, by rw [List.map_cons, List.map_cons, hname, hnames], ?_, ?_⟩
      · exact List.nodup_cons.mpr
          ⟨fun hmem => hothers name hmem (Finset.mem_insert_self _ _), hnodup⟩
      · rintro other (_ | ⟨_, hother⟩)
        · exact hfresh
        · exact fun hseen => hothers other hother (Finset.mem_insert_of_mem hseen)
    · rintro ⟨names, hnames, hnodup, hothers⟩
      cases names with
      | nil => cases hnames
      | cons name names =>
        obtain ⟨hname, hnames⟩ := List.cons.inj hnames
        obtain ⟨hnotin, hnodup⟩ := List.nodup_cons.mp hnodup
        have hstep : checkPluginName seen plugin = .ok (insert name seen) :=
          checkPluginName_eq_ok.mpr ⟨name, hname, hothers name List.mem_cons_self, rfl⟩
        rw [hstep]
        refine ih.mpr ⟨names, hnames, hnodup, fun other hother hseen => ?_⟩
        rcases Finset.mem_insert.mp hseen with rfl | hseen
        · exact hnotin hother
        · exact hothers other (List.mem_cons_of_mem _ hother) hseen

theorem validatePluginNames_eq_ok : validatePluginNames value = .ok () ↔
    ∃ names : List String, (pluginsOf value).map nameOf = names.map some ∧ names.Nodup := by
  unfold validatePluginNames pluginsOf
  cases (value.get "plugins").bind Value.asArray with
  | none => exact iff_of_true rfl ⟨[], rfl, List.nodup_nil⟩
  | some plugins =>
    have hfold := @foldlM_checkPluginName ∅ plugins
    simp only [Finset.notMem_empty, not_false_eq_true, implies_true, and_true] at hfold
    rw [Option.getD_some, ← hfold]
    constructor
    · intro h
      obtain ⟨after, hafter, _⟩ := except_map_eq_ok h
      exact ⟨after, hafter⟩
    · rintro ⟨after, hafter⟩
      simp only [hafter]
      rfl

theorem validateRetryConfig_eq_ok {path : String} {retry : OutboundRetryConfig} :
    validateRetryConfig path retry = .ok () ↔ Retries retry := by
  unfold validateRetryConfig
  rw [then_eq_ok, then_eq_ok, refuseIf_eq_ok, refuseIf_eq_ok, refuseIf_eq_ok,
    decide_eq_false_iff_not, decide_eq_false_iff_not]
  have hcause : (!retry.onNetworkErrors && retry.onStatuses.isEmpty) = false ↔
      retry.onNetworkErrors = true ∨ retry.onStatuses ≠ [] := by
    cases retry.onNetworkErrors <;> cases retry.onStatuses <;> simp
  rw [hcause]
  exact ⟨fun h => ⟨h.1, h.2.1, h.2.2⟩, fun h => ⟨h.attempts, h.delay, h.cause⟩⟩

theorem validateOptionalRetry_eq_ok {path : String} {retry : Option OutboundRetryConfig} :
    validateOptionalRetry path retry = .ok () ↔ ∀ policy ∈ retry, Retries policy := by
  cases retry with
  | none => exact iff_of_true rfl fun policy h => absurd h (Option.not_mem_none policy)
  | some policy =>
    refine validateRetryConfig_eq_ok.trans ⟨?_, fun h => h policy rfl⟩
    rintro h _ ⟨⟩
    exact h

/-- A loop over a list with its indices. -/
theorem forM_zipIdx_eq_ok {ε A : Type} {f : A → ℕ → Except ε Unit} {P : A → Prop}
    (hf : ∀ a i, f a i = .ok () ↔ P a) (items : List A) :
    (items.zipIdx.forM fun item => f item.1 item.2) = .ok () ↔ ∀ a ∈ items, P a := by
  rw [forM_eq_ok]
  constructor
  · intro h a ha
    obtain ⟨i, hi⟩ := List.mem_iff_getElem?.mp ha
    exact (hf a i).mp (h (a, i) (List.mk_mem_zipIdx_iff_getElem?.mpr hi))
  · intro h item hitem
    exact (hf _ _).mpr (h _ (List.fst_mem_of_mem_zipIdx hitem))

theorem validateOutboundRetrySemantics_eq_ok : validateOutboundRetrySemantics config = .ok () ↔
    ∀ retry, HasRetry config retry → Retries retry := by
  have htools : (config.toolsItems.zipIdx.forM fun item =>
      validateOptionalRetry s!"tools.{item.2}.execute.retry"
        (item.1.execute.asHttp.bind (·.retry))) = .ok () ↔
      ∀ tool ∈ config.toolsItems,
        ∀ policy ∈ (ToolConfig.execute tool).asHttp.bind (·.retry), Retries policy :=
    forM_zipIdx_eq_ok (f := fun (tool : ToolConfig) i =>
      validateOptionalRetry s!"tools.{i}.execute.retry" (tool.execute.asHttp.bind (·.retry)))
      (fun _ _ => validateOptionalRetry_eq_ok) _
  unfold validateOutboundRetrySemantics
  rw [then_eq_ok, then_eq_ok, validateOptionalRetry_eq_ok, forM_eq_ok, htools]
  constructor
  · rintro ⟨hglobal, hupstreams, htools⟩ retry (⟨hpresent, hhas⟩ | ⟨hpresent, hhas⟩ |
      ⟨hpresent, hexecutes, hhas⟩)
    · exact hglobal retry (by rw [hpresent]; exact hhas)
    · have hentry := hupstreams _ (HashMap.lookup_eq_some_iff.mp hpresent)
      exact validateOptionalRetry_eq_ok.mp hentry retry hhas
    · exact htools _ hpresent retry (by rw [hexecutes]; exact hhas)
  · intro h
    refine ⟨?_, ?_, ?_⟩
    · intro retry hretry
      obtain ⟨outboundHttp, hpresent, hhas⟩ := Option.bind_eq_some_iff.mp hretry
      exact h retry (.global hpresent hhas)
    · rintro ⟨name, upstream⟩ hentry
      refine validateOptionalRetry_eq_ok.mpr fun retry hhas => ?_
      exact h retry (.upstream (HashMap.lookup_eq_some_iff.mpr hentry) hhas)
    · intro tool htool retry hretry
      obtain ⟨executeHttp, hexecutes, hhas⟩ := Option.bind_eq_some_iff.mp hretry
      cases hexecute : tool.execute with
      | plugin => rw [hexecute] at hexecutes; cases hexecutes
      | http config =>
        rw [hexecute] at hexecutes
        cases hexecutes
        exact h retry (.tool htool hexecute hhas)

theorem validateCompletionSemantics_eq_ok : validateCompletionSemantics config = .ok () ↔
    ∀ completion, config.completion = some completion →
      completion.isActive = true → completion.providers ≠ [] := by
  unfold validateCompletionSemantics
  rw [refuseIf_eq_ok]
  cases config.completion with
  | none => simp
  | some completion => simp

/-- A limit that applies has a bucket. -/
theorem bounded_eq_false {limit : Option StreamableHttpRateLimitConfig} :
    (limit.any fun rate => rate.isActive && !rate.hasAnyBucket) = false ↔
      ∀ rate, limit = some rate → rate.isActive = true → rate.hasAnyBucket = true := by
  cases limit with
  | none => simp
  | some rate => simp

theorem transportSound_iff {streamableHttp : StreamableHttpTransportConfig} :
    TransportSound streamableHttp ↔
      ¬ (streamableHttp.sessionMode = .none ∧
          (streamableHttp.hardening.bind (·.session)).isSome = true) ∧
        (∀ rate, streamableHttp.hardening.bind (·.rateLimit) = some rate →
          rate.isActive = true → rate.hasAnyBucket = true) ∧
        ∀ rate, (streamableHttp.hardening.bind (·.session)).bind (·.creationRate) = some rate →
          rate.isActive = true → rate.hasAnyBucket = true := by
  cases hhardening : streamableHttp.hardening with
  | none =>
    refine iff_of_true ⟨?_, ?_⟩ ⟨(fun h => by cases h.2), ?_, ?_⟩
    · intro hardening hsome
      rw [hhardening] at hsome
      cases hsome
    · intro hardening limit hsome
      rw [hhardening] at hsome
      cases hsome
    · intro rate hrate
      cases hrate
    · intro rate hrate
      cases hrate
  | some hardening =>
    constructor
    · rintro ⟨hsessions, hlimits⟩
      refine ⟨fun h => hsessions hardening hhardening h.2 h.1, ?_, ?_⟩
      · exact fun rate hrate => hlimits hardening rate hhardening (.requests hrate)
      · intro rate hrate
        obtain ⟨session, hsession, hcreation⟩ := Option.bind_eq_some_iff.mp hrate
        exact hlimits hardening rate hhardening (.sessions hsession hcreation)
    · rintro ⟨hsessions, hrequests, hcreations⟩
      refine ⟨?_, ?_⟩
      · intro other hother hsession hmode
        cases hhardening.symm.trans hother
        exact hsessions ⟨hmode, hsession⟩
      · intro other limit hother hhas
        cases hhardening.symm.trans hother
        cases hhas with
        | requests hrate => exact hrequests limit hrate
        | sessions hsession hcreation =>
          exact hcreations limit (Option.bind_eq_some_iff.mpr ⟨_, hsession, hcreation⟩)

theorem validateStreamableHttpHardeningSemantics_eq_ok :
    validateStreamableHttpHardeningSemantics config = .ok () ↔
      TransportSound config.server.transport.streamableHttp := by
  unfold validateStreamableHttpHardeningSemantics
  simp only [then_eq_ok, refuseIf_eq_ok, bounded_eq_false, transportSound_iff,
    Bool.and_eq_false_iff, decide_eq_false_iff_not, not_and_or, Bool.not_eq_true]

theorem checkInputSchema_eq_ok {policy : TopLevelCombinatorsPolicy} {tool : ToolConfig}
    {index : ℕ} : checkInputSchema policy tool index = .ok () ↔
      policy = .warn ∨
        ∀ schema, tool.inputSchema = .object schema → topLevelCombinators schema = [] := by
  unfold checkInputSchema
  rw [refuseIf_eq_ok]
  cases tool.inputSchema with
  | object schema =>
    simp only [Value.asObject, Option.map_some, Option.getD_some, Bool.and_eq_false_iff,
      Bool.not_eq_false', List.isEmpty_iff, decide_eq_false_iff_not, not_not, Value.object.injEq,
      forall_eq', or_comm]
  | _ => simp [Value.asObject]

theorem validateInputSchemaClientCompat_eq_ok :
    validateInputSchemaClientCompat parsed = .ok () ↔
      (parsed.topLevelCombinators = .error → ∀ tool ∈ parsed.config.toolsItems,
        ∀ schema, tool.inputSchema = .object schema → topLevelCombinators schema = []) := by
  have htools := forM_zipIdx_eq_ok (f := checkInputSchema parsed.topLevelCombinators)
    (fun _ _ => checkInputSchema_eq_ok) parsed.config.toolsItems
  unfold validateInputSchemaClientCompat
  split
  · rename_i hoff
    refine iff_of_true rfl fun herror => ?_
    rw [hoff] at herror
    cases herror
  · rename_i hon
    rw [htools]
    cases hpolicy : parsed.topLevelCombinators with
    | off => exact absurd hpolicy hon
    | warn => simp
    | error => simp

theorem validateConfig_eq_ok {crates : LoaderCrates} : validateConfig crates value = .ok () ↔
    crates.schemaErrors value = .ok [] ∧
      ∃ names : List String, (pluginsOf value).map nameOf = names.map some ∧ names.Nodup := by
  unfold validateConfig
  cases hmessages : crates.schemaErrors value with
  | error error => exact iff_of_false (fun h => by cases h) fun h => by cases h.1
  | ok messages =>
    change (refuseIf (!messages.isEmpty) _ >>= fun _ => validatePluginNames value) = .ok () ↔ _
    rw [then_eq_ok, refuseIf_eq_ok, validatePluginNames_eq_ok]
    simp

end Checks

/-! ## What start-up and the requests rely on -/

/-- What is checked again at start-up, and what a request takes for granted. -/
structure ReliedOn (config : McpConfig) : Prop where
  limits : validateStreamableHardeningRateLimits config.server.transport.streamableHttp = .ok ()
  stateless : config.server.transport.streamableHttp.sessionMode = .none →
    buildSessionCreationRateLimiter config.server.transport.streamableHttp.effectiveHardening = none
  features : ∀ features, sharedFeatureValidationError features config = none →
    (config.tasksActive = true ∨
      ∀ tool ∈ config.toolsItems, tool.execute.taskSupport = .forbidden) →
      validateEngineFeatureFlags features config = .ok ()
  /-- The policy of a request that a tool makes. -/
  tools : ∀ name upstream, config.upstreams.lookup name = some upstream →
    ∀ tool ∈ config.toolsItems, ∀ executeHttp, tool.execute = .http executeHttp →
      ∀ retry, Outbound.resolveRetryConfig upstream config.outboundHttp executeHttp.retry =
        some retry → Retries retry
  /-- The policy of a request that a plugin makes. -/
  plugins : ∀ name upstream, config.upstreams.lookup name = some upstream →
    ∀ retry, Outbound.resolveRetryConfig upstream config.outboundHttp none = some retry →
      Retries retry

section Loaded
variable {value : Value} {parsed : ParsedConfig}

theorem WellFormed.resolved (h : WellFormed value parsed) {name : String}
    {upstream : UpstreamConfig} {requestRetry : Option OutboundRetryConfig}
    {retry : OutboundRetryConfig} (hupstream : parsed.config.upstreams.lookup name = some upstream)
    (hrequest : ∀ retry, requestRetry = some retry → HasRetry parsed.config retry)
    (hretry : Outbound.resolveRetryConfig upstream parsed.config.outboundHttp requestRetry =
      some retry) : Retries retry := by
  refine h.retries retry ?_
  rcases Option.or_eq_some_iff.mp hretry with hnearest | ⟨-, hglobal⟩
  · rcases Option.or_eq_some_iff.mp hnearest with hown | ⟨-, hupstreams⟩
    · exact hrequest retry hown
    · exact .upstream hupstream hupstreams
  · obtain ⟨outboundHttp, hpresent, hhas⟩ := Option.bind_eq_some_iff.mp hglobal
    exact .global hpresent hhas

theorem WellFormed.limits (h : WellFormed value parsed) :
    validateStreamableHardeningRateLimits parsed.config.server.transport.streamableHttp =
      .ok () := by
  obtain ⟨-, hrequests, hsessions⟩ := transportSound_iff.mp h.transport
  unfold validateStreamableHardeningRateLimits
  simp only [then_eq_ok, refuseIf_eq_ok, bounded_eq_false]
  exact ⟨hrequests, hsessions⟩

theorem WellFormed.stateless (h : WellFormed value parsed)
    (hmode : parsed.config.server.transport.streamableHttp.sessionMode = .none) :
    buildSessionCreationRateLimiter
      parsed.config.server.transport.streamableHttp.effectiveHardening = none := by
  have hsession :
      parsed.config.server.transport.streamableHttp.effectiveHardening.session = none := by
    unfold StreamableHttpTransportConfig.effectiveHardening
    cases hhardening : parsed.config.server.transport.streamableHttp.hardening with
    | none => rfl
    | some hardening =>
      by_contra hsome
      exact h.transport.sessions hardening hhardening (Option.isSome_iff_ne_none.mpr hsome) hmode
  unfold buildSessionCreationRateLimiter
  rw [hsession]
  rfl

theorem WellFormed.features (h : WellFormed value parsed) {features : Features}
    (hshared : sharedFeatureValidationError features parsed.config = none)
    (htasks : parsed.config.tasksActive = true ∨
      ∀ tool ∈ parsed.config.toolsItems, tool.execute.taskSupport = .forbidden) :
    validateEngineFeatureFlags features parsed.config = .ok () := by
  have hcompletion : ¬ (parsed.config.completionActive = true ∧
      (completionProviders parsed.config).isEmpty = true) := by
    rintro ⟨hactive, hempty⟩
    obtain ⟨completion, hpresent, hactive⟩ := (Option.any_eq_true _ _).mp hactive
    refine h.completion completion hpresent hactive ?_
    rw [completionProviders, hpresent] at hempty
    exact List.isEmpty_iff.mp hempty
  have htools : ¬ (features.tasksUtility = true ∧ ¬ parsed.config.tasksActive = true ∧
      (parsed.config.toolsItems.any fun tool => tool.execute.taskSupport ≠ .forbidden) = true) := by
    rintro ⟨-, hinactive, hany⟩
    obtain ⟨tool, htool, hsupport⟩ := List.any_eq_true.mp hany
    exact of_decide_eq_true hsupport ((htasks.resolve_left hinactive) tool htool)
  unfold validateEngineFeatureFlags
  rw [hshared]
  change (if _ then _ else _) = _
  rw [if_neg hcompletion, if_neg htools]

theorem WellFormed.reliedOn (h : WellFormed value parsed) : ReliedOn parsed.config where
  limits := h.limits
  stateless := h.stateless
  features := fun _ => h.features
  tools := fun _ _ hupstream _ htool _ hexecutes _ hretry =>
    h.resolved hupstream (fun _ hhas => .tool htool hexecutes hhas) hretry
  plugins := fun _ _ hupstream _ hretry =>
    h.resolved hupstream (fun _ hhas => by cases hhas) hretry

/-- The checks that follow the schema accept what is well formed, and nothing else. -/
theorem accepted_iff {crates : LoaderCrates} (hvalid : validateConfig crates value = .ok ()) :
    (do
      validateStreamableHttpHardeningSemantics parsed.config
      validateCompletionSemantics parsed.config
      validateOutboundRetrySemantics parsed.config
      validateInputSchemaClientCompat parsed) = .ok () ↔ WellFormed value parsed := by
  obtain ⟨-, hnames⟩ := validateConfig_eq_ok.mp hvalid
  rw [then_eq_ok, then_eq_ok, then_eq_ok, validateStreamableHttpHardeningSemantics_eq_ok,
    validateCompletionSemantics_eq_ok, validateOutboundRetrySemantics_eq_ok,
    validateInputSchemaClientCompat_eq_ok]
  constructor
  · rintro ⟨htransport, hcompletion, hretries, hschemas⟩
    exact ⟨hnames, htransport, hcompletion, hretries, hschemas⟩
  · intro h
    exact ⟨h.transport, h.completion, h.retries, h.schemas⟩

theorem loadMcpConfigFromPath_eq_ok {crates : LoaderCrates} {surroundings : Surroundings}
    {path : String} {extension : Option String} :
    loadMcpConfigFromPath crates surroundings path extension = .ok parsed ↔
      ∃ value, loadConfigValue crates.toConfigCrates surroundings path extension = .ok value ∧
        crates.schemaErrors value = .ok [] ∧ crates.fromValue value = .ok parsed ∧
        WellFormed value parsed := by
  constructor
  · intro h
    obtain ⟨value, hvalue, h⟩ := bind_eq_ok h
    obtain ⟨_, hvalid, h⟩ := bind_eq_ok h
    obtain ⟨read, hread, h⟩ := bind_eq_ok h
    obtain ⟨_, htransport, h⟩ := bind_eq_ok h
    obtain ⟨_, hcompletion, h⟩ := bind_eq_ok h
    obtain ⟨_, hretries, h⟩ := bind_eq_ok h
    obtain ⟨_, hschemas, h⟩ := bind_eq_ok h
    cases h
    have hwell : WellFormed value parsed := by
      refine (accepted_iff hvalid).mp ?_
      rw [then_eq_ok, then_eq_ok, then_eq_ok]
      exact ⟨htransport, hcompletion, hretries, hschemas⟩
    exact ⟨value, hvalue, (validateConfig_eq_ok.mp hvalid).1, mapError_eq_ok.mp hread, hwell⟩
  · rintro ⟨value, hvalue, hschema, hread, hwell⟩
    have hvalid : validateConfig crates value = .ok () :=
      validateConfig_eq_ok.mpr ⟨hschema, hwell.names⟩
    have hrest := (accepted_iff hvalid).mpr hwell
    rw [then_eq_ok, then_eq_ok, then_eq_ok] at hrest
    obtain ⟨htransport, hcompletion, hretries, hschemas⟩ := hrest
    unfold loadMcpConfigFromPath
    simp only [hvalue, hvalid, hread, htransport, hcompletion, hretries, hschemas, bind,
      Except.bind, Except.mapError]
    rfl

/-- A configuration is loaded exactly if a file is named whose value passes the schema and is
well formed, and then start-up and the requests find what they rely on. -/
theorem loadMcpConfig_eq_ok_iff (crates : LoaderCrates) (surroundings : Surroundings)
    (extensionOf : String → Option String) (path : Option String) (parsed : ParsedConfig) :
    loadMcpConfig crates surroundings extensionOf path = .ok parsed ↔
      (∃ file value, path.or (surroundings.envVar "MCP_CONFIG_PATH").toOption = some file ∧
        loadConfigValue crates.toConfigCrates surroundings file (extensionOf file) = .ok value ∧
        crates.schemaErrors value = .ok [] ∧ crates.fromValue value = .ok parsed ∧
        WellFormed value parsed) ∧ ReliedOn parsed.config := by
  unfold loadMcpConfig
  constructor
  · intro h
    cases hfile : path.or (surroundings.envVar "MCP_CONFIG_PATH").toOption with
    | none =>
      rw [hfile] at h
      cases h
    | some file =>
      rw [hfile] at h
      obtain ⟨value, hvalue, hschema, hread, hwell⟩ := loadMcpConfigFromPath_eq_ok.mp h
      exact ⟨⟨file, value, rfl, hvalue, hschema, hread, hwell⟩, hwell.reliedOn⟩
  · rintro ⟨⟨file, value, hfile, haccepted⟩, -⟩
    rw [hfile]
    exact loadMcpConfigFromPath_eq_ok.mpr ⟨value, haccepted⟩

end Loaded
end Loader
end RustMcpCore
