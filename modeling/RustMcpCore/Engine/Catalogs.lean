import RustMcpCore.Engine.Environment
import RustMcpCore.Library.TwoRuns

/-! # Catalogs of prompts and resources

A catalog is built when it is first asked for and kept from then on. A handler is a
program over the state of the server; the internal errors that it meets at its calls
are kept beside the state.
-/
namespace RustMcpCore.Dispatch
open Library

structure ServerState (W : Type) where
  world : W
  promptCatalog : Option PromptCatalog
  resourceCatalog : Option ResourceCatalog
  tasks : TaskStoreInner
  /-- How many ids the task store has drawn. -/
  issued : ℕ

structure Handling (W : Type) where
  server : ServerState W
  /-- The errors with code `INTERNAL_ERROR` that the calls of the handler gave. -/
  raised : List McpError

abbrev Handler (W A : Type) := Fallible (Handling W) McpError A

section Actions
variable {W A : Type}

def internalErrors : Except McpError A → List McpError
  | .error error => if error.code = ErrorCode.internalError then [error] else []
  | .ok _ => []

/-- A call that may fail. -/
def ask (effect : W → Except McpError A × W) : Handler W A :=
  Fallible.act fun handling =>
    ((effect handling.server.world).1,
      { server := { handling.server with world := (effect handling.server.world).2 }
        raised := handling.raised ++ internalErrors (effect handling.server.world).1 })

/-- A result of another crate that may be an internal error. -/
def check (result : Except McpError A) : Handler W A :=
  Fallible.act fun handling =>
    (result, { handling with raised := handling.raised ++ internalErrors result })

/-- The engine's own result. -/
def settle (result : Except McpError A) : Handler W A := Fallible.lift result

def observe (effect : W → A × W) : Handler W A :=
  Fallible.act fun handling =>
    (.ok (effect handling.server.world).1,
      { handling with server :=
          { handling.server with world := (effect handling.server.world).2 } })

def server : Handler W (ServerState W) :=
  Fallible.act fun handling => (.ok handling.server, handling)

def update (change : ServerState W → ServerState W) : Handler W Unit :=
  Fallible.act fun handling => (.ok (), { handling with server := change handling.server })

end Actions

namespace Engine
variable (engine : Engine) {W : Type} (env : Environment W)

/-! ## Prompts -/

def promptPageSize : Option ℕ :=
  pageSize (engine.config.prompts.bind (·.pagination)) engine.config

def validatePromptCompletions (completions : Option (HashMap String String)) (schema : Value)
    (promptName : String) : Except McpError Unit := do
  validateCompletionKeys completions schema "prompt" promptName
  if engine.config.completionActive then
    validateCompletionSourceMapping completions engine.completionSources s!"prompt '{promptName}'"
  else pure ()

def resolveInlinePrompt (item : PromptItemConfig) : Except McpError ResolvedPrompt := do
  let arguments ← derivePromptArguments item.argumentsSchema
  engine.validatePromptCompletions item.completions item.argumentsSchema item.name
  return { prompt :=
             { name := item.name
               title := item.title
               description := item.description
               arguments
               icons := mapIcons item.icons }
           argumentsSchema := item.argumentsSchema
           completions := item.completions
           source := .inline item.messages }

def resolvePluginPrompt (pluginName : String) (config : Value) (entry : PromptEntry) :
    Except McpError ResolvedPrompt := do
  let arguments ← derivePromptArguments entry.argumentsSchema
  engine.validatePromptCompletions entry.completions entry.argumentsSchema entry.prompt.name
  return { prompt := { entry.prompt with arguments }
           argumentsSchema := entry.argumentsSchema
           completions := entry.completions
           source := .plugin pluginName config }

def promptsOfProvider : PromptProviderConfig → Handler W (List ResolvedPrompt)
  | .inline items => settle (items.mapM engine.resolveInlinePrompt)
  | .plugin plugin providerConfig => do
    let promptPlugin ← settle (engine.lookupPromptPlugin plugin)
    let config := mergePluginConfig engine.config .prompt plugin providerConfig
    let ctx := engine.buildPluginContext none
    let entries ← ask (env.outside.listPrompts promptPlugin { config, ctx })
    settle (entries.mapM (engine.resolvePluginPrompt plugin config))

def buildPromptCatalog : Handler W PromptCatalog :=
  match engine.config.prompts.filter PromptsConfig.isActive with
  | none => pure .default
  | some promptsConfig => do
    let prompts ← promptsConfig.providers.mapM (engine.promptsOfProvider env)
    return .new prompts.flatten

def refreshPromptCatalog : Handler W PromptCatalog := do
  let catalog ← engine.buildPromptCatalog env
  update fun server => { server with promptCatalog := some catalog }
  return catalog

def promptCatalog : Handler W PromptCatalog := do
  match (← server).promptCatalog with
  | some existing => return existing
  | none => engine.refreshPromptCatalog env

/-! ## Resources -/

def resourcePageSize : Option ℕ :=
  pageSize (engine.config.resources.bind (·.pagination)) engine.config

def resolveInlineResource (item : ResourceItemConfig) : Except McpError ResolvedResource := do
  validateResourceUri env.crates.parsers item.uri
  let annotations ← mapResourceAnnotations env.crates.parsers item.annotations
  return { resource :=
             { raw := { RawResource.new item.uri item.name with
                 title := item.title
                 description := item.description
                 mimeType := item.mimeType
                 size := item.size
                 icons := mapIcons item.icons }
               annotations }
           source := .inline item.content }

def resolvePluginResource (pluginName : String) (config : Value) (resource : Resource) :
    Except McpError ResolvedResource := do
  validateResourceUri env.crates.parsers resource.raw.uri
  return { resource, source := .plugin pluginName config }

def resourcesOfProvider : ResourceProviderConfig → Handler W (List ResolvedResource)
  | .inline items _ => settle ((items.getD []).mapM (resolveInlineResource env))
  | .plugin plugin providerConfig _ => do
    let resourcePlugin ← settle (engine.lookupResourcePlugin plugin)
    let config := mergePluginConfig engine.config .resource plugin providerConfig
    let ctx := engine.buildPluginContext none
    let entries ← ask (env.outside.listResources resourcePlugin { config, ctx })
    settle (entries.mapM (resolvePluginResource env plugin config))

def buildResources : Handler W (List ResolvedResource) :=
  match engine.config.resources.filter ResourcesConfig.isActive with
  | none => pure []
  | some resourcesConfig => do
    let resources ← resourcesConfig.providers.mapM (engine.resourcesOfProvider env)
    return resources.flatten

def resolveTemplate (source : ResourceSource) (template : ResourceTemplateConfig) :
    Except McpError ResolvedResourceTemplate := do
  validateResourceTemplateUri env.crates.parsers template.uriTemplate
  validateResourceTemplateSchema env.crates.schemas template
  let annotations ← mapResourceAnnotations env.crates.parsers template.annotations
  if engine.config.completionActive then
    let uriTemplate := template.uriTemplate
    validateCompletionSourceMapping template.completions engine.completionSources
      s!"resource template '{uriTemplate}'"
  else pure ()
  return { template :=
             { raw :=
                 { uriTemplate := template.uriTemplate
                   name := if template.name = "" then "resource-template" else template.name
                   title := template.title
                   description := template.description
                   mimeType := template.mimeType
                   icons := mapIcons template.icons }
               annotations }
           argumentsSchema := template.argumentsSchema
           completions := template.completions
           source }

def templatesOfProvider : ResourceProviderConfig → Except McpError (List ResolvedResourceTemplate)
  | .inline _ templates =>
    (templates.getD []).mapM (engine.resolveTemplate env (.inline none))
  | .plugin plugin providerConfig templates =>
    let config := mergePluginConfig engine.config .resource plugin providerConfig
    (templates.getD []).mapM (engine.resolveTemplate env (.plugin plugin config))

def buildResourceTemplates : Except McpError (List ResolvedResourceTemplate) :=
  match engine.config.resources.filter ResourcesConfig.isActive with
  | none => .ok []
  | some resourcesConfig =>
    (resourcesConfig.providers.mapM (engine.templatesOfProvider env)).map List.flatten

def buildResourceCatalog : Handler W ResourceCatalog := do
  let resources ← engine.buildResources env
  let templates ← settle (engine.buildResourceTemplates env)
  return .new resources templates

def refreshResourceCatalog : Handler W ResourceCatalog := do
  let catalog ← engine.buildResourceCatalog env
  update fun server => { server with resourceCatalog := some catalog }
  return catalog

def resourceCatalog : Handler W ResourceCatalog := do
  match (← server).resourceCatalog with
  | some existing => return existing
  | none => engine.refreshResourceCatalog env

end Engine

end RustMcpCore.Dispatch
