import RustMcpCore.Runtime.System

/-! # Failed reloads

A call of `reload_config` with nothing else going on. The process-wide log level
is set before the last checks, and no later failure sets it back.
-/
namespace RustMcpCore
open Library
variable {host : Host} {config : McpConfig} {results : ListResults} {s : RuntimeState}

/-- The value of a successful call is the list of the notifications it sends. -/
def reloadConfig (host : Host) (config : McpConfig) (results : ListResults) (s : RuntimeState) :
    Except McpError (List ListFeature) × RuntimeState :=
  match host.beginBuild config s.logging with
  | (.error error, logging) => (.error error, { s with logging })
  | (.ok prepared, logging) =>
    match host.finishBuild config prepared s.allocated results with
    | .error error => (.error error, { s with logging })
    | .ok built =>
      (.ok (notifiedFeatures config (changedFeatures s.listCache built.listing)),
        { s with
          logging, allocated := s.allocated + 1
          reloadState := some built.reloadState, listCache := built.listing })

/-- A call that fails leaves everything as it was. -/
def ReloadAtomic (host : Host) (config : McpConfig) (results : ListResults)
    (s : RuntimeState) : Prop :=
  ∀ error, (reloadConfig host config results s).1 = .error error →
    (reloadConfig host config results s).2 = s

/-- Every step that can fail after the logging set-up succeeds. -/
structure LaterStepsPass (host : Host) (config : McpConfig) (results : ListResults) : Prop where
  transport : ∃ mode, validateTransport host.features config = .ok mode
  engine : host.engineFromConfig config = .ok ()
  auth : host.features.streamableHttp = true →
    ∃ authState, buildAuthStateWithPlugins config (some host.registry) = .ok authState
  tools : ∃ tools, toolsListPayload results = .ok tools
  prompts : ∃ prompts, promptListPayload host.features results = .ok prompts
  resources : ∃ resources, resourceListPayload host.features results = .ok resources
  resourceTemplates :
    ∃ templates, resourceTemplatesListPayload host.features results = .ok templates

/-- The logging set-up would leave the logging as it is: the host owns the
subscriber, the handle refuses, or the level is the installed one. -/
def LevelKept (level : String) (logging : Logging) : Prop :=
  logging = .external ∨ ∃ handle, logging = .installed handle ∧
    (handle.failure ≠ none ∨ parseLogLevel level = .ok handle.filter)

theorem initLogging_kept {level : String} {logging logging' : Logging}
    (h : initLogging level logging = .ok logging') :
    logging' = logging ↔ LevelKept level logging := by
  obtain ⟨filter, hp, ⟨rfl, rfl⟩ | ⟨old, rfl, rfl⟩ | ⟨rfl, rfl⟩⟩ := initLogging_eq_ok.mp h
  · simp [LevelKept, Logging.unset, Logging.installed, Logging.external]
  · simp [LevelKept, hp, Logging.installed, Logging.external]
  · simp [LevelKept]

theorem initLogging_error {level : String} {logging : Logging} {error : McpError}
    (h : initLogging level logging = .error error) :
    (∃ error, parseLogLevel level = .error error) ∨ LevelKept level logging := by
  cases hp : parseLogLevel level with
  | error e => exact .inl ⟨e, rfl⟩
  | ok filter =>
    right
    rcases logging.cases with rfl | ⟨⟨old, failure⟩, rfl⟩ | rfl
    · simp [initLogging, hp, Logging.unset] at h
    · cases failure with
      | none => simp [initLogging, hp, Logging.installed, Logging.modify, LogHandle.modify] at h
      | some reason => exact .inr ⟨_, rfl, .inl (Option.some_ne_none reason)⟩
    · exact .inl rfl

theorem prepare_eq_ok : (∃ prepared, host.prepare config = .ok prepared) ↔
    (∃ mode, validateTransport host.features config = .ok mode) ∧
      host.engineFromConfig config = .ok () ∧ (host.features.streamableHttp = true →
        ∃ authState, buildAuthStateWithPlugins config (some host.registry) = .ok authState) := by
  unfold Host.prepare
  cases validateTransport host.features config with
  | error e => simp [bind, Except.bind]
  | ok mode =>
    cases host.engineFromConfig config with
    | error e => simp [bind, Except.bind]
    | ok =>
      cases hs : host.features.streamableHttp with
      | false => simp [bind, Except.bind, pure, Except.pure]
      | true =>
        cases buildAuthStateWithPlugins config (some host.registry) <;>
          simp [bind, Except.bind, pure, Except.pure]

theorem buildListCache_eq_ok {features : Features} {ptr : ℕ} :
    (∃ listing, buildListCache features results ptr = .ok listing) ↔
      (∃ tools, toolsListPayload results = .ok tools) ∧
      (∃ prompts, promptListPayload features results = .ok prompts) ∧
      (∃ resources, resourceListPayload features results = .ok resources) ∧
      (∃ templates, resourceTemplatesListPayload features results = .ok templates) := by
  unfold buildListCache
  cases toolsListPayload results with
  | error e => simp [bind, Except.bind]
  | ok tools =>
    cases promptListPayload features results with
    | error e => simp [bind, Except.bind]
    | ok prompts =>
      cases resourceListPayload features results with
      | error e => simp [bind, Except.bind]
      | ok resources =>
        cases resourceTemplatesListPayload features results <;>
          simp [bind, Except.bind, pure, Except.pure]

theorem laterStepsPass_iff (ptr : ℕ) : LaterStepsPass host config results ↔
    (∃ prepared, host.prepare config = .ok prepared) ∧
      ∃ listing, buildListCache host.features results ptr = .ok listing := by
  rw [prepare_eq_ok, buildListCache_eq_ok]
  constructor
  · rintro ⟨transport, engine, auth, tools, prompts, resources, templates⟩
    exact ⟨⟨transport, engine, auth⟩, tools, prompts, resources, templates⟩
  · rintro ⟨⟨transport, engine, auth⟩, tools, prompts, resources, templates⟩
    exact ⟨transport, engine, auth, tools, prompts, resources, templates⟩

/-- Past the logging set-up the call fails exactly when a later step does, and a
failure keeps the new logging. -/
theorem reloadConfig_logged (results : ListResults) {logging : Logging}
    (hf : compiledFeatureValidationError host.features config = none)
    (hl : initLogging config.server.logging.level s.logging = .ok logging) :
    (LaterStepsPass host config results ∧
      ∃ sent, (reloadConfig host config results s).1 = .ok sent) ∨
    ¬ LaterStepsPass host config results ∧
      ∃ error, reloadConfig host config results s = (.error error, { s with logging }) := by
  rw [laterStepsPass_iff s.allocated]
  simp only [reloadConfig, Host.beginBuild, hf, hl, Host.finishBuild]
  cases host.prepare config with
  | error e => exact .inr ⟨by simp, e, rfl⟩
  | ok prepared =>
    cases buildListCache host.features results s.allocated with
    | error e => exact .inr ⟨by simp, e, rfl⟩
    | ok listing => exact .inl ⟨⟨⟨_, rfl⟩, _, rfl⟩, _, rfl⟩

/-- Exactly when a failed reload leaves no trace: it fails before the logging
set-up takes effect, that has no effect, or nothing after it fails. -/
theorem reloadAtomic_iff : ReloadAtomic host config results s ↔
    (∃ error, compiledFeatureValidationError host.features config = some error) ∨
      (∃ error, parseLogLevel config.server.logging.level = .error error) ∨
      LevelKept config.server.logging.level s.logging ∨ LaterStepsPass host config results := by
  cases hf : compiledFeatureValidationError host.features config with
  | some error =>
    have hr : reloadConfig host config results s = (.error error, s) := by
      simp only [reloadConfig, Host.beginBuild, hf]
    simp [ReloadAtomic, hr]
  | none =>
    cases hl : initLogging config.server.logging.level s.logging with
    | error error =>
      have hr : reloadConfig host config results s = (.error error, s) := by
        simp only [reloadConfig, Host.beginBuild, hf, hl]
      have hkept := initLogging_error hl
      simp only [ReloadAtomic, hr, implies_true, true_iff]
      rcases hkept with hparse | hkept
      · exact .inr (.inl hparse)
      · exact .inr (.inr (.inl hkept))
    | ok logging =>
      obtain ⟨filter, hp, _⟩ := initLogging_eq_ok.mp hl
      have hkept := initLogging_kept hl
      rcases reloadConfig_logged results hf hl with ⟨hpass, sent, hr⟩ | ⟨hfail, error, hr⟩
      · simp [ReloadAtomic, hr, hpass]
      · have heq : { s with logging } = s ↔ logging = s.logging := by
          cases s
          simp
        simp [ReloadAtomic, hr, hfail, hp, heq, hkept]

/-- A runtime after its start-up with the default configuration. -/
def started : RuntimeState := (reloadConfig .plain .empty (.all emptyList) .new).2

/-- Another log level, and a host that streamable HTTP refuses. -/
def blankHost : McpConfig :=
  { McpConfig.empty with
    server := { ServerSection.default with host := "", logging := ⟨"debug"⟩ } }

/-- The reload fails at the host, and the level is the new one. -/
theorem failed_reload_sets_level :
    started.logging = .installed ⟨.info, none⟩ ∧
      reloadConfig .plain blankHost (.all emptyList) started =
        (.error (.invalidRequest "server.host is required for streamable_http" none),
          { started with logging := .installed ⟨.debug, none⟩ }) ∧
      ¬ ReloadAtomic .plain blankHost (.all emptyList) started := by
  have hr : reloadConfig .plain blankHost (.all emptyList) started =
      (.error (.invalidRequest "server.host is required for streamable_http" none),
        { started with logging := .installed ⟨.debug, none⟩ }) := rfl
  refine ⟨rfl, hr, fun hatomic => ?_⟩
  have hsame := hatomic _ (congrArg Prod.fst hr)
  rw [hr] at hsame
  have hlevel : Logging.installed ⟨.debug, none⟩ = Logging.installed ⟨.info, none⟩ :=
    congrArg RuntimeState.logging hsame
  cases hlevel

/-! ## The call among others -/

theorem finishBuild_config {prepared : TransportMode × Option AuthState} {ptr : ℕ}
    {built : BuiltRuntimeState} (h : host.finishBuild config prepared ptr results = .ok built) :
    built.reloadState.engine.config = config := by
  unfold Host.finishBuild at h
  cases hl : buildListCache host.features results ptr with
  | error error => simp [hl, bind, Except.bind] at h
  | ok listing =>
    simp only [hl, bind, Except.bind, pure, Except.pure, Except.ok.injEq] at h
    rw [← h]

/-- How a task that makes the call reports its value. -/
def reloadOutput : Except McpError (List ListFeature) → Runtime.Output
  | .ok sent => .reloaded sent
  | .error error => .failed error

/-- A reload that has built its state cannot fail any more. -/
theorem installs_alone (host : Host) (i : ℕ) (g : Runtime.Shared) (built : BuiltRuntimeState) :
    Runs ((Runtime.program host).Alone i) (g, some (.reload false (.built built)))
      [(.reload .diff, .silent), (.reload .swap, .silent), (.reload .store, .silent),
        (.reload .finish, .reloaded (notifiedFeatures built.reloadState.engine.config
          (changedFeatures g.runtime.listCache built.listing)))]
      ({ g with
          runtime := { g.runtime with
            reloadState := some built.reloadState, listCache := built.listing }
          reloaded := g.reloaded + 1 }, none) := by
  let changed := changedFeatures g.runtime.listCache built.listing
  let swapped : Runtime.Shared :=
    { g with runtime := { g.runtime with reloadState := some built.reloadState } }
  let stored : Runtime.Shared :=
    { swapped with runtime := { swapped.runtime with listCache := built.listing } }
  have diff : (Runtime.program host).Alone i (g, some (.reload false (.built built)))
      (.reload .diff, .silent) (g, some (.reload false (.ready built changed))) := rfl
  have swap : (Runtime.program host).Alone i (g, some (.reload false (.ready built changed)))
      (.reload .swap, .silent) (swapped, some (.reload false (.swapped built changed))) := rfl
  have store : (Runtime.program host).Alone i
      (swapped, some (.reload false (.swapped built changed))) (.reload .store, .silent)
      (stored, some (.reload false (.stored built.reloadState.engine.config changed))) := rfl
  exact .cons diff (.cons swap (.cons store (.single rfl)))

/-- The call is what its task does when the others stand still. -/
theorem reloadConfig_alone (host : Host) (config : McpConfig) (results : ListResults) (i : ℕ)
    {g : Runtime.Shared} (hg : g.construction = .done) :
    ∃ es g', Runs ((Runtime.program host).Alone i) (g, none) es (g', none) ∧
      g'.runtime = (reloadConfig host config results g.runtime).2 ∧
      es.getLast?.map Prod.snd =
        some (reloadOutput (reloadConfig host config results g.runtime).1) := by
  have called : (Runtime.program host).act i g none (.reload (.call config)) =
      some (Runtime.beginReload host false config g) := by
    simp only [Runtime.program, Runtime.act, Runtime.actReload, if_pos hg]
  unfold reloadConfig
  unfold Runtime.beginReload at called
  generalize host.beginBuild config g.runtime.logging = began at called ⊢
  rcases began with ⟨error | prepared, logging⟩
  · exact ⟨[(.reload (.call config), .failed error)], _, .single called, rfl, rfl⟩
  · dsimp only at called ⊢
    cases hf : host.finishBuild config prepared g.runtime.allocated results with
    | error error =>
      have listed : (Runtime.program host).Alone i
          ({ g with runtime := { g.runtime with logging } },
            some (.reload false (.listing config prepared)))
          (.reload (.list results), .failed error)
          ({ g with runtime := { g.runtime with logging } }, none) := by
        simp only [Program.Alone, Runtime.program, Runtime.act, Runtime.actReload, hf]
      exact ⟨[(.reload (.call config), .silent), (.reload (.list results), .failed error)], _,
        .cons (t := (_, _)) called (.single listed), rfl, rfl⟩
    | ok built =>
      have listed : (Runtime.program host).Alone i
          ({ g with runtime := { g.runtime with logging } },
            some (.reload false (.listing config prepared)))
          (.reload (.list results), .silent)
          ({ g with runtime := { g.runtime with logging, allocated := g.runtime.allocated + 1 } },
            some (.reload false (.built built))) := by
        simp only [Program.Alone, Runtime.program, Runtime.act, Runtime.actReload, hf]
        rfl
      have installed := installs_alone host i
        { g with runtime := { g.runtime with logging, allocated := g.runtime.allocated + 1 } } built
      rw [finishBuild_config hf] at installed
      exact ⟨_, _, .cons (e := (_, _)) (t := (_, _)) called (.cons listed installed), rfl, rfl⟩

theorem reloadConfig_runs {t : Runtime.State} {i : ℕ} (hi : t.tasks i = none)
    (hc : t.shared.construction = .done) :
    ∃ es u, Runs (Runtime.Step host) t es u ∧ u.tasks = t.tasks ∧
      u.shared.runtime = (reloadConfig host config results t.shared.runtime).2 ∧
      es.getLast?.map Prod.snd =
        some (reloadOutput (reloadConfig host config results t.shared.runtime).1) := by
  obtain ⟨es, g', hr, hruntime, houtput⟩ :=
    reloadConfig_alone host config results i hc
  have hall := Program.runs_alone hr t.tasks
  have hidle : Function.update t.tasks i none = t.tasks := by
    rw [← hi, Function.update_eq_self]
  rw [hidle] at hall
  refine ⟨_, _, hall, rfl, hruntime, ?_⟩
  rw [List.getLast?_map, Option.map_map, ← houtput]
  rfl

end RustMcpCore
