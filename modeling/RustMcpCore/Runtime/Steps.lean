import RustMcpCore.Runtime.System

/-! # What the tasks can do to each other

Only the swap of a reload changes the reload state, and only the store of a
reload and the write of a refresh change the list cache. What the other tasks
hold from either is read off their phases.
-/
namespace RustMcpCore.Runtime
open Library
variable {host : Host} {i : ℕ} {g g' : Shared} {task task' : Option Task} {o : Output}

/-- The state of a reload that has swapped and not yet stored. -/
def Task.swapped : Task → Option BuiltRuntimeState
  | .reload _ (.swapped built _) => some built
  | _ => none

/-- The number of the engine that a refresh has found to be the current one. -/
def Task.fresh : Task → Option ℕ
  | .refresh _ (.fresh engine _ _) => some engine.ptr
  | _ => none

def Task.serves : Task → Option Engine
  | .run (.serving serving) => some serving.engine
  | _ => none

def Output.servedBy : Output → Option Engine
  | .served engine => some engine
  | _ => none

/-! ## Reloads -/

/-- A task is a reload, if it still exists, and serves nobody. -/
def IsReload (task : Option Task) (o : Output) : Prop :=
  (task = none ∨ ∃ startup phase, task = some (.reload startup phase)) ∧ o.servedBy = none

theorem beginReload_cases {startup : Bool} {config : McpConfig}
    (h : beginReload host startup config g = (g', task', o)) :
    ∃ logging, g' = { g with runtime := { g.runtime with logging } } ∧
      ((task' = none ∧ ∃ error, o = .failed error) ∨
        ∃ prepared, task' = some (.reload startup (.listing config prepared)) ∧ o = .silent) := by
  unfold beginReload at h
  generalize host.beginBuild config g.runtime.logging = result at h
  rcases result with ⟨error | prepared, logging⟩
  · cases h
    exact ⟨logging, rfl, .inl ⟨rfl, error, rfl⟩⟩
  · cases h
    exact ⟨logging, rfl, .inr ⟨prepared, rfl, rfl⟩⟩

theorem actReload_swap : actReload host g task .swap = some (g', task', o) ↔
    ∃ startup built changed, task = some (.reload startup (.ready built changed)) ∧
      g' = { g with runtime := { g.runtime with reloadState := some built.reloadState } } ∧
      task' = some (.reload startup (.swapped built changed)) ∧ o = .silent := by
  rcases task with _ | ⟨startup, phase⟩ | ⟨feature, phase⟩ | phase
  · simp [actReload]
  · cases phase <;> simp [actReload, eq_comm]
  · simp [actReload]
  · simp [actReload]

theorem actReload_store : actReload host g task .store = some (g', task', o) ↔
    ∃ startup built changed, task = some (.reload startup (.swapped built changed)) ∧
      g' = { g with runtime := { g.runtime with listCache := built.listing } } ∧
      task' = some (.reload startup (.stored built.reloadState.engine.config changed)) ∧
      o = .silent := by
  rcases task with _ | ⟨startup, phase⟩ | ⟨feature, phase⟩ | phase
  · simp [actReload]
  · cases phase <;> simp [actReload, eq_comm]
  · simp [actReload]
  · simp [actReload]

theorem actReload_frame {action : ReloadAction}
    (h : actReload host g task action = some (g', task', o)) (hswap : action ≠ .swap)
    (hstore : action ≠ .store) :
    g'.runtime.reloadState = g.runtime.reloadState ∧
      g'.runtime.listCache = g.runtime.listCache ∧
      task.bind Task.swapped = none ∧ task'.bind Task.swapped = none := by
  have began : ∀ startup config g₀, g₀.runtime = g.runtime →
      beginReload host startup config g₀ = (g', task', o) →
      g'.runtime.reloadState = g.runtime.reloadState ∧
        g'.runtime.listCache = g.runtime.listCache ∧ task'.bind Task.swapped = none := by
    intro startup config g₀ hg hb
    obtain ⟨logging, rfl, ⟨rfl, _⟩ | ⟨prepared, rfl, _⟩⟩ := beginReload_cases hb
    · exact ⟨by rw [← hg], by rw [← hg], rfl⟩
    · exact ⟨by rw [← hg], by rw [← hg], rfl⟩
  unfold actReload at h
  split at h
  · split at h
    · rw [Option.some.injEq] at h
      obtain ⟨hstate, hcache, ht⟩ := began _ _ { g with construction := .begun } rfl h
      exact ⟨hstate, hcache, rfl, ht⟩
    · cases h
  · split at h
    · rw [Option.some.injEq] at h
      obtain ⟨hstate, hcache, ht⟩ := began _ _ g rfl h
      exact ⟨hstate, hcache, rfl, ht⟩
    · cases h
  · split at h
    · cases h
      exact ⟨rfl, rfl, rfl, rfl⟩
    · rename_i startup _ _ _ _ _ _
      cases h
      cases startup <;> exact ⟨rfl, rfl, rfl, rfl⟩
  · cases h
    exact ⟨rfl, rfl, rfl, rfl⟩
  · exact absurd rfl hswap
  · exact absurd rfl hstore
  · split at h <;> cases h <;> exact ⟨rfl, rfl, rfl, rfl⟩
  · cases h

theorem beginReload_kind {startup : Bool} {config : McpConfig}
    (h : beginReload host startup config g = (g', task', o)) : IsReload task' o := by
  obtain ⟨_, _, ⟨rfl, error, rfl⟩ | ⟨prepared, rfl, rfl⟩⟩ := beginReload_cases h
  · exact ⟨.inl rfl, rfl⟩
  · exact ⟨.inr ⟨_, _, rfl⟩, rfl⟩

theorem actReload_kind {action : ReloadAction}
    (h : actReload host g task action = some (g', task', o)) : IsReload task' o := by
  unfold actReload at h
  split at h
  · split at h
    · rw [Option.some.injEq] at h
      exact beginReload_kind h
    · cases h
  · split at h
    · rw [Option.some.injEq] at h
      exact beginReload_kind h
    · cases h
  · split at h
    · cases h
      exact ⟨.inl rfl, rfl⟩
    · cases h
      exact ⟨.inr ⟨_, _, rfl⟩, rfl⟩
  · cases h
    exact ⟨.inr ⟨_, _, rfl⟩, rfl⟩
  · cases h
    exact ⟨.inr ⟨_, _, rfl⟩, rfl⟩
  · cases h
    exact ⟨.inr ⟨_, _, rfl⟩, rfl⟩
  · split at h <;> cases h <;> exact ⟨.inl rfl, rfl⟩
  · cases h

/-! ## Refreshes -/

theorem actRefresh_write : actRefresh host i g task .write = some (g', task', o) ↔
    ∃ feature engine new current, task = some (.refresh feature (.fresh engine new current)) ∧
      g' = { g with runtime := { g.runtime with
        listCache := if g.runtime.listCache.differs feature new then
          g.runtime.listCache.write feature new else g.runtime.listCache } } ∧
      task' = some (.refresh feature
        (.written current.config (g.runtime.listCache.differs feature new))) ∧
      o = .silent := by
  rcases task with _ | ⟨startup, phase⟩ | ⟨feature, phase⟩ | phase
  · simp [actRefresh]
  · simp [actRefresh]
  · cases phase with
    | fresh engine new current =>
      simp only [actRefresh, Option.some.injEq, Prod.mk.injEq]
      constructor
      · rintro ⟨rfl, rfl, rfl⟩
        exact ⟨feature, engine, new, current, rfl, rfl, rfl, rfl⟩
      · rintro ⟨_, _, _, _, htask, rfl, rfl, rfl⟩
        cases htask
        exact ⟨rfl, rfl, rfl⟩
    | _ => simp [actRefresh]
  · simp [actRefresh]

theorem actRefresh_frame {action : RefreshAction}
    (h : actRefresh host i g task action = some (g', task', o)) (hwrite : action ≠ .write) :
    g'.runtime = g.runtime := by
  unfold actRefresh at h
  split at h
  · cases h; rfl
  · split at h
    · cases h; rfl
    · cases h
  · split at h <;> cases h <;> rfl
  · cases h; rfl
  · split at h
    · cases h; rfl
    · split at h <;> cases h <;> rfl
  · split at h
    · cases h; rfl
    · split at h <;> cases h <;> rfl
  · exact absurd rfl hwrite
  · cases h; rfl
  · cases h

/-- A task is a refresh, if it still exists, and serves nobody. The engine it has
checked, if any, is the current one. -/
structure IsRefresh (g : Shared) (task : Option Task) (o : Output) : Prop where
  kind : task = none ∨ ∃ feature phase, task = some (.refresh feature phase)
  servedBy : o.servedBy = none
  fresh : ∀ ptr, task.bind Task.fresh = some ptr → g.runtime.engine.map (·.ptr) = some ptr

theorem isRefresh_of_unchecked {feature : ListFeature} {phase : RefreshPhase}
    (hp : (Task.refresh feature phase).fresh = none) (ho : o.servedBy = none) :
    IsRefresh g (some (.refresh feature phase)) o := by
  refine ⟨.inr ⟨feature, phase, rfl⟩, ho, fun ptr h => ?_⟩
  rw [Option.bind_some, hp] at h
  cases h

theorem endRefresh_kind {value : Except McpError Bool} {sent : List ListFeature}
    (h : endRefresh i g value sent = (g', task', o)) : IsRefresh g task' o := by
  cases h
  exact ⟨.inl rfl, rfl, fun _ h => by cases h⟩

theorem actRefresh_kind {action : RefreshAction}
    (h : actRefresh host i g task action = some (g', task', o)) : IsRefresh g task' o := by
  unfold actRefresh at h
  split at h
  · cases h
    exact isRefresh_of_unchecked rfl rfl
  · split at h
    · cases h
      exact isRefresh_of_unchecked rfl rfl
    · cases h
  · split at h
    · exact endRefresh_kind (Option.some.inj h)
    · cases h
      exact isRefresh_of_unchecked rfl rfl
  · cases h
    exact isRefresh_of_unchecked rfl rfl
  · split at h
    · exact endRefresh_kind (Option.some.inj h)
    · split at h
      · cases h
        exact isRefresh_of_unchecked rfl rfl
      · exact endRefresh_kind (Option.some.inj h)
  · split at h
    · exact endRefresh_kind (Option.some.inj h)
    · rename_i feature engine new _ _ current hc
      split at h
      · rename_i hptr
        cases h
        refine ⟨.inr ⟨_, _, rfl⟩, rfl, fun ptr h => ?_⟩
        rw [RuntimeState.currentEngine_eq_ok.mp hc, Option.map_some, ← hptr]
        exact h
      · exact endRefresh_kind (Option.some.inj h)
  · cases h
    exact isRefresh_of_unchecked rfl rfl
  · exact endRefresh_kind (Option.some.inj h)
  · cases h

/-! ## Transports -/

/-- A task is a call of `run`, if it still exists. The engine it serves with is the
one it served with before, or the current one, and nobody else is shown at work. -/
structure IsRun (g : Shared) (task task' : Option Task) (o : Output) : Prop where
  kind : task' = none ∨ ∃ phase, task' = some (.run phase)
  serves : ∀ engine, task'.bind Task.serves = some engine →
    g.runtime.engine = some engine ∨ task.bind Task.serves = some engine
  servedBy : ∀ engine, o.servedBy = some engine →
    g.runtime.engine = some engine ∨ task.bind Task.serves = some engine

theorem isRun_of_idle (ht : task' = none ∨ ∃ phase, task' = some (.run phase))
    (hs : task'.bind Task.serves = none) (ho : o.servedBy = none) : IsRun g task task' o := by
  refine ⟨ht, fun engine h => ?_, fun engine h => ?_⟩
  · rw [hs] at h
    cases h
  · rw [ho] at h
    cases h

theorem actRun_frame {action : RunAction}
    (h : actRun host g task action = some (g', task', o)) : g' = g := by
  unfold actRun at h
  split at h
  · split at h <;> cases h
    rfl
  · split at h
    · cases h; rfl
    · cases h; rfl
    · split at h <;> cases h <;> rfl
  · split at h <;> cases h <;> rfl
  · split at h <;> cases h <;> rfl
  · split at h <;> cases h
    rfl
  · obtain ⟨engine, _, h⟩ := Option.map_eq_some_iff.mp h
    cases h
    rfl
  · cases h; rfl
  · cases h; rfl
  · cases h

theorem actRun_kind {action : RunAction}
    (h : actRun host g task action = some (g', task', o)) : IsRun g task task' o := by
  unfold actRun at h
  split at h
  · split at h <;> cases h
    exact isRun_of_idle (.inr ⟨_, rfl⟩) rfl rfl
  · split at h
    · cases h
      exact isRun_of_idle (.inl rfl) rfl rfl
    · cases h
      exact isRun_of_idle (.inr ⟨_, rfl⟩) rfl rfl
    · split at h <;> cases h
      · exact isRun_of_idle (.inr ⟨_, rfl⟩) rfl rfl
      · exact isRun_of_idle (.inl rfl) rfl rfl
  · split at h <;> cases h
    · exact isRun_of_idle (.inl rfl) rfl rfl
    · exact isRun_of_idle (.inl rfl) rfl rfl
    · exact isRun_of_idle (.inr ⟨_, rfl⟩) rfl rfl
  · -- The engine is read, and stdio opens its one session with it.
    split at h
    · cases h
      exact isRun_of_idle (.inl rfl) rfl rfl
    · rename_i transport _ engine hc
      have hcurrent := RuntimeState.currentEngine_eq_ok.mp hc
      cases h
      refine ⟨.inr ⟨_, rfl⟩, fun engine' hs => ?_, fun engine' ho => ?_⟩
      · cases hs
        exact .inl hcurrent
      · cases transport <;> cases ho
        exact .inl hcurrent
  · split at h <;> cases h
    exact ⟨.inr ⟨_, rfl⟩, fun _ hs => .inr hs, fun _ ho => .inr ho⟩
  · rename_i serving session
    obtain ⟨engine, hengine, h⟩ := Option.map_eq_some_iff.mp h
    cases h
    refine ⟨.inr ⟨_, rfl⟩, fun _ hs => .inr hs, fun _ ho => ?_⟩
    cases ho
    rw [serving.cloned session engine hengine]
    exact .inr rfl
  · cases h
    exact ⟨.inr ⟨_, rfl⟩, fun _ hs => .inr hs, fun _ ho => by cases ho⟩
  · cases h
    exact isRun_of_idle (.inl rfl) rfl rfl
  · cases h

/-! ## Any task -/

variable {action : Action}

/-- Only a swap changes the reload state. -/
theorem act_reloadState (h : act host i g task action = some (g', task', o))
    (ha : action ≠ .reload .swap) : g'.runtime.reloadState = g.runtime.reloadState := by
  cases action with
  | reload action =>
    by_cases hstore : action = .store
    · subst hstore
      obtain ⟨_, _, _, _, rfl, _⟩ := actReload_store.mp h
      rfl
    · exact (actReload_frame h (fun hswap => ha (by rw [hswap])) hstore).1
  | refresh action =>
    by_cases hwrite : action = .write
    · subst hwrite
      obtain ⟨_, _, _, _, _, rfl, _⟩ := actRefresh_write.mp h
      rfl
    · rw [actRefresh_frame h hwrite]
  | run action => rw [actRun_frame h]
  | drop =>
    obtain ⟨_, _, h⟩ := Option.map_eq_some_iff.mp h
    cases h
    rfl

/-- Only a store and a write change the list cache. -/
theorem act_listCache (h : act host i g task action = some (g', task', o))
    (hstore : action ≠ .reload .store) (hwrite : action ≠ .refresh .write) :
    g'.runtime.listCache = g.runtime.listCache := by
  cases action with
  | reload action =>
    by_cases hswap : action = .swap
    · subst hswap
      obtain ⟨_, _, _, _, rfl, _⟩ := actReload_swap.mp h
      rfl
    · exact (actReload_frame h hswap (fun hs => hstore (by rw [hs]))).2.1
  | refresh action => rw [actRefresh_frame h (fun hw => hwrite (by rw [hw]))]
  | run action => rw [actRun_frame h]
  | drop =>
    obtain ⟨_, _, h⟩ := Option.map_eq_some_iff.mp h
    cases h
    rfl

theorem act_swapped (h : act host i g task action = some (g', task', o))
    {built : BuiltRuntimeState} (hb : task.bind Task.swapped = some built) :
    action = .reload .store ∨ action = .drop := by
  rcases task with _ | ⟨startup, phase⟩ | ⟨feature, phase⟩ | phase
  · cases hb
  · cases phase <;> cases hb
    cases action with
    | reload action =>
      cases action with
      | store => exact .inl rfl
      | _ => cases h
    | drop => exact .inr rfl
    | _ => cases h
  · cases hb
  · cases hb

theorem act_fresh (h : act host i g task action = some (g', task', o)) {ptr : ℕ}
    (hf : task'.bind Task.fresh = some ptr) :
    action ≠ .reload .swap ∧ g.runtime.engine.map (·.ptr) = some ptr := by
  cases action with
  | reload action =>
    obtain ⟨rfl | ⟨_, _, rfl⟩, _⟩ := actReload_kind h <;> cases hf
  | refresh action => exact ⟨nofun, (actRefresh_kind h).fresh ptr hf⟩
  | run action =>
    obtain ⟨rfl | ⟨_, rfl⟩, _, _⟩ := actRun_kind h <;> cases hf
  | drop =>
    obtain ⟨_, _, h⟩ := Option.map_eq_some_iff.mp h
    cases h
    cases hf

theorem act_serves (h : act host i g task action = some (g', task', o)) {engine : Engine}
    (hs : task'.bind Task.serves = some engine) : action ≠ .reload .swap ∧
      (g.runtime.engine = some engine ∨ task.bind Task.serves = some engine) := by
  cases action with
  | reload action =>
    obtain ⟨rfl | ⟨_, _, rfl⟩, _⟩ := actReload_kind h <;> cases hs
  | refresh action =>
    obtain ⟨rfl | ⟨_, _, rfl⟩, _, _⟩ := actRefresh_kind h <;> cases hs
  | run action => exact ⟨nofun, (actRun_kind h).serves engine hs⟩
  | drop =>
    obtain ⟨_, _, h⟩ := Option.map_eq_some_iff.mp h
    cases h
    cases hs

theorem act_servedBy (h : act host i g task action = some (g', task', o)) {engine : Engine}
    (hs : o.servedBy = some engine) :
    g.runtime.engine = some engine ∨ task.bind Task.serves = some engine := by
  cases action with
  | reload action =>
    rw [(actReload_kind h).2] at hs
    cases hs
  | refresh action =>
    rw [(actRefresh_kind h).servedBy] at hs
    cases hs
  | run action => exact (actRun_kind h).servedBy engine hs
  | drop =>
    obtain ⟨_, _, h⟩ := Option.map_eq_some_iff.mp h
    cases h
    cases hs

end RustMcpCore.Runtime
