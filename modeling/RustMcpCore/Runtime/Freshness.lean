import RustMcpCore.Runtime.Steps

/-! # Refreshes that a reload overtakes

A refresh compares its engine with the current one under the lock of the reload
state, and writes under the lock of the list cache afterwards. The comparison
still tells the truth at the write if no reload swaps in between.
-/
namespace RustMcpCore.Runtime
open Library
variable {host : Host}

/-- The step is the write of a refresh that changes the list cache, and the engine
its lists were computed from is no longer the current one. -/
def StoresStale (s : State) (e : Event) : Prop :=
  e.1.2 = .refresh .write ∧ ∃ feature engine new current,
    s.tasks e.1.1 = some (.refresh feature (.fresh engine new current)) ∧
      s.shared.runtime.listCache.differs feature new = true ∧
      s.shared.runtime.engine.map (·.ptr) ≠ some engine.ptr

/-- No reload swaps between the freshness check of a refresh and its write. -/
def SwapsUnchecked : State → Event → Prop :=
  Program.Undisturbed Task.fresh (· = .reload .swap)

theorem program_fresh :
    Program.Captures (fun g => g.runtime.engine.map (·.ptr)) Task.fresh (· = .reload .swap)
      (program host) where
  kept h ha := congrArg (fun state => (state.map (·.engine)).map (·.ptr)) (act_reloadState h ha)
  read h hf := ⟨(act_fresh h hf).1, .inl (act_fresh h hf).2⟩

/-- In every run in which no reload swaps between the check and the write of a
refresh, no refresh stores a stale result. -/
theorem never_stores_stale {s : State} {es : List Event}
    (hr : Runs (Guarded (Step host) SwapsUnchecked) (init host) es s) (e : Event) :
    ¬ StoresStale s e := by
  rintro ⟨_, feature, engine, new, current, htask, _, hstale⟩
  have hcurrent := Program.runs_capturedCurrent program_fresh hr
  have hheld : (s.tasks e.1.1).bind Task.fresh = some engine.ptr := by
    rw [htask]
    rfl
  exact hstale (hcurrent e.1.1 engine.ptr hheld)

/-- A start-up with prompts, and a refresh that finds the prompts changed. -/
def promptsRefreshed : List (ℕ × Action) :=
  construct 0 .withPrompts (.all emptyList) ++
    [(1, .refresh (.call .prompts)), (1, .refresh .lock), (1, .refresh .readEngine),
      (1, .refresh .readCache), (1, .refresh (.compute (.all [91, 49, 93]))),
      (1, .refresh .checkFresh)]

/-- The refresh writes while nothing else happens. -/
theorem never_stores_stale_undisturbed : ∃ es s t e, es.map Prod.fst = promptsRefreshed ∧
    Runs (Guarded (Step .plain) SwapsUnchecked) (init .plain) es s ∧ Step .plain s e t ∧
    e.1 = (1, .refresh .write) ∧ t.shared.runtime.listCache.prompts = ⟨[91, 49, 93], some 0⟩ ∧
    ¬ StoresStale s e := by
  have hm : (program .plain).machine.Meets SwapsUnchecked (init .plain) promptsRefreshed := by
    refine And.intro nofun (And.intro nofun (And.intro ?_ (And.intro nofun (And.intro nofun
      (And.intro nofun (And.intro nofun (And.intro nofun (And.intro nofun (And.intro nofun
      (And.intro nofun trivial))))))))))
    intro _ i
    rcases i with _ | i <;> rfl
  have hr := hm.runs rfl
  exact ⟨_, _, _, ((1, .refresh .write), .silent), rfl, hr, rfl, rfl, rfl,
    never_stores_stale hr _⟩

/-- A whole call of `reload_config` falls between the check and the write. -/
theorem overtaken_refresh_stores : ∃ s t e, (program .plain).machine.Reachable s ∧
    Step .plain s e t ∧ StoresStale s e ∧
    t.shared.runtime.engine.map (·.ptr) = some 1 ∧
    t.shared.runtime.listCache.prompts = ⟨[91, 49, 93], some 0⟩ := by
  have hr := @Machine.runs_of_execute _ _ _ (program .plain).machine (init .plain) _
    (promptsRefreshed ++
      reloadCall 2 .withPrompts (.all emptyList)) _ rfl
  have hstale : (some 1 : Option ℕ) ≠ some 0 := by decide
  exact ⟨_, _, ((1, .refresh .write), .silent), Machine.reachable_of_runs hr, rfl,
    ⟨rfl, .prompts, _, _, _, rfl, rfl, hstale⟩, rfl, rfl⟩

end RustMcpCore.Runtime
