import RustMcpCore.Runtime.Steps

/-! # The engine that serves after a reload

A transport captures its engine once, when `run` starts it, and every session is
a clone of that engine. A reload replaces the engine in the reload state only.
-/
namespace RustMcpCore.Runtime
open Library
variable {host : Host}

/-- After a call of `reload_config` has returned `Ok`, the step opens no session
and handles no request with another engine than the one installed last. -/
def ServesInstalled (s : State) (e : Event) : Prop :=
  0 < s.shared.reloaded → ∀ engine, e.2 = .served engine →
    s.shared.runtime.engine = some engine

/-- No reload swaps while a transport is running. -/
def SwapsBetweenRuns : State → Event → Prop :=
  Program.Undisturbed Task.serves (· = .reload .swap)

theorem program_serves :
    Program.Captures (fun g => g.runtime.engine) Task.serves (· = .reload .swap)
      (program host) where
  kept h ha := congrArg (Option.map _) (act_reloadState h ha)
  read h hs := act_serves h hs

/-- In every run in which no reload swaps while a transport is running, the engine
installed last serves. -/
theorem serves_installed {s t : State} {e : Event} {es : List Event}
    (hr : Runs (Guarded (Step host) SwapsBetweenRuns) (init host) es s)
    (he : Step host s e t) : ServesInstalled s e := by
  have hcurrent := Program.runs_capturedCurrent program_serves hr
  intro _ engine ho
  have hserved : e.2.servedBy = some engine := by rw [ho]; rfl
  rcases act_servedBy (Program.step_self he) hserved with hinstalled | hcaptured
  · exact hinstalled
  · exact hcurrent _ engine hcaptured

/-- A start-up and a reload, and then a transport opens a session and handles a
request in it. -/
theorem serves_installed_restarted : ∃ es s t e,
    es.map Prod.fst = construct 0 .empty (.all emptyList) ++
      reloadCall 0 { McpConfig.empty with progress := true } (.all emptyList) ++
      [(1, .run .call), (1, .run .readMode), (1, .run .readAuth), (1, .run .readEngine),
        (1, .run (.openSession 0))] ∧
    Runs (Guarded (Step .plain) SwapsBetweenRuns) (init .plain) es s ∧ Step .plain s e t ∧
    0 < s.shared.reloaded ∧ e.2 = .served ⟨1, { McpConfig.empty with progress := true }⟩ ∧
    ServesInstalled s e := by
  have hm : (program .plain).machine.Meets SwapsBetweenRuns (init .plain)
      (construct 0 .empty (.all emptyList) ++
        reloadCall 0 { McpConfig.empty with progress := true } (.all emptyList) ++
        [(1, .run .call), (1, .run .readMode), (1, .run .readAuth), (1, .run .readEngine),
          (1, .run (.openSession 0))]) := by
    refine And.intro nofun (And.intro nofun (And.intro ?_ (And.intro nofun (And.intro nofun
      (And.intro nofun (And.intro nofun (And.intro nofun (And.intro ?_ (And.intro nofun
      (And.intro nofun (And.intro nofun (And.intro nofun (And.intro nofun (And.intro nofun
      (And.intro nofun trivial)))))))))))))))
    -- The two swaps find one task, the reload itself.
    · intro _ i
      rcases i with _ | i <;> rfl
    · intro _ i
      rcases i with _ | i <;> rfl
  have hr := hm.runs rfl
  exact ⟨_, _, _, ((1, .run (.request 0)), .served ⟨1, { McpConfig.empty with progress := true }⟩),
    rfl, hr, rfl, by decide, rfl, serves_installed hr rfl⟩

/-- A session is open, a reload returns, and the next request of the session is
handled by the engine of the start-up. -/
theorem replaced_engine_serves : ∃ s t e, (program .plain).machine.Reachable s ∧
    Step .plain s e t ∧ 0 < s.shared.reloaded ∧ e.1 = (1, .run (.request 0)) ∧
    e.2 = .served ⟨0, .empty⟩ ∧
    s.shared.runtime.engine = some ⟨1, { McpConfig.empty with progress := true }⟩ ∧
    ¬ ServesInstalled s e := by
  have hr := @Machine.runs_of_execute _ _ _ (program .plain).machine (init .plain) _
    (construct 0 .empty (.all emptyList) ++
      [(1, .run .call), (1, .run .readMode), (1, .run .readAuth), (1, .run .readEngine),
        (1, .run (.openSession 0))] ++
      reloadCall 2 { McpConfig.empty with progress := true } (.all emptyList)) _ rfl
  refine ⟨_, _, ((1, .run (.request 0)), .served ⟨0, .empty⟩), Machine.reachable_of_runs hr, rfl,
    by decide, rfl, rfl, rfl, fun h => ?_⟩
  have hsame := h (by decide) ⟨0, .empty⟩ rfl
  cases hsame

end RustMcpCore.Runtime
