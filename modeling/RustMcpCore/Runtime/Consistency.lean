import RustMcpCore.Runtime.Steps

/-! # The engine and the lists of one reload

A reload installs its engine and its lists under two locks, one after the other.
In between the lists are owed. When the reload that installed the current engine
pays, and nobody writes the lists of another engine after it, the two agree.
-/
namespace RustMcpCore.Runtime
open Library
variable {host : Host} {s t : State} {e : Event}

/-- No start-up, reload or refresh is running. -/
def Quiet (s : State) : Prop :=
  ∀ i, (∀ startup phase, s.tasks i ≠ some (.reload startup phase)) ∧
    ∀ feature phase, s.tasks i ≠ some (.refresh feature phase)

/-- All four lists were computed from the engine in the reload state. -/
def Unmixed (s : State) : Prop :=
  ∀ engine, s.shared.runtime.engine = some engine →
    s.shared.runtime.listCache.From engine.ptr

def Installed (s : State) (ptr : ℕ) : Prop :=
  s.shared.runtime.engine.map (·.ptr) = some ptr

/-- The reload that installed the current engine has not yet stored its lists. -/
def ListsOwed (s : State) : Prop :=
  ∃ i built, (s.tasks i).bind Task.swapped = some built ∧
    Installed s built.reloadState.engine.ptr

/-- Lists of an engine that is not the current one are stored only while the lists
of the current one are owed, and the reload that owes them is not dropped. -/
def KeepsLists (s : State) (e : Event) : Prop :=
  match e.1.2 with
  | .reload .store => ListsOwed s
  | .refresh .write =>
    (∀ ptr, (s.tasks e.1.1).bind Task.fresh = some ptr → Installed s ptr) ∨ ListsOwed s
  | .drop => ∀ built, (s.tasks e.1.1).bind Task.swapped = some built →
      ¬ Installed s built.reloadState.engine.ptr
  | _ => True

/-- The lists agree with the engine, or are owed. -/
def Settling (s : State) : Prop := ListsOwed s ∨ Unmixed s

theorem Installed.ptr_eq {ptr : ℕ} (h : Installed s ptr) {engine : Engine}
    (he : s.shared.runtime.engine = some engine) : engine.ptr = ptr := by
  rw [Installed, he] at h
  exact Option.some.inj h

theorem Unmixed.of_eq (h : Unmixed s)
    (hstate : t.shared.runtime.reloadState = s.shared.runtime.reloadState)
    (hcache : t.shared.runtime.listCache = s.shared.runtime.listCache) : Unmixed t := by
  intro engine he
  rw [hcache]
  exact h engine (by rw [← he, RuntimeState.engine, RuntimeState.engine, hstate])

theorem ListsOwed.of_eq {j : ℕ} {built : BuiltRuntimeState}
    (hb : (s.tasks j).bind Task.swapped = some built)
    (hc : Installed s built.reloadState.engine.ptr) (he : Step host s e t) (hj : j ≠ e.1.1)
    (hstate : t.shared.runtime.reloadState = s.shared.runtime.reloadState) : ListsOwed t := by
  refine ⟨j, built, ?_, ?_⟩
  · rw [Program.step_other he hj]
    exact hb
  · rw [Installed, RuntimeState.engine, hstate]
    exact hc

theorem settling_swap (he : Step host s e t) (ha : e.1.2 = .reload .swap) : Settling t := by
  have hact := Program.step_self he
  rw [ha] at hact
  obtain ⟨startup, built, changed, _, hshared, htask, _⟩ := actReload_swap.mp hact
  refine .inl ⟨e.1.1, built, ?_, ?_⟩
  · rw [htask]
    rfl
  · rw [Installed, hshared]
    rfl

/-- A store pays the debt of its own reload and leaves those of others. -/
theorem settling_store (he : Step host s e t) (ha : e.1.2 = .reload .store)
    (howed : ListsOwed s) : Settling t := by
  have hact := Program.step_self he
  rw [ha] at hact
  obtain ⟨startup, built, changed, htask, hshared, _⟩ := actReload_store.mp hact
  obtain ⟨j, built', hb, hc⟩ := howed
  by_cases hj : j = e.1.1
  · subst hj
    rw [htask] at hb
    cases hb
    right
    intro engine hengine
    rw [hshared] at hengine ⊢
    have hptr : engine.ptr = built.reloadState.engine.ptr := hc.ptr_eq hengine
    rw [hptr]
    exact built.listing.2
  · exact .inl (ListsOwed.of_eq hb hc he hj (by rw [hshared]))

theorem settling_write (he : Step host s e t) (ha : e.1.2 = .refresh .write)
    (hs : Settling s)
    (hg : (∀ ptr, (s.tasks e.1.1).bind Task.fresh = some ptr → Installed s ptr) ∨ ListsOwed s) :
    Settling t := by
  have hact := Program.step_self he
  rw [ha] at hact
  obtain ⟨feature, engine, new, current, htask, hshared, _⟩ := actRefresh_write.mp hact
  have debt : ListsOwed s → Settling t := by
    rintro ⟨j, built, hb, hc⟩
    have hj : j ≠ e.1.1 := by
      intro hj
      rw [hj, htask] at hb
      cases hb
    exact .inl (ListsOwed.of_eq hb hc he hj (by rw [hshared]))
  rcases hg with hinstalled | howed
  · rcases hs with howed | hunmixed
    · exact debt howed
    · right
      intro engine' hengine
      rw [hshared] at hengine ⊢
      have hold := hunmixed engine' hengine
      have hheld : Installed s engine.ptr := hinstalled engine.ptr (by rw [htask]; rfl)
      have hptr : engine'.ptr = engine.ptr := hheld.ptr_eq hengine
      rw [hptr] at hold ⊢
      dsimp only
      split
      · exact ListCache.write_from hold new.2
      · exact hold
  · exact debt howed

theorem settling_other (he : Step host s e t) (hswap : e.1.2 ≠ .reload .swap)
    (hstore : e.1.2 ≠ .reload .store) (hwrite : e.1.2 ≠ .refresh .write)
    (hs : Settling s) (hg : KeepsLists s e) : Settling t := by
  have hact := Program.step_self he
  have hstate := act_reloadState hact hswap
  have hcache := act_listCache hact hstore hwrite
  rcases hs with ⟨j, built, hb, hc⟩ | hunmixed
  · by_cases hj : j = e.1.1
    · subst hj
      rcases act_swapped hact hb with ha | ha
      · exact absurd ha hstore
      · rw [KeepsLists, ha] at hg
        exact absurd hc (hg built hb)
    · exact .inl (ListsOwed.of_eq hb hc he hj hstate)
  · exact .inr (hunmixed.of_eq hstate hcache)

theorem step_settling (hs : Settling s) (he : Guarded (Step host) KeepsLists s e t) :
    Settling t := by
  obtain ⟨hstep, hg⟩ := he
  by_cases hswap : e.1.2 = .reload .swap
  · exact settling_swap hstep hswap
  · by_cases hstore : e.1.2 = .reload .store
    · rw [KeepsLists, hstore] at hg
      exact settling_store hstep hstore hg
    · by_cases hwrite : e.1.2 = .refresh .write
      · rw [KeepsLists, hwrite] at hg
        exact settling_write hstep hwrite hs hg
      · exact settling_other hstep hswap hstore hwrite hs hg

theorem not_listsOwed (hq : Quiet s) : ¬ ListsOwed s := by
  rintro ⟨i, built, hb, _⟩
  obtain ⟨task, htask, hb⟩ := Option.bind_eq_some_iff.mp hb
  cases task with
  | reload startup phase => exact (hq i).1 startup phase htask
  | refresh feature phase => cases hb
  | run phase => cases hb

/-- In every run in which no lists of another engine are stored over those of the
current one, and no reload is dropped while it owes them, the engine and the lists
belong together whenever nothing is running. -/
theorem unmixed_of_quiet {es : List Event}
    (hr : Runs (Guarded (Step host) KeepsLists) (init host) es s) (hq : Quiet s) : Unmixed s := by
  have hinit : Settling (init host) := by
    right
    intro engine h
    cases h
  have hs := hr.invariant Settling (fun _ _ _ hs he => step_settling hs he) hinit
  exact hs.resolve_left (not_listsOwed hq)

theorem quiet_of_idle (h : ∀ i, s.tasks i = none) : Quiet s := by
  intro i
  refine ⟨fun startup phase hi => ?_, fun feature phase hi => ?_⟩
  · rw [h i] at hi
    cases hi
  · rw [h i] at hi
    cases hi

/-- Two calls of `reload_config` that are compared with the lists of the start-up
before either of them swaps. -/
def overlappingReloads : List (ℕ × Action) :=
  construct 0 .empty (.all emptyList) ++
    [(1, .reload (.call { McpConfig.empty with progress := true })), (2, .reload (.call .empty)),
      (1, .reload (.list (.all [91, 49, 93]))), (2, .reload (.list (.all [91, 50, 93]))),
      (1, .reload .diff), (2, .reload .diff)]

/-- They swap and store in the same order, and a third call is dropped early. -/
theorem unmixed_of_quiet_ordered : ∃ es s, es.map Prod.fst = overlappingReloads ++
      [(1, .reload .swap), (2, .reload .swap), (1, .reload .store), (2, .reload .store),
        (1, .reload .finish), (2, .reload .finish), (3, .reload (.call .empty)), (3, .drop)] ∧
    Runs (Guarded (Step .plain) KeepsLists) (init .plain) es s ∧ Quiet s ∧ Unmixed s ∧
    s.shared.runtime.engine = some ⟨2, .empty⟩ := by
  have hm : (program .plain).machine.Meets KeepsLists (init .plain) (overlappingReloads ++
      [(1, .reload .swap), (2, .reload .swap), (1, .reload .store), (2, .reload .store),
        (1, .reload .finish), (2, .reload .finish), (3, .reload (.call .empty)),
        (3, .drop)]) := by
    refine And.intro trivial (And.intro trivial (And.intro trivial (And.intro ?_ (And.intro trivial
      (And.intro trivial (And.intro trivial (And.intro trivial (And.intro trivial
      (And.intro trivial (And.intro trivial (And.intro trivial (And.intro trivial
      (And.intro ?_ (And.intro ?_ (And.intro trivial (And.intro trivial (And.intro trivial
      (And.intro ?_ trivial))))))))))))))))))
    -- The start-up owes its lists, then both reloads wait for the second.
    · exact ⟨0, _, rfl, rfl⟩
    · exact ⟨2, _, rfl, rfl⟩
    · exact ⟨2, _, rfl, rfl⟩
    · intro built hb
      cases hb
  have hr := hm.runs rfl
  refine ⟨_, _, rfl, hr, ?_, unmixed_of_quiet hr ?_, rfl⟩ <;> apply quiet_of_idle <;> intro i <;>
    rcases i with _ | _ | _ | _ | i <;> rfl

/-- The reload that swaps first stores last: its lists stay with the engine of the
other. -/
theorem overlapping_reloads_mix : ∃ s, (program .plain).machine.Reachable s ∧ Quiet s ∧
    s.shared.runtime.engine = some ⟨2, .empty⟩ ∧
    s.shared.runtime.listCache.tools = ⟨[91, 49, 93], some 1⟩ ∧ ¬ Unmixed s := by
  have hr := @Machine.runs_of_execute _ _ _ (program .plain).machine (init .plain) _
    (overlappingReloads ++
      [(1, .reload .swap), (2, .reload .swap), (2, .reload .store), (2, .reload .finish),
        (1, .reload .store), (1, .reload .finish)]) _ rfl
  refine ⟨_, Machine.reachable_of_runs hr,
    quiet_of_idle fun i => by rcases i with _ | _ | _ | i <;> rfl, rfl, rfl, fun h => ?_⟩
  have hfrom := (h ⟨2, .empty⟩ rfl).tools
  cases hfrom

end RustMcpCore.Runtime
