import RustMcpCore.Tasks.Executions

/-! # Tools that must not be interrupted

The store does not know which tools may be interrupted. A call is safe as long as the
store has no reason to abort it between the first poll of its execution and its return.
-/
namespace RustMcpCore.TaskRequests
open Library
variable {env : Platform} {engine : Engine}

/-- The execution of a tool that must not be interrupted has been polled and has not
returned. -/
def Protected (s : State) (k : ℕ) : Prop :=
  ∃ tool handler phase, s.executions k = some ⟨tool, handler, some phase⟩ ∧
    tool.cancellable = false ∧ phase.started = true

variable {s t : State} {e : Event}

/-- The store gets no reason to abort a protected execution, and an execution is not
polled for the first time while the abort of it is pending. -/
structure Spares (env : Platform) (engine : Engine) (s : State) (e : Event) : Prop where
  fresh : ∀ l, storeLabel env engine s e.1 = some l → l.creates = true →
    ∀ k < s.store.issued, env.newV4 k ≠ env.newV4 s.store.issued
  unexpired : ∀ k l swept taskId entry, Protected s k → storeLabel env engine s e.1 = some l →
    l.sweeps = some swept → s.store.stored taskId = some entry → entry.handle = some k →
    entry.isExpired swept = false
  uncancelled : ∀ k taskId swept now entry, Protected s k →
    storeLabel env engine s e.1 = some (.cancel taskId entry.peerKey swept now) →
    s.store.stored taskId = some entry → entry.handle = some k →
    isTerminal entry.task.status = true
  attached : ∀ k, Protected s k → e.1 = .attach k → s.store.stored (env.newV4 k) ≠ none
  polled : ∀ k tool handler phase progress, e.1 = .advance k progress →
    s.executions k = some ⟨tool, handler, some phase⟩ → tool.cancellable = false →
    phase.unpolled = true → .abort k ∉ s.store.pending

structure Safe (env : Platform) (s : State) : Prop where
  wellFormed : TaskStore.WellFormed env s.store
  fresh : TaskStore.FreshIds env s.store.issued
  handles : ∀ taskId entry k, s.store.stored taskId = some entry → entry.handle = some k →
    taskId = env.newV4 k ∧ k < s.store.issued
  numbered : ∀ k execution, s.executions k = some execution → k < s.store.issued
  spared : ∀ k, Protected s k → k ∉ s.store.aborted ∧ .abort k ∉ s.store.pending

theorem init_safe : Safe env (machine env engine).init where
  wellFormed := TaskStore.init_wellFormed
  fresh _ h := by cases h
  handles _ _ _ h := by cases h
  numbered _ _ h := by cases h
  spared := by
    rintro k ⟨_, _, _, h, _⟩
    cases h

/-- A protected execution was one before, or it is polled for the first time. -/
theorem step_protected (he : (machine env engine).Step s e t) {k : ℕ} (h : Protected t k) :
    Protected s k ∨ ∃ tool handler phase progress, e.1 = .advance k progress ∧
      s.executions k = some ⟨tool, handler, some phase⟩ ∧ tool.cancellable = false ∧
      phase.unpolled = true ∧ k ∉ s.store.aborted := by
  obtain ⟨tool, handler, phase, hafter, hcancellable, hstarted⟩ := h
  cases step_execution k he with
  | same after => exact .inl ⟨tool, handler, phase, after ▸ hafter, hcancellable, hstarted⟩
  | created _ _ after => rw [after] at hafter; cases hafter
  | spawned _ after =>
    rw [after] at hafter
    cases hafter
    cases hstarted
  | handled before after =>
    rw [after] at hafter
    cases hafter
    exact .inl ⟨tool, _, phase, before, hcancellable, hstarted⟩
  | @advanced _ _ earlier _ progress label before polled move after =>
    rw [after] at hafter
    cases hafter
    cases hearlier : earlier.started with
    | true => exact .inl ⟨tool, handler, earlier, before, hcancellable, hearlier⟩
    | false =>
      have hunpolled : earlier.unpolled = true := by
        cases earlier with
        | spawned => rfl
        | waiting => cases hearlier
        | calling => cases hearlier
        | returned => cases progress <;> cases move
        | notifying => cases progress <;> cases move
      exact .inr ⟨tool, handler, earlier, progress, label, before, hcancellable, hunpolled,
        polled hunpolled⟩
  | settled _ _ _ after idle =>
    rw [after] at hafter
    cases hafter
    rw [idle phase rfl] at hstarted
    cases hstarted
  | reaped _ _ after => rw [after] at hafter; cases hafter

/-- None of the reasons to abort comes up for a protected execution. -/
theorem not_aborts (hs : Safe env s) (hguard : Spares env engine s e) {k : ℕ}
    (hk : Protected s k) {l : TaskStore.Label} (hl : storeLabel env engine s e.1 = some l) :
    ¬ TaskStore.Aborts env s.store l k := by
  intro h
  cases h with
  | swept sweeps stored held expired =>
    rw [hguard.unexpired k l _ _ _ hk hl sweeps stored held] at expired
    cases expired
  | replaced creates stored held =>
    obtain ⟨j, hj, hid⟩ := hs.wellFormed.issued _ _ stored
    exact hguard.fresh l hl creates j hj hid
  | late attach gone =>
    subst attach
    obtain ⟨hattach, rfl⟩ := storeLabel_attachHandle hl
    exact hguard.attached k hk hattach gone
  | finished finish stored held isOpen =>
    subst finish
    obtain ⟨j, _, _, rfl, hreturned⟩ := storeLabel_finish hl
    obtain ⟨hid, hk'⟩ := hs.handles _ _ k stored held
    obtain rfl := hs.fresh j (hs.numbered j _ hreturned) k hk' hid
    obtain ⟨_, _, _, hexecution, _, hstarted⟩ := hk
    rw [hreturned] at hexecution
    cases hexecution
    cases hstarted
  | cancelled cancel stored held isOpen =>
    subst cancel
    rw [hguard.uncancelled k _ _ _ _ hk hl stored held] at isOpen
    cases isOpen

theorem step_spared (hs : Safe env s) (he : (machine env engine).Step s e t)
    (hguard : Spares env engine s e) {k : ℕ} (hk : Protected t k) :
    k ∉ t.store.aborted ∧ .abort k ∉ t.store.pending := by
  rcases step_protected he hk with hk | ⟨_, _, _, _, hadvance, hbefore, hcancellable, hunpolled, hfree⟩
  · obtain ⟨haborted, hpending⟩ := hs.spared k hk
    rcases step_store he with ⟨_, hstore⟩ | ⟨l, output, hl, hstore, _⟩
    · rw [hstore]
      exact ⟨haborted, hpending⟩
    · constructor
      · intro h
        rcases TaskStore.step_aborted hstore h with h | h
        · exact haborted h
        · exact hpending h
      · intro h
        rcases TaskStore.step_abort hstore h with h | h
        · exact hpending h
        · exact not_aborts hs hguard hk hl h
  · have hpending := hguard.polled _ _ _ _ _ hadvance hbefore hcancellable hunpolled
    rcases step_store he with ⟨_, hstore⟩ | ⟨l, _, hl, _⟩
    · rw [hstore]
      exact ⟨hfree, hpending⟩
    · rw [hadvance] at hl
      cases hl

theorem Safe.tracked (hs : Safe env s) : Tracked env s :=
  ⟨hs.wellFormed, hs.fresh, hs.handles, hs.numbered⟩

theorem step_safe (hs : Safe env s) (he : Guarded (machine env engine).Step (Spares env engine) s e t) :
    Safe env t := by
  obtain ⟨hstep, hguard⟩ := he
  have hfresh : TaskStore.FreshIds env t.store.issued := by
    rcases step_store hstep with ⟨_, hstore⟩ | ⟨l, output, hl, hstore, _⟩
    · rw [hstore]
      exact hs.fresh
    · rcases TaskStore.step_ids hstore with hsame | ⟨⟨_, _, _, _, _, hcreate⟩, hcount⟩
      · rw [hsame]
        exact hs.fresh
      · have hnew := hguard.fresh l hl (by rw [show l = _ from hcreate]; rfl)
        rw [hcount]
        intro i hi j hj hid
        rcases Nat.lt_succ_iff_lt_or_eq.mp hi with hi | rfl
        · rcases Nat.lt_succ_iff_lt_or_eq.mp hj with hj | rfl
          · exact hs.fresh i hi j hj hid
          · exact absurd hid (hnew i hi)
        · rcases Nat.lt_succ_iff_lt_or_eq.mp hj with hj | rfl
          · exact absurd hid.symm (hnew j hj)
          · rfl
  obtain ⟨hwell, hfresh, hhandles, hnumbered⟩ := step_tracked hs.tracked hstep hfresh
  exact ⟨hwell, hfresh, hhandles, hnumbered, fun _ hk => step_spared hs hstep hguard hk⟩

/-- In every run whose steps meet the condition, a tool that must not be interrupted is
not aborted during a call, and the call goes on until it returns. -/
theorem calls_complete {es : List Event}
    (hr : Runs (Guarded (machine env engine).Step (Spares env engine)) (machine env engine).init
      es s) :
    ∀ k tool handler, s.executions k = some ⟨tool, handler, some .calling⟩ →
      tool.cancellable = false → k ∉ s.store.aborted ∧
        ∀ e t, (machine env engine).Step s e t →
          (∃ handler', t.executions k = some ⟨tool, handler', some .calling⟩) ∨
            e.1 = .advance k .await ∨ ∃ result, e.1 = .advance k (.ret result) := by
  intro k tool handler hcalling hcancellable
  have hs := hr.invariant (Safe env) (fun _ _ _ hs he => step_safe hs he) init_safe
  have haborted := (hs.spared k ⟨tool, handler, .calling, hcalling, hcancellable, rfl⟩).1
  refine ⟨haborted, ?_⟩
  intro e t he
  cases step_execution k he with
  | same after => exact .inl ⟨handler, after.trans hcalling⟩
  | created key =>
    have hlt := hs.numbered k _ hcalling
    omega
  | spawned before => rw [before] at hcalling; cases hcalling
  | handled before after =>
    rw [before] at hcalling
    cases hcalling
    exact .inl ⟨none, after⟩
  | @advanced _ _ _ _ progress label before _ move =>
    rw [before] at hcalling
    cases hcalling
    cases progress with
    | await => exact .inr (.inl label)
    | ret result => exact .inr (.inr ⟨result, label⟩)
    | call => cases move
    | cancel =>
      simp only [WorkerPhase.advance, hcancellable, Bool.false_and] at move
      cases move
  | settled _ before idle =>
    rw [before] at hcalling
    cases hcalling
    cases idle
  | reaped aborted => exact absurd aborted haborted

/-- A tool of a plugin that writes, and must not be interrupted. -/
def publish : ToolConfig where
  name := "publish"
  description := "Publishes a report."
  cancellable := false
  inputSchema := .object []
  outputSchema := none
  execute := .plugin { plugin := "publish", config := none, taskSupport := .required }
  response := none

def sampleEngine : Engine where
  config := { McpConfig.empty with tasks := some (.switch (some true)) }
  toolMap := AList.insert "publish" publish ∅

/-- A task is accepted, its handle is attached, and the plugin is called. -/
def accepted : List Label :=
  [.enqueue ⟨"publish", none⟩ ⟨false, 0, "peer"⟩ 0 0, .spawn 0, .attach 0, .advance 0 .call]

theorem spares_of_unprotected (hnone : ∀ k, ¬ Protected s k) (hpending : s.store.pending = [])
    (hfirst : ∀ l, storeLabel env engine s e.1 = some l → l.creates = true →
      s.store.issued = 0) : Spares env engine s e where
  fresh := by
    intro l hl hcreates k hk
    rw [hfirst l hl hcreates] at hk
    omega
  unexpired k _ _ _ _ hk := absurd hk (hnone k)
  uncancelled k _ _ _ _ hk := absurd hk (hnone k)
  attached k hk := absurd hk (hnone k)
  polled _ _ _ _ _ _ _ _ _ := by
    rw [hpending]
    exact List.not_mem_nil

/-- While the plugin is called, a client looks at the task. -/
theorem calls_complete_watched : ∃ es s tool handler,
    es.map Prod.fst = accepted ++ [.store (.getTask "task-0" "peer" 5)] ∧
    Runs (Guarded (machine TaskStore.samplePlatform sampleEngine).Step
      (Spares TaskStore.samplePlatform sampleEngine))
      (machine TaskStore.samplePlatform sampleEngine).init es s ∧
    s.executions 0 = some ⟨tool, handler, some .calling⟩ ∧ 0 ∉ s.store.aborted := by
  have hm : (machine TaskStore.samplePlatform sampleEngine).Meets
      (Spares TaskStore.samplePlatform sampleEngine)
      (machine TaskStore.samplePlatform sampleEngine).init
      (accepted ++ [.store (.getTask "task-0" "peer" 5)]) := by
    refine ⟨spares_of_unprotected ?_ rfl fun _ _ _ => rfl, spares_of_unprotected ?_ rfl nofun,
      spares_of_unprotected ?_ rfl ?_, spares_of_unprotected ?_ rfl nofun, ?_, trivial⟩
    · rintro k ⟨_, _, _, h, _⟩
      cases h
    · rintro (_ | k) ⟨_, _, _, h, _⟩ <;> cases h
    · rintro (_ | k) ⟨_, _, _, h, _, hstarted⟩ <;> cases h
      cases hstarted
    · intro l hl hcreates
      cases hl
      cases hcreates
    · rintro (_ | k) ⟨_, _, _, h, _, hstarted⟩ <;> cases h
      cases hstarted
    · constructor
      · intro l hl hcreates
        cases hl
        cases hcreates
      · intro k l swept taskId entry _ hl hsweeps hstored _
        have hmem := List.mem_singleton.mp (HashMap.lookup_eq_some_iff.mp hstored)
        cases hmem
        rfl
      · intro k taskId swept now entry _ hl
        cases hl
      · intro k _ hattach
        cases hattach
      · intro k _ _ _ _ hadvance
        cases hadvance
  have hr := hm.runs rfl
  exact ⟨_, _, _, _, rfl, hr, rfl, (@calls_complete _ _ _ _ hr 0 _ _ rfl rfl).1⟩

/-- The client cancels the task while the plugin is called. -/
def cancelled : List Label :=
  accepted ++ [.store (.cancel "task-0" "peer" 5 5), .store .perform, .store .perform]

/-- The plugin is called, and the next step drops it. -/
theorem calls_cut : ∃ es s t handler, es.map Prod.fst = cancelled ∧
    Runs (machine TaskStore.samplePlatform sampleEngine).Step
      (machine TaskStore.samplePlatform sampleEngine).init es s ∧
    publish.cancellable = false ∧ 0 ∈ s.store.aborted ∧
    s.executions 0 = some ⟨publish, handler, some .calling⟩ ∧
    next TaskStore.samplePlatform sampleEngine s (.reap 0) = some (t, .silent) ∧
    t.executions 0 = some ⟨publish, handler, none⟩ := by
  have hr := @Machine.runs_of_execute _ _ _ (machine TaskStore.samplePlatform sampleEngine)
    (machine TaskStore.samplePlatform sampleEngine).init _ cancelled _ rfl
  exact ⟨_, _, _, none, rfl, hr, rfl, by decide, rfl, rfl, rfl⟩

end RustMcpCore.TaskRequests
