import RustMcpCore.Tasks.Requests
import RustMcpCore.Tasks.Transitions

/-! # What a step does to one execution

A step makes at most one operation on the store. An execution and its entry have the
same number, and the entry holds no other handle than that of its execution.
-/
namespace RustMcpCore.TaskRequests
open Library
variable {env : Platform} {engine : Engine}

abbrev Event := Label × Output

/-- The operation on the store that a step makes. -/
def storeLabel (env : Platform) (engine : Engine) (s : State) : Label → Option TaskStore.Label
  | .enqueue request context swept now =>
    match engine.admit request context with
    | .error _ => none
    | .ok (_, ttlMs) => some (.create context.peer context.peerKey ttlMs swept now)
  | .attach k => some (.attachHandle (env.newV4 k) k)
  | .finish k swept now =>
    match s.executions k with
    | some ⟨_, _, some (.returned result)⟩ => some (.finish (env.newV4 k) result swept now)
    | _ => none
  | .store label => if isForeign label then some label else none
  | .spawn _ | .dropHandler _ | .advance _ _ | .notified _ | .reap _ => none

def WorkerPhase.started : WorkerPhase → Bool
  | .waiting | .calling => true
  | .spawned | .returned _ | .notifying => false

variable {s t : State} {e : Event}

/-- A step makes at most one operation on the store. -/
theorem step_store (he : (machine env engine).Step s e t) :
    (storeLabel env engine s e.1 = none ∧ t.store = s.store) ∨
      ∃ l output, storeLabel env engine s e.1 = some l ∧
        (TaskStore.machine env).Step s.store (l, output) t.store ∧ e.2 = .store output := by
  obtain ⟨l, o⟩ := e
  change next env engine s l = some (t, o) at he
  cases l with
  | enqueue request context swept now =>
    simp only [next] at he
    split at he
    · rename_i hadmit
      cases he
      exact .inl ⟨by simp only [storeLabel, hadmit], rfl⟩
    · rename_i hadmit
      obtain ⟨⟨store, output⟩, hstore, heq⟩ := Option.map_eq_some_iff.mp he
      cases heq
      exact .inr ⟨.create context.peer context.peerKey _ swept now, output,
        by simp only [storeLabel, hadmit], hstore, rfl⟩
  | attach k =>
    simp only [next] at he
    split at he
    · obtain ⟨⟨store, output⟩, hstore, heq⟩ := Option.map_eq_some_iff.mp he
      cases heq
      exact .inr ⟨_, output, rfl, hstore, rfl⟩
    · cases he
  | finish k swept now =>
    simp only [next] at he
    split at he
    · rename_i hexecution
      obtain ⟨⟨store, output⟩, hstore, heq⟩ := Option.map_eq_some_iff.mp he
      cases heq
      exact .inr ⟨.finish (env.newV4 k) _ swept now, output,
        by simp only [storeLabel, hexecution], hstore, rfl⟩
    · cases he
  | store label =>
    simp only [next] at he
    split at he
    · rename_i hforeign
      obtain ⟨⟨store, output⟩, hstore, heq⟩ := Option.map_eq_some_iff.mp he
      cases heq
      exact .inr ⟨label, output, if_pos hforeign, hstore, rfl⟩
    · cases he
  | spawn k =>
    simp only [next] at he
    split at he
    · cases he
      exact .inl ⟨rfl, rfl⟩
    · cases he
  | dropHandler k =>
    simp only [next] at he
    split at he
    · cases he
      exact .inl ⟨rfl, rfl⟩
    · cases he
  | advance k progress =>
    simp only [next] at he
    split at he
    · split at he
      · cases he
      · obtain ⟨phase, _, heq⟩ := Option.map_eq_some_iff.mp he
        cases heq
        exact .inl ⟨rfl, rfl⟩
    · cases he
  | notified k =>
    simp only [next] at he
    split at he
    · cases he
      exact .inl ⟨rfl, rfl⟩
    · cases he
  | reap k =>
    simp only [next] at he
    split at he
    · split at he
      · cases he
        exact .inl ⟨rfl, rfl⟩
      · cases he
    · cases he

theorem attach_execution (he : (machine env engine).Step s e t) {k : ℕ} (h : e.1 = .attach k) :
    ∃ execution, s.executions k = some execution := by
  obtain ⟨l, o⟩ := e
  obtain rfl : l = .attach k := h
  change next env engine s (.attach k) = some (t, o) at he
  simp only [next] at he
  split at he
  · exact ⟨_, ‹_›⟩
  · cases he

/-- How a step changes one execution. -/
inductive ExecutionStep (k : ℕ) (s : State) (e : Event) (t : State) : Prop
  | same (after : t.executions k = s.executions k)
  | created {tool : ToolConfig} (key : k = s.store.issued)
      (count : t.store.issued = s.store.issued + 1)
      (after : t.executions k = some ⟨tool, some .created, none⟩)
  | spawned {tool : ToolConfig} (before : s.executions k = some ⟨tool, some .created, none⟩)
      (after : t.executions k = some ⟨tool, some .attaching, some .spawned⟩)
  | handled {tool : ToolConfig} {worker : Option WorkerPhase}
      (before : s.executions k = some ⟨tool, some .attaching, worker⟩)
      (after : t.executions k = some ⟨tool, none, worker⟩)
  | advanced {tool : ToolConfig} {handler : Option HandlerPhase} {phase next : WorkerPhase}
      {progress : Progress} (label : e.1 = .advance k progress)
      (before : s.executions k = some ⟨tool, handler, some phase⟩)
      (polled : phase.unpolled = true → k ∉ s.store.aborted)
      (move : phase.advance tool (k ∈ s.store.cancelled) progress = some next)
      (after : t.executions k = some ⟨tool, handler, some next⟩)
  | settled {tool : ToolConfig} {handler : Option HandlerPhase} {phase : WorkerPhase}
      {worker : Option WorkerPhase} (label : ∀ progress, e.1 ≠ .advance k progress)
      (before : s.executions k = some ⟨tool, handler, some phase⟩)
      (idle : phase.started = false) (after : t.executions k = some ⟨tool, handler, worker⟩)
      (worker_idle : ∀ next, worker = some next → next.started = false)
  | reaped {tool : ToolConfig} {handler : Option HandlerPhase} {phase : WorkerPhase}
      (aborted : k ∈ s.store.aborted)
      (before : s.executions k = some ⟨tool, handler, some phase⟩)
      (after : t.executions k = some ⟨tool, handler, none⟩)

/-- A step that writes one execution leaves the others as they are. -/
theorem ExecutionStep.of_update {k k' : ℕ} {execution : Execution}
    (hset : t.executions = Function.update s.executions k' (some execution))
    (hown : k' = k → t.executions k = some execution → ExecutionStep k s e t) :
    ExecutionStep k s e t := by
  by_cases hk : k' = k
  · exact hown hk (by rw [hset, hk, Function.update_self])
  · exact .same (by rw [hset, Function.update_of_ne (Ne.symm hk)])

section Actions
variable {o : Output} {k' : ℕ} (k : ℕ)

theorem enqueue_executionStep {request : CallToolRequestParams} {context : RequestContext}
    {swept now : DateTime}
    (he : next env engine s (.enqueue request context swept now) = some (t, o)) :
    ExecutionStep k s (.enqueue request context swept now, o) t := by
  simp only [next] at he
  split at he
  · cases he
    exact .same rfl
  · obtain ⟨⟨store, output⟩, hstore, heq⟩ := Option.map_eq_some_iff.mp he
    cases heq
    obtain ⟨_, _, hcreate⟩ := TaskStore.step_create.mp hstore
    refine .of_update rfl fun hk after => .created hk.symm ?_ after
    exact congrArg TaskStore.State.issued hcreate

theorem spawn_executionStep (he : next env engine s (.spawn k') = some (t, o)) :
    ExecutionStep k s (.spawn k', o) t := by
  simp only [next] at he
  split at he
  · rename_i hbefore
    cases he
    refine .of_update rfl ?_
    rintro rfl after
    exact .spawned hbefore after
  · cases he

theorem attach_executionStep (he : next env engine s (.attach k') = some (t, o)) :
    ExecutionStep k s (.attach k', o) t := by
  simp only [next] at he
  split at he
  · rename_i hbefore
    obtain ⟨⟨store, output⟩, hstore, heq⟩ := Option.map_eq_some_iff.mp he
    cases heq
    refine .of_update rfl ?_
    rintro rfl after
    exact .handled hbefore after
  · cases he

theorem dropHandler_executionStep (he : next env engine s (.dropHandler k') = some (t, o)) :
    ExecutionStep k s (.dropHandler k', o) t := by
  simp only [next] at he
  split at he
  · rename_i hbefore
    cases he
    refine .of_update rfl ?_
    rintro rfl after
    exact .handled hbefore after
  · cases he

theorem advance_executionStep {progress : Progress}
    (he : next env engine s (.advance k' progress) = some (t, o)) :
    ExecutionStep k s (.advance k' progress, o) t := by
  simp only [next] at he
  split at he
  · rename_i hbefore
    split at he
    · cases he
    · rename_i hpolled
      obtain ⟨phase, hmove, heq⟩ := Option.map_eq_some_iff.mp he
      cases heq
      refine .of_update rfl ?_
      rintro rfl after
      exact .advanced rfl hbefore (fun h haborted => hpolled ⟨h, haborted⟩) hmove after
  · cases he

theorem finish_executionStep {swept now : DateTime}
    (he : next env engine s (.finish k' swept now) = some (t, o)) :
    ExecutionStep k s (.finish k' swept now, o) t := by
  simp only [next] at he
  split at he
  · rename_i hbefore
    obtain ⟨⟨store, output⟩, hstore, heq⟩ := Option.map_eq_some_iff.mp he
    cases heq
    refine .of_update rfl ?_
    rintro rfl after
    refine .settled (fun _ h => by cases h) hbefore rfl after ?_
    -- What is left of the worker is its notification, if there is one.
    intro phase hphase
    dsimp only at hphase
    split at hphase
    · cases hphase
      rfl
    · cases hphase
  · cases he

theorem notified_executionStep (he : next env engine s (.notified k') = some (t, o)) :
    ExecutionStep k s (.notified k', o) t := by
  simp only [next] at he
  split at he
  · rename_i hbefore
    cases he
    refine .of_update rfl ?_
    rintro rfl after
    exact .settled (fun _ h => by cases h) hbefore rfl after fun _ h => by cases h
  · cases he

theorem reap_executionStep (he : next env engine s (.reap k') = some (t, o)) :
    ExecutionStep k s (.reap k', o) t := by
  simp only [next] at he
  split at he
  · rename_i hbefore
    split at he
    · rename_i haborted
      cases he
      refine .of_update rfl ?_
      rintro rfl after
      exact .reaped haborted hbefore after
    · cases he
  · cases he

theorem store_executionStep {label : TaskStore.Label}
    (he : next env engine s (.store label) = some (t, o)) :
    ExecutionStep k s (.store label, o) t := by
  simp only [next] at he
  split at he
  · obtain ⟨⟨store, output⟩, hstore, heq⟩ := Option.map_eq_some_iff.mp he
    cases heq
    exact .same rfl
  · cases he

end Actions

theorem step_execution (k : ℕ) (he : (machine env engine).Step s e t) :
    ExecutionStep k s e t := by
  obtain ⟨l, o⟩ := e
  change next env engine s l = some (t, o) at he
  cases l with
  | enqueue request context swept now => exact enqueue_executionStep k he
  | spawn k' => exact spawn_executionStep k he
  | attach k' => exact attach_executionStep k he
  | dropHandler k' => exact dropHandler_executionStep k he
  | advance k' progress => exact advance_executionStep k he
  | finish k' swept now => exact finish_executionStep k he
  | notified k' => exact notified_executionStep k he
  | reap k' => exact reap_executionStep k he
  | store label => exact store_executionStep k he

theorem storeLabel_attachHandle {l : Label} {taskId : String} {k : ℕ}
    (h : storeLabel env engine s l = some (.attachHandle taskId k)) :
    l = .attach k ∧ taskId = env.newV4 k := by
  cases l with
  | enqueue request context =>
    simp only [storeLabel] at h
    split at h <;> cases h
  | attach =>
    cases h
    exact ⟨rfl, rfl⟩
  | finish =>
    simp only [storeLabel] at h
    split at h <;> cases h
  | store label =>
    obtain ⟨hforeign, hlabel⟩ := Option.ite_none_right_eq_some.mp h
    cases hlabel
    cases hforeign
  | _ => cases h

theorem storeLabel_finish {l : Label} {taskId : String} {result : TerminalResult}
    {swept now : DateTime}
    (h : storeLabel env engine s l = some (.finish taskId result swept now)) :
    ∃ k tool handler, taskId = env.newV4 k ∧
      s.executions k = some ⟨tool, handler, some (.returned result)⟩ := by
  cases l with
  | enqueue request context =>
    simp only [storeLabel] at h
    split at h <;> cases h
  | attach => cases h
  | finish k =>
    simp only [storeLabel] at h
    split at h
    · rename_i hexecution
      cases h
      exact ⟨k, _, _, rfl, hexecution⟩
    · cases h
  | store label =>
    obtain ⟨hforeign, hlabel⟩ := Option.ite_none_right_eq_some.mp h
    cases hlabel
    cases hforeign
  | _ => cases h

/-! ## Numbers -/

/-- An entry only holds the handle of the execution with its number. -/
structure Tracked (env : Platform) (s : State) : Prop where
  wellFormed : TaskStore.WellFormed env s.store
  fresh : TaskStore.FreshIds env s.store.issued
  handles : ∀ taskId entry k, s.store.stored taskId = some entry → entry.handle = some k →
    taskId = env.newV4 k ∧ k < s.store.issued
  numbered : ∀ k execution, s.executions k = some execution → k < s.store.issued

theorem init_tracked : Tracked env (machine env engine).init where
  wellFormed := TaskStore.init_wellFormed
  fresh _ h := by cases h
  handles _ _ _ h := by cases h
  numbered _ _ h := by cases h

theorem step_numbered (he : (machine env engine).Step s e t) {k : ℕ} {execution : Execution}
    (h : t.executions k = some execution) : (∃ earlier, s.executions k = some earlier) ∨
      k = s.store.issued ∧ t.store.issued = s.store.issued + 1 := by
  cases step_execution k he with
  | same after => exact .inl ⟨execution, after ▸ h⟩
  | created key count => exact .inr ⟨key, count⟩
  | spawned before => exact .inl ⟨_, before⟩
  | handled before => exact .inl ⟨_, before⟩
  | advanced _ before => exact .inl ⟨_, before⟩
  | settled _ before => exact .inl ⟨_, before⟩
  | reaped _ before => exact .inl ⟨_, before⟩

theorem step_tracked (hs : Tracked env s) (he : (machine env engine).Step s e t)
    (hfresh : TaskStore.FreshIds env t.store.issued) : Tracked env t := by
  rcases step_store he with ⟨_, hstore⟩ | ⟨l, output, hl, hstore, _⟩
  · refine ⟨hstore ▸ hs.wellFormed, hfresh, hstore ▸ hs.handles, ?_⟩
    intro k execution h
    rw [hstore]
    rcases step_numbered he h with ⟨earlier, hearlier⟩ | ⟨_, hcount⟩
    · exact hs.numbered k earlier hearlier
    · rw [hstore] at hcount
      omega
  · have hle := TaskStore.step_issued hstore
    refine ⟨TaskStore.step_wellFormed hs.wellFormed hstore, hfresh, ?_, ?_⟩
    · intro taskId entry k hstored hheld
      rcases TaskStore.step_handle hstore hstored hheld with ⟨earlier, hearlier, hheld⟩ | hattach
      · obtain ⟨hid, hk⟩ := hs.handles taskId earlier k hearlier hheld
        exact ⟨hid, hk.trans_le hle⟩
      · obtain rfl : l = .attachHandle taskId k := hattach
        obtain ⟨hlabel, hid⟩ := storeLabel_attachHandle hl
        obtain ⟨execution, hexecution⟩ := attach_execution he hlabel
        exact ⟨hid, (hs.numbered k execution hexecution).trans_le hle⟩
    · intro k execution h
      rcases step_numbered he h with ⟨earlier, hearlier⟩ | ⟨rfl, hcount⟩
      · exact (hs.numbered k earlier hearlier).trans_le hle
      · omega

/-! ## Aborted executions -/

/-- Whatever reason there is to abort an execution, its task is settled or gone. -/
theorem aborts_closed (hs : Tracked env s) (he : (machine env engine).Step s e t)
    (hfresh : TaskStore.FreshIds env t.store.issued) {l : TaskStore.Label}
    {output : TaskStore.Output} (hl : storeLabel env engine s e.1 = some l)
    (hstore : (TaskStore.machine env).Step s.store (l, output) t.store) {k : ℕ}
    (h : TaskStore.Aborts env s.store l k) : TaskStore.Closed env (env.newV4 k) t.store := by
  have hle := TaskStore.step_issued hstore
  cases h with
  | swept sweeps stored held expired =>
    obtain ⟨rfl, hk⟩ := hs.handles _ _ k stored held
    refine ⟨⟨k, hk.trans_le hle, rfl⟩, fun entry hentry => ?_⟩
    cases TaskStore.step_origin hstore hentry with
    | kept before keeps =>
      cases stored.symm.trans before
      rw [keeps _ sweeps] at expired
      cases expired
    | attached label =>
      rw [show l = _ from label] at sweeps
      cases sweeps
    | created creates key =>
      exact absurd key (TaskStore.not_created hstore hfresh ⟨k, hk, rfl⟩ creates)
    | finished => exact (TaskStore.finishStatus_agrees _).isTerminal
    | cancelled => rfl
  | replaced creates stored held =>
    obtain ⟨hid, hk⟩ := hs.handles _ _ k stored held
    exact absurd hid.symm (TaskStore.not_created hstore hfresh ⟨k, hk, rfl⟩ creates)
  | late attach gone =>
    subst attach
    obtain ⟨hlabel, rfl⟩ := storeLabel_attachHandle hl
    obtain ⟨execution, hexecution⟩ := attach_execution he hlabel
    refine ⟨⟨k, (hs.numbered k execution hexecution).trans_le hle, rfl⟩, fun entry hentry => ?_⟩
    cases TaskStore.step_origin hstore hentry with
    | kept before =>
      rw [gone] at before
      cases before
    | attached _ before =>
      rw [gone] at before
      cases before
    | created creates => cases creates
    | finished => exact (TaskStore.finishStatus_agrees _).isTerminal
    | cancelled => rfl
  | finished finish stored held isOpen =>
    subst finish
    obtain ⟨rfl, hk⟩ := hs.handles _ _ k stored held
    exact ⟨⟨k, hk.trans_le hle, rfl⟩, fun _ hentry => TaskStore.finish_closes hstore hentry⟩
  | cancelled cancel stored held isOpen =>
    subst cancel
    obtain ⟨rfl, hk⟩ := hs.handles _ _ k stored held
    refine ⟨⟨k, hk.trans_le hle, rfl⟩, fun _ hentry => ?_⟩
    refine TaskStore.cancel_closes hstore (fun other hother => ?_) hentry
    cases stored.symm.trans hother
    rfl

def Condemned (env : Platform) (s : State) : Prop :=
  ∀ k, k ∈ s.store.aborted ∨ .abort k ∈ s.store.pending →
    TaskStore.Closed env (env.newV4 k) s.store

theorem step_condemned (hs : Tracked env s) (hc : Condemned env s)
    (he : (machine env engine).Step s e t) (hfresh : TaskStore.FreshIds env t.store.issued) :
    Condemned env t := by
  intro k hk
  rcases step_store he with ⟨_, hstore⟩ | ⟨l, output, hl, hstore, _⟩
  · rw [hstore] at hk ⊢
    exact hc k hk
  · have hearlier : (k ∈ s.store.aborted ∨ .abort k ∈ s.store.pending) ∨
        TaskStore.Aborts env s.store l k := by
      rcases hk with hk | hk
      · exact .inl (TaskStore.step_aborted hstore hk)
      · rcases TaskStore.step_abort hstore hk with hk | hk
        · exact .inl (.inr hk)
        · exact .inr hk
    rcases hearlier with hearlier | haborts
    · exact TaskStore.step_closed hstore hfresh (hc k hearlier)
    · exact aborts_closed hs he hfresh hl hstore haborts

end RustMcpCore.TaskRequests
