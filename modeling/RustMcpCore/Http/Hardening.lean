import RustMcpCore.Config.Root
import RustMcpCore.Library.HashMap
import RustMcpCore.Library.Interleaving

/-! # HTTP sessions with a limit and a lifetime

The wrapper keeps the creation times of the sessions beside the session map of
the inner manager. Each operation is a task that may stop at every await, and
between two awaits it touches one of the two maps. Closing an inner session
first takes it out of the map and then waits for the session to end.
-/
namespace RustMcpCore.HardeningSessionManager
open Library

abbrev SessionId := String

/-- Nanoseconds of the monotonic clock. -/
abbrev Instant := ℕ
abbrev Duration := ℕ

def Duration.fromSecs (secs : UInt64) : Duration := secs.toNat * 1000000000

/-- `Instant::duration_since`, which does not go below zero. -/
def durationSince (later earlier : Instant) : Duration := later - earlier

inductive LocalSessionManagerError
  | sessionNotFound (id : SessionId)
  | session (reason : String)

inductive HardeningSessionManagerError
  | inner (error : LocalSessionManagerError)
  | sessionLimitExceeded (limit : UInt64)

/-- The part of the manager that never changes. -/
structure Limits where
  maxSessions : Option UInt64
  maxLifetime : Option Duration

def new (sessionHardening : Option StreamableHttpSessionHardeningConfig) : Limits where
  maxSessions := sessionHardening.bind (·.maxSessions)
  maxLifetime := (sessionHardening.bind (·.maxLifetimeSecs)).map Duration.fromSecs

structure Shared where
  /-- The keys of the session map of the inner manager. -/
  sessions : Finset SessionId
  createdAt : HashMap SessionId Instant

/-- `u64::try_from(count).unwrap_or(u64::MAX)`. -/
def countU64 (count : ℕ) : UInt64 :=
  if count < 2 ^ 64 then UInt64.ofNat count else UInt64.ofNat (2 ^ 64 - 1)

def expiredIds (createdAt : HashMap SessionId Instant) (now : Instant) (maxLifetime : Duration) :
    List SessionId :=
  createdAt.entries.filterMap fun entry =>
    if maxLifetime ≤ durationSince now entry.2 then some entry.1 else none

/-! ## Tasks -/

/-- The operations that are passed on to the inner manager. -/
inductive Operation
  | initializeSession
  | hasSession
  | createStream
  | acceptMessage
  | createStandaloneStream
  | resume
  deriving DecidableEq

inductive Removal
  /-- The inner session is out of the map, and its end is awaited. -/
  | removed
  /-- Before the write lock of the creation times. -/
  | closed

inductive CreatePhase
  /-- The prune has read the clock and awaits the creation times. -/
  | snapshot (now : Instant)
  | pruning (id : SessionId) (rest : List SessionId)
  | removing (id : SessionId) (rest : List SessionId) (removal : Removal)
  | counting
  | creating
  /-- The inner session exists. Before the write lock of the creation times. -/
  | created (id : SessionId)

inductive ClosePhase
  | started
  | removing (removal : Removal)

inductive ForwardPhase
  | started
  | expired
  | removing (removal : Removal)
  /-- The inner manager is called. -/
  | checked

inductive Task
  | create (phase : CreatePhase)
  | close (id : SessionId) (phase : ClosePhase)
  | forward (operation : Operation) (id : SessionId) (phase : ForwardPhase)

inductive Action
  | create (now : Instant)
  | close (id : SessionId)
  | forward (operation : Operation) (id : SessionId)
  | snapshot
  | closeInner
  | closed (result : Except LocalSessionManagerError Unit)
  | unbook
  | count
  | createInner (result : Except LocalSessionManagerError SessionId)
  | book (now : Instant)
  | check (now : Instant)
  | forwardInner
  /-- The future of the task is dropped. -/
  | drop

inductive Output
  | silent
  | expired (ids : List SessionId)
  | closing (id : SessionId)
  | created (id : SessionId)
  | createFailed (error : HardeningSessionManagerError)
  | closed (result : Except HardeningSessionManagerError Unit)
  /-- The inner manager answers for the operation. -/
  | forwarded (operation : Operation) (id : SessionId)
  /-- `Ok(false)` for `has_session`, and `SessionNotFound` for the others. -/
  | refused (operation : Operation) (id : SessionId)
  | forwardFailed (error : HardeningSessionManagerError)

abbrev Outcome := Shared × Option Task × Output

variable (limits : Limits)

/-- What follows a prune. -/
def afterPrune : CreatePhase :=
  match limits.maxSessions with
  | some _ => .counting
  | none => .creating

/-- The head of the loop over the expired sessions. -/
def prune : List SessionId → CreatePhase
  | [] => afterPrune limits
  | id :: rest => .pruning id rest

def actCreate (g : Shared) : Option CreatePhase → Action → Option Outcome
  | none, .create now =>
    match limits.maxLifetime with
    | some _ => some (g, some (.create (.snapshot now)), .silent)
    | none => some (g, some (.create (afterPrune limits)), .silent)
  | some (.snapshot now), .snapshot =>
    limits.maxLifetime.map fun maxLifetime =>
      let ids := expiredIds g.createdAt now maxLifetime
      (g, some (.create (prune limits ids)), .expired ids)
  | some (.pruning id rest), .closeInner =>
    some ({ g with sessions := g.sessions.erase id },
      some (.create (.removing id rest .removed)), .closing id)
  | some (.removing id rest .removed), .closed result =>
    match result with
    | .error error => some (g, none, .createFailed (.inner error))
    | .ok () => some (g, some (.create (.removing id rest .closed)), .silent)
  | some (.removing id rest .closed), .unbook =>
    some ({ g with createdAt := g.createdAt.erase id }, some (.create (prune limits rest)), .silent)
  | some .counting, .count =>
    match limits.maxSessions with
    | none => none
    | some limit =>
      if limit ≤ countU64 g.sessions.card then
        some (g, none, .createFailed (.sessionLimitExceeded limit))
      else some (g, some (.create .creating), .silent)
  | some .creating, .createInner result =>
    match result with
    | .error error => some (g, none, .createFailed (.inner error))
    | .ok id => some ({ g with sessions := insert id g.sessions }, some (.create (.created id)), .silent)
  | some (.created id), .book now =>
    some ({ g with createdAt := g.createdAt.insert id now }, none, .created id)
  | _, _ => none

def actClose (g : Shared) (id : SessionId) : ClosePhase → Action → Option Outcome
  | .started, .closeInner =>
    some ({ g with sessions := g.sessions.erase id }, some (.close id (.removing .removed)),
      .closing id)
  | .removing .removed, .closed result =>
    match result with
    | .error error => some (g, none, .closed (.error (.inner error)))
    | .ok () => some (g, some (.close id (.removing .closed)), .silent)
  | .removing .closed, .unbook =>
    some ({ g with createdAt := g.createdAt.erase id }, none, .closed (.ok ()))
  | _, _ => none

/-- `expire_if_needed` and the call that follows it. -/
def actForward (g : Shared) (operation : Operation) (id : SessionId) :
    ForwardPhase → Action → Option Outcome
  | .started, .check now =>
    limits.maxLifetime.map fun maxLifetime =>
      let phase : ForwardPhase :=
        match g.createdAt.lookup id with
        | none => .checked
        | some created => if durationSince now created < maxLifetime then .checked else .expired
      (g, some (.forward operation id phase), .silent)
  | .expired, .closeInner =>
    some ({ g with sessions := g.sessions.erase id },
      some (.forward operation id (.removing .removed)), .closing id)
  | .removing .removed, .closed result =>
    match result with
    | .error error => some (g, none, .forwardFailed (.inner error))
    | .ok () => some (g, some (.forward operation id (.removing .closed)), .silent)
  | .removing .closed, .unbook =>
    some ({ g with createdAt := g.createdAt.erase id }, none, .refused operation id)
  | .checked, .forwardInner => some (g, none, .forwarded operation id)
  | _, _ => none

def act (_ : ℕ) (g : Shared) : Option Task → Action → Option Outcome
  | some _, .drop => some (g, none, .silent)
  | none, .close id => some (g, some (.close id .started), .silent)
  | none, .forward operation id =>
    let phase : ForwardPhase := if limits.maxLifetime.isSome then .started else .checked
    some (g, some (.forward operation id phase), .silent)
  | none, action => actCreate limits g none action
  | some (.create phase), action => actCreate limits g (some phase) action
  | some (.close id phase), action => actClose g id phase action
  | some (.forward operation id phase), action => actForward limits g operation id phase action

def program : Program Shared Task Action Output := ⟨⟨∅, ∅⟩, act limits⟩

abbrev State := World Shared Task

abbrev Event := Library.Event Action Output

abbrev Step : State → Event → State → Prop := (program limits).machine.Step

abbrev init : State := (program limits).machine.init

/-! ## What a step changes -/

/-- The session that a task has created in the inner manager and not yet recorded. -/
def Task.creates : Task → Option SessionId
  | .create (.created id) => some id
  | _ => none

/-- The session that a task has taken out of the inner manager, with its record left. -/
def Task.removes : Task → Option SessionId
  | .create (.removing id _ _) | .close id (.removing _) | .forward _ id (.removing _) => some id
  | _ => none

/-- The session that a task will take out or ask about next. -/
def Task.targets : Task → Option SessionId
  | .create (.pruning id _) | .close id .started | .forward _ id .started
  | .forward _ id .expired => some id
  | _ => none

/-- Every step is one of six for the two maps and for the session in the hands of
the task. -/
inductive Change (g : Shared) (task : Option Task) (action : Action) (g' : Shared)
    (task' : Option Task) : Prop
  | kept (same : g' = g) (creates : task'.bind Task.creates = task.bind Task.creates)
      (removes : task'.bind Task.removes = task.bind Task.removes)
  | created (id : SessionId) (call : action = .createInner (.ok id))
      (after : g' = { g with sessions := insert id g.sessions })
      (creates : task'.bind Task.creates = some id) (free : task.bind Task.creates = none)
      (removes : task.bind Task.removes = none) (removes' : task'.bind Task.removes = none)
  | booked (id : SessionId) (now : Instant)
      (after : g' = { g with createdAt := g.createdAt.insert id now })
      (creates : task.bind Task.creates = some id) (free : task'.bind Task.creates = none)
      (removes : task.bind Task.removes = none) (removes' : task'.bind Task.removes = none)
  | removed (id : SessionId) (call : action = .closeInner)
      (target : task.bind Task.targets = some id)
      (after : g' = { g with sessions := g.sessions.erase id })
      (removes : task'.bind Task.removes = some id) (idle : task.bind Task.removes = none)
      (free : task.bind Task.creates = none) (free' : task'.bind Task.creates = none)
  | unbooked (id : SessionId) (after : g' = { g with createdAt := g.createdAt.erase id })
      (removes : task.bind Task.removes = some id) (idle : task'.bind Task.removes = none)
      (free : task.bind Task.creates = none) (free' : task'.bind Task.creates = none)
  | ended (same : g' = g) (gone : task' = none)
      (call : action = .drop ∨ ∃ error, action = .closed (.error error))

variable {limits} {g g' : Shared} {task task' : Option Task} {action : Action} {o : Output}

theorem prune_idle (ids : List SessionId) :
    (some (Task.create (prune limits ids))).bind Task.creates = none ∧
      (some (Task.create (prune limits ids))).bind Task.removes = none := by
  unfold prune afterPrune
  cases ids with
  | cons id rest => exact ⟨rfl, rfl⟩
  | nil => cases limits.maxSessions <;> exact ⟨rfl, rfl⟩

/-- The steps of `create_session`. What follows a prune is an equation, so that a step
can be told apart by the phase it ends in. -/
inductive CreateStep (limits : Limits) (g : Shared) :
    Option CreatePhase → Action → Shared → Option Task → Output → Prop
  | start (now : Instant) (phase : CreatePhase)
      (next : phase = if limits.maxLifetime.isSome then .snapshot now else prune limits []) :
      CreateStep limits g none (.create now) g (some (.create phase)) .silent
  | expired (now : Instant) (ids : List SessionId) (phase : CreatePhase)
      (found : ids ∈ limits.maxLifetime.map (expiredIds g.createdAt now))
      (next : phase = prune limits ids) :
      CreateStep limits g (some (.snapshot now)) .snapshot g (some (.create phase)) (.expired ids)
  | closing (id : SessionId) (rest : List SessionId) :
      CreateStep limits g (some (.pruning id rest)) .closeInner
        { g with sessions := g.sessions.erase id } (some (.create (.removing id rest .removed)))
        (.closing id)
  | closeFailed (id : SessionId) (rest : List SessionId) (error : LocalSessionManagerError) :
      CreateStep limits g (some (.removing id rest .removed)) (.closed (.error error)) g none
        (.createFailed (.inner error))
  | closed (id : SessionId) (rest : List SessionId) :
      CreateStep limits g (some (.removing id rest .removed)) (.closed (.ok ())) g
        (some (.create (.removing id rest .closed))) .silent
  | unbooked (id : SessionId) (rest : List SessionId) (phase : CreatePhase)
      (next : phase = prune limits rest) :
      CreateStep limits g (some (.removing id rest .closed)) .unbook
        { g with createdAt := g.createdAt.erase id } (some (.create phase)) .silent
  | full (limit : UInt64) (configured : limits.maxSessions = some limit)
      (count : limit ≤ countU64 g.sessions.card) :
      CreateStep limits g (some .counting) .count g none
        (.createFailed (.sessionLimitExceeded limit))
  | passed (limit : UInt64) (configured : limits.maxSessions = some limit)
      (count : ¬ limit ≤ countU64 g.sessions.card) :
      CreateStep limits g (some .counting) .count g (some (.create .creating)) .silent
  | refused (error : LocalSessionManagerError) :
      CreateStep limits g (some .creating) (.createInner (.error error)) g none
        (.createFailed (.inner error))
  | created (id : SessionId) :
      CreateStep limits g (some .creating) (.createInner (.ok id))
        { g with sessions := insert id g.sessions } (some (.create (.created id))) .silent
  | booked (id : SessionId) (now : Instant) :
      CreateStep limits g (some (.created id)) (.book now)
        { g with createdAt := g.createdAt.insert id now } none (.created id)

theorem actCreate_step {phase : Option CreatePhase}
    (h : actCreate limits g phase action = some (g', task', o)) :
    CreateStep limits g phase action g' task' o := by
  unfold actCreate at h
  split at h
  · split at h
    · rename_i hlife
      cases h
      exact .start _ _ (by simp [hlife])
    · rename_i hlife
      cases h
      exact .start _ _ (by simp [hlife, prune])
  · obtain ⟨maxLifetime, hlife, h⟩ := Option.map_eq_some_iff.mp h
    cases h
    exact .expired _ _ _ (Option.mem_map_of_mem _ hlife) rfl
  · cases h
    exact .closing _ _
  · split at h <;> cases h
    · exact .closeFailed _ _ _
    · exact .closed _ _
  · cases h
    exact .unbooked _ _ _ rfl
  · split at h
    · cases h
    · rename_i limit hlimit
      split at h
      · rename_i hcount
        cases h
        exact .full limit hlimit hcount
      · rename_i hcount
        cases h
        exact .passed limit hlimit hcount
  · split at h <;> cases h
    · exact .refused _
    · exact .created _
  · cases h
    exact .booked _ _
  · cases h

theorem actCreate_change {phase : Option CreatePhase}
    (h : actCreate limits g phase action = some (g', task', o)) :
    Change g (phase.map .create) action g' task' := by
  cases actCreate_step h with
  | start now phase next =>
    rw [next]
    split
    · exact .kept rfl rfl rfl
    · exact .kept rfl (prune_idle []).1 (prune_idle []).2
  | expired now ids phase found next =>
    rw [next]
    exact .kept rfl (prune_idle ids).1 (prune_idle ids).2
  | closing => exact .removed _ rfl rfl rfl rfl rfl rfl rfl
  | closeFailed => exact .ended rfl rfl (.inr ⟨_, rfl⟩)
  | unbooked id rest phase next =>
    rw [next]
    exact .unbooked _ rfl rfl (prune_idle rest).2 rfl (prune_idle rest).1
  | created => exact .created _ rfl rfl rfl rfl rfl rfl
  | booked => exact .booked _ _ rfl rfl rfl rfl rfl
  | closed | full | passed | refused => exact .kept rfl rfl rfl

theorem actClose_change {id : SessionId} {phase : ClosePhase}
    (h : actClose g id phase action = some (g', task', o)) :
    Change g (some (.close id phase)) action g' task' := by
  unfold actClose at h
  split at h
  · cases h
    exact .removed _ rfl rfl rfl rfl rfl rfl rfl
  · split at h
    · cases h
      exact .ended rfl rfl (.inr ⟨_, rfl⟩)
    · cases h
      exact .kept rfl rfl rfl
  · cases h
    exact .unbooked _ rfl rfl rfl rfl rfl
  · cases h

theorem actForward_change {operation : Operation} {id : SessionId} {phase : ForwardPhase}
    (h : actForward limits g operation id phase action = some (g', task', o)) :
    Change g (some (.forward operation id phase)) action g' task' := by
  unfold actForward at h
  split at h
  · obtain ⟨_, _, h⟩ := Option.map_eq_some_iff.mp h
    cases h
    refine .kept rfl rfl ?_
    cases g.createdAt.lookup id with
    | none => rfl
    | some created => dsimp only [Option.bind_some]; split <;> rfl
  · cases h
    exact .removed _ rfl rfl rfl rfl rfl rfl rfl
  · split at h
    · cases h
      exact .ended rfl rfl (.inr ⟨_, rfl⟩)
    · cases h
      exact .kept rfl rfl rfl
  · cases h
    exact .unbooked _ rfl rfl rfl rfl rfl
  · cases h
    exact .kept rfl rfl rfl
  · cases h

theorem actCreate_kind {phase : Option CreatePhase}
    (h : actCreate limits g phase action = some (g', task', o)) :
    task' = none ∨ ∃ phase', task' = some (.create phase') := by
  cases actCreate_step h with
  | closeFailed | full | refused | booked => exact .inl rfl
  | _ => exact .inr ⟨_, rfl⟩

theorem actClose_kind {id : SessionId} {phase : ClosePhase}
    (h : actClose g id phase action = some (g', task', o)) :
    task' = none ∨ ∃ phase', task' = some (.close id phase') := by
  unfold actClose at h
  split at h
  · cases h
    exact .inr ⟨_, rfl⟩
  · split at h <;> cases h
    · exact .inl rfl
    · exact .inr ⟨_, rfl⟩
  · cases h
    exact .inl rfl
  · cases h

theorem actForward_kind {operation : Operation} {id : SessionId} {phase : ForwardPhase}
    (h : actForward limits g operation id phase action = some (g', task', o)) :
    task' = none ∨ ∃ phase', task' = some (.forward operation id phase') := by
  unfold actForward at h
  split at h
  · obtain ⟨_, _, h⟩ := Option.map_eq_some_iff.mp h
    cases h
    exact .inr ⟨_, rfl⟩
  · cases h
    exact .inr ⟨_, rfl⟩
  · split at h <;> cases h
    · exact .inl rfl
    · exact .inr ⟨_, rfl⟩
  · cases h
    exact .inl rfl
  · cases h
    exact .inl rfl
  · cases h

/-- Only a step of `create_session` leaves such a call behind. -/
theorem act_create {i : ℕ} {phase' : CreatePhase}
    (h : act limits i g task action = some (g', some (.create phase'), o)) :
    ∃ phase, task = phase.map .create ∧
      CreateStep limits g phase action g' (some (.create phase')) o := by
  unfold act at h
  split at h
  · cases h
  · cases h
  · cases h
  · exact ⟨none, rfl, actCreate_step h⟩
  · exact ⟨some _, rfl, actCreate_step h⟩
  · rcases actClose_kind h with h | ⟨_, h⟩ <;> cases h
  · rcases actForward_kind h with h | ⟨_, h⟩ <;> cases h

theorem act_change {i : ℕ} (h : act limits i g task action = some (g', task', o)) :
    Change g task action g' task' := by
  unfold act at h
  split at h
  · cases h
    exact .ended rfl rfl (.inl rfl)
  · cases h
    exact .kept rfl rfl rfl
  · cases h
    refine .kept rfl rfl ?_
    dsimp only [Option.bind_some]
    split <;> rfl
  · exact actCreate_change h
  · exact actCreate_change h
  · exact actClose_change h
  · exact actForward_change h

end RustMcpCore.HardeningSessionManager
