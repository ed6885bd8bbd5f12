import RustMcpCore.Plugins.Registry
import RustMcpCore.Runtime.Coalescing

/-! # The registry event worker

The clones of a registry send their events through one bounded broadcast channel.
The worker receives one event after the other and schedules the feature of each; a
receiver that is too slow loses the oldest events and is told how many they were.
While the runtime is alive it owns a sender, so the channel does not close.
-/
namespace RustMcpCore.RegistryEvents
open Library

def featureOf : RegistryEvent → ListFeature
  | .toolChanged => .tools
  | .promptChanged => .prompts
  | .resourceChanged => .resources

def capacity : ℕ := 64

/-- The channel as the receiver of the worker sees it. -/
structure Channel where
  unread : List RegistryEvent
  /-- How many unread events have been overwritten and not been reported. -/
  skipped : ℕ

def Channel.send (channel : Channel) (event : RegistryEvent) : Channel :=
  if channel.unread.length < capacity then
    { channel with unread := channel.unread ++ [event] }
  else ⟨channel.unread.tail ++ [event], channel.skipped + 1⟩

/-- The event that the next one overwrites. -/
def Channel.overwritten (channel : Channel) : Option RegistryEvent :=
  if channel.unread.length < capacity then none else channel.unread.head?

structure State where
  listChanged : ListChanged.State
  channel : Channel
  /-- The event that the worker has received and not acted on. -/
  received : Option RegistryEvent
  /-- The worker has found the runtime gone. -/
  stopped : Bool

inductive Label
  | listChanged (l : ListChanged.Label)
  /-- Somebody changes a clone of the registry. -/
  | operate (registry : PluginRegistry) (operation : PluginRegistry.Operation)
  | recv
  | upgrade (upgraded : Bool)

inductive Output
  | silent
  | listChanged (o : ListChanged.Output)
  | operated
  | failed (error : McpError)
  | received (event : RegistryEvent)
  | lagged (skipped : ℕ)
  | scheduling (event : RegistryEvent)

/-- The number of the schedule calls of the worker, who makes one after the other. -/
def workerCall : ℕ := 0

def next (s : State) : Label → Option (State × Output)
  | .listChanged (.schedule _ _) => none
  | .listChanged l =>
    (ListChanged.next s.listChanged l).map fun r =>
      ({ s with listChanged := r.1 }, .listChanged r.2)
  | .operate registry operation =>
    match registry.operate operation with
    | .error error => some (s, .failed error)
    | .ok (_, none) => some (s, .operated)
    | .ok (_, some event) => some ({ s with channel := s.channel.send event }, .operated)
  | .recv =>
    if s.stopped || s.received.isSome || (s.listChanged.calls workerCall).isSome then none
    else if 0 < s.channel.skipped then
      some ({ s with channel := { s.channel with skipped := 0 } }, .lagged s.channel.skipped)
    else
      match s.channel.unread with
      | [] => none
      | event :: rest =>
        some ({ s with channel := { s.channel with unread := rest }, received := some event },
          .received event)
  | .upgrade upgraded =>
    match s.received with
    | none => none
    | some event =>
      if upgraded then
        (ListChanged.next s.listChanged (.schedule workerCall (featureOf event))).map
          fun r => ({ s with listChanged := r.1, received := none }, .scheduling event)
      else if s.listChanged.alive then none
      else some ({ s with received := none, stopped := true }, .silent)

/-- The worker has just subscribed. -/
def init (reloadState : ReloadState) : State where
  listChanged := ListChanged.init reloadState
  channel := ⟨[], 0⟩
  received := none
  stopped := false

def machine (reloadState : ReloadState) : Machine State Label Output := ⟨init reloadState, next⟩

abbrev Event := Label × Output

def Step (s : State) (e : Event) (t : State) : Prop := next s e.1 = some (t, e.2)

/-! ## What a step does -/

/-- The event that an operation sends, if it succeeds. -/
def sends (e : Event) : Option RegistryEvent :=
  match e with
  | (.operate _ operation, .operated) => PluginRegistry.emitTypeEvent operation.pluginType
  | _ => none

inductive Change (s : State) (e : Event) (t : State) : Prop
  | listChanged (l : ListChanged.Label) (o : ListChanged.Output)
      (shown : e = (.listChanged l, .listChanged o))
      (inner : ListChanged.Step s.listChanged (l, o) t.listChanged)
      (other : ∀ c feature, l ≠ .schedule c feature)
      (after : t = { s with listChanged := t.listChanged })
  | unsent (registry : PluginRegistry) (operation : PluginRegistry.Operation)
      (call : e.1 = .operate registry operation) (silent : sends e = none) (after : t = s)
  | sent (event : RegistryEvent) (shown : sends e = some event)
      (after : t = { s with channel := s.channel.send event })
  | lagged (call : e.1 = .recv) (waiting : s.received = none)
      (free : s.listChanged.calls workerCall = none) (behind : 0 < s.channel.skipped)
      (after : t = { s with channel := { s.channel with skipped := 0 } })
  | received (call : e.1 = .recv) (event : RegistryEvent) (rest : List RegistryEvent)
      (waiting : s.received = none) (free : s.listChanged.calls workerCall = none)
      (level : s.channel.skipped = 0) (first : s.channel.unread = event :: rest)
      (after : t = { s with channel := { s.channel with unread := rest },
                            received := some event })
  | scheduled (event : RegistryEvent) (shown : e = (.upgrade true, .scheduling event))
      (holding : s.received = some event)
      (inner : ListChanged.Step s.listChanged
        (.schedule workerCall (featureOf event), .silent) t.listChanged)
      (after : t = { s with listChanged := t.listChanged, received := none })
  | stopped (call : e.1 = .upgrade false) (event : RegistryEvent)
      (holding : s.received = some event) (dead : s.listChanged.alive = false)
      (after : t = { s with received := none, stopped := true })

variable {s t : State} {e : Event} {reloadState : ReloadState}

theorem step_change (he : Step s e t) : Change s e t := by
  obtain ⟨l, o⟩ := e
  unfold Step next at he
  dsimp only at he
  split at he
  · cases he
  · rename_i l hl
    obtain ⟨⟨u, o'⟩, hinner, he⟩ := Option.map_eq_some_iff.mp he
    cases he
    exact .listChanged l o' rfl hinner (fun c feature h => hl c feature h) rfl
  · rename_i registry operation
    split at he
    · cases he
      exact .unsent registry operation rfl rfl rfl
    · rename_i hok
      cases he
      exact .unsent registry operation rfl (PluginRegistry.operate_event hok).symm rfl
    · rename_i changed event hok
      cases he
      exact .sent event (PluginRegistry.operate_event hok).symm rfl
  · split at he
    · cases he
    · rename_i hidle
      simp only [Bool.or_eq_true, not_or, Bool.not_eq_true, Option.isSome_eq_false_iff,
        Option.isNone_iff_eq_none] at hidle
      obtain ⟨⟨_, hwaiting⟩, hfree⟩ := hidle
      split at he
      · rename_i hbehind
        cases he
        exact .lagged rfl hwaiting hfree hbehind rfl
      · rename_i hlevel
        split at he
        · cases he
        · rename_i event rest hfirst
          cases he
          exact .received rfl event rest hwaiting hfree (Nat.eq_zero_of_not_pos hlevel) hfirst rfl
  · split at he
    · cases he
    · rename_i upgraded _ event hholding
      split at he
      · rename_i hupgraded
        obtain ⟨⟨u, o'⟩, hinner, he⟩ := Option.map_eq_some_iff.mp he
        cases he
        subst hupgraded
        have hsilent : o' = .silent := by
          unfold ListChanged.next at hinner
          dsimp only at hinner
          split at hinner <;> cases hinner
          rfl
        subst hsilent
        exact .scheduled event rfl hholding hinner rfl
      · rename_i hupgraded
        split at he
        · cases he
        · rename_i hdead
          cases he
          rw [Bool.not_eq_true] at hupgraded hdead
          subst hupgraded
          exact .stopped rfl event hholding hdead rfl

/-- The worker makes its schedule calls one after the other, and stops only when the
runtime is gone. -/
structure Sound (s : State) : Prop where
  timers : ListChanged.OneTimer s.listChanged
  waiting : s.received ≠ none → s.listChanged.calls workerCall = none
  running : s.listChanged.alive = true → s.stopped = false

theorem step_sound (hs : Sound s) (he : Step s e t) : Sound t := by
  cases step_change he with
  | listChanged l o shown inner other after =>
    refine ⟨ListChanged.step_oneTimer hs.timers inner, ?_, ?_⟩
    · intro h
      rw [after] at h
      have hfree := hs.waiting h
      by_cases hown : l.call = some workerCall
      · exact absurd ⟨_, _, inner, hown⟩ (ListChanged.call_stopped hfree)
      · rw [ListChanged.step_calls_other inner hown (other _), hfree]
    · intro h
      rw [after]
      exact hs.running (ListChanged.alive_of_step inner h)
  | unsent _ _ _ _ after => rwa [after]
  | sent _ _ after =>
    rw [after]
    exact ⟨hs.timers, hs.waiting, hs.running⟩
  | lagged _ _ _ _ after =>
    rw [after]
    exact ⟨hs.timers, hs.waiting, hs.running⟩
  | received _ _ _ _ free _ _ after =>
    rw [after]
    exact ⟨hs.timers, fun _ => free, hs.running⟩
  | scheduled event _ holding inner after =>
    refine ⟨ListChanged.step_oneTimer hs.timers inner, ?_, ?_⟩
    · intro h
      rw [after] at h
      exact absurd rfl h
    · intro h
      rw [after]
      exact hs.running (ListChanged.alive_of_step inner h)
  | stopped _ _ _ dead after =>
    rw [after]
    refine ⟨hs.timers, fun h => absurd rfl h, fun h => ?_⟩
    rw [dead] at h
    cases h

theorem init_sound : Sound (init reloadState) :=
  ⟨ListChanged.init_oneTimer, fun h => absurd rfl h, fun _ => rfl⟩

end RustMcpCore.RegistryEvents
