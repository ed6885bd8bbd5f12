import Mathlib.Data.Finset.Insert
import RustMcpCore.Library.Fairness
import RustMcpCore.Runtime.Core

/-! # Debounced list-change notifications

A schedule call inserts its feature into the pending set and spawns a timer, with no
await in between; a timer that has slept flushes the feature. Every lock that a call
or a timer takes is one step, so that the others act in between.
-/
namespace RustMcpCore.ListChanged
open Library

/-- A running `schedule_registry_list_changed`. -/
inductive Call
  | started (feature : ListFeature)
  /-- The feature is enabled. Before the lock of the pending set. -/
  | enabled (feature : ListFeature)

def Call.feature : Call → ListFeature
  | .started feature | .enabled feature => feature

inductive TimerPhase
  | sleeping
  /-- In `flush_registry_list_changed`, before the lock of the pending set. -/
  | woken
  | removed
  /-- Before the hub is called. -/
  | notifying
  deriving DecidableEq

structure Timer where
  feature : ListFeature
  phase : TimerPhase
  deriving DecidableEq

structure State where
  runtime : RuntimeState
  /-- Somebody owns the runtime. -/
  alive : Bool
  calls : ℕ → Option Call
  timers : ℕ → Option Timer
  /-- The number of the next timer. -/
  spawned : ℕ

inductive Label
  /-- A reload replaces the reload state. -/
  | reload (reloadState : ReloadState)
  /-- The last owner drops the runtime. -/
  | dropRuntime
  | schedule (c : ℕ) (feature : ListFeature)
  | readEnabled (c : ℕ)
  | insert (c : ℕ)
  /-- The sleep is over, and the weak reference is upgraded or not. -/
  | wake (i : ℕ) (upgraded : Bool)
  | remove (i : ℕ)
  | readEngine (i : ℕ)
  | notify (i : ℕ)

inductive Output
  | silent
  | found (feature : ListFeature) (enabled : Bool)
  | scheduled (feature : ListFeature)
  | removed (feature : ListFeature)
  | notified (feature : ListFeature)

namespace State
variable (s : State)

def enabled (feature : ListFeature) : Bool :=
  s.runtime.reloadState.any fun state => listChangedEnabled state.engine.config feature

def pending : Finset ListFeature := s.runtime.pendingRegistryNotifications

def setPending (pending : Finset ListFeature) : State :=
  { s with runtime := { s.runtime with pendingRegistryNotifications := pending } }

def setCall (c : ℕ) (call : Option Call) : State :=
  { s with calls := Function.update s.calls c call }

def setTimer (i : ℕ) (timer : Option Timer) : State :=
  { s with timers := Function.update s.timers i timer }

def spawn (feature : ListFeature) : State :=
  { s.setTimer s.spawned (some ⟨feature, .sleeping⟩) with spawned := s.spawned + 1 }

@[simp] theorem pending_setCall (c : ℕ) (call : Option Call) :
    (s.setCall c call).pending = s.pending := rfl

end State

/-- A second schedule call for a pending feature spawns nothing. -/
def insertFeature (s : State) (feature : ListFeature) : State :=
  if feature ∈ s.pending then s else (s.setPending (insert feature s.pending)).spawn feature

def next (s : State) : Label → Option (State × Output)
  | .reload reloadState =>
    some ({ s with runtime := { s.runtime with reloadState := some reloadState } }, .silent)
  | .dropRuntime => some ({ s with alive := false }, .silent)
  | .schedule c feature =>
    match s.calls c with
    | none => some (s.setCall c (some (.started feature)), .silent)
    | some _ => none
  | .readEnabled c =>
    match s.calls c with
    | some (.started feature) =>
      some (s.setCall c (if s.enabled feature then some (.enabled feature) else none),
        .found feature (s.enabled feature))
    | _ => none
  | .insert c =>
    match s.calls c with
    | some (.enabled feature) =>
      some ((insertFeature s feature).setCall c none, .scheduled feature)
    | _ => none
  | .wake i upgraded =>
    match s.timers i with
    | some ⟨feature, .sleeping⟩ =>
      if s.alive && !upgraded then none
      else some (s.setTimer i (if upgraded then some ⟨feature, .woken⟩ else none), .silent)
    | _ => none
  | .remove i =>
    match s.timers i with
    | some ⟨feature, .woken⟩ =>
      if feature ∈ s.pending then
        some ((s.setPending (s.pending.erase feature)).setTimer i (some ⟨feature, .removed⟩),
          .removed feature)
      else some (s.setTimer i none, .silent)
    | _ => none
  | .readEngine i =>
    match s.timers i with
    | some ⟨feature, .removed⟩ =>
      match s.runtime.currentEngine with
      | .error _ => some (s.setTimer i none, .silent)
      | .ok engine =>
        some (s.setTimer i
          (if listChangedEnabled engine.config feature then some ⟨feature, .notifying⟩ else none),
          .silent)
    | _ => none
  | .notify i =>
    match s.timers i with
    | some ⟨feature, .notifying⟩ => some (s.setTimer i none, .notified feature)
    | _ => none

/-- What `Runtime::new` leaves behind: a state, and nothing pending. -/
def init (reloadState : ReloadState) : State where
  runtime := { RuntimeState.new with reloadState := some reloadState }
  alive := true
  calls := fun _ => none
  timers := fun _ => none
  spawned := 0

def machine (reloadState : ReloadState) : Machine State Label Output := ⟨init reloadState, next⟩

abbrev Event := Label × Output

/-- The steps are the same whatever the runtime starts from. -/
def Step (s : State) (e : Event) (t : State) : Prop := next s e.1 = some (t, e.2)

/-- The timer has been spawned for the feature and has not removed it yet. -/
def Outstanding (s : State) (feature : ListFeature) (i : ℕ) : Prop :=
  s.timers i = some ⟨feature, .sleeping⟩ ∨ s.timers i = some ⟨feature, .woken⟩

/-! ## What a step does -/

def Label.call : Label → Option ℕ
  | .readEnabled c | .insert c => some c
  | _ => none

def Label.timer : Label → Option ℕ
  | .wake i _ | .remove i | .readEngine i | .notify i => some i
  | _ => none

/-- The parts of the state that a step can write, and whose step it is then. -/
structure Frame (s : State) (e : Event) (t : State) : Prop where
  alive : e.1 = .dropRuntime ∧ t.alive = false ∨ t.alive = s.alive
  reloadState : (∃ state, e.1 = .reload state) ∨
    t.runtime.reloadState = s.runtime.reloadState
  calls : t.calls = s.calls ∨ ∃ c call, t.calls = Function.update s.calls c call ∧
    (e.1.call = some c ∨ ∃ feature, e.1 = .schedule c feature)
  timers : t.timers = s.timers ∨ ∃ i timer, t.timers = Function.update s.timers i timer ∧
    (e.1.timer = some i ∨ i = s.spawned)

/-- The part of a step that the pending set and the timers see. -/
inductive Change (s : State) (e : Event) (t : State) : Prop
  | kept (pending : t.pending = s.pending) (timers : t.timers = s.timers)
      (spawned : t.spawned = s.spawned) (silent : ∀ i, e.1 ≠ .notify i)
  | spawned (feature : ListFeature) (fresh : feature ∉ s.pending)
      (pending : t.pending = insert feature s.pending)
      (timers : t.timers = Function.update s.timers s.spawned (some ⟨feature, .sleeping⟩))
      (spawned : t.spawned = s.spawned + 1) (silent : ∀ i, e.1 ≠ .notify i)
  | woken (i : ℕ) (feature : ListFeature) (before : s.timers i = some ⟨feature, .sleeping⟩)
      (pending : t.pending = s.pending)
      (timers : t.timers = Function.update s.timers i (some ⟨feature, .woken⟩))
      (spawned : t.spawned = s.spawned) (silent : ∀ i, e.1 ≠ .notify i)
  | lost (i : ℕ) (feature : ListFeature) (before : s.timers i = some ⟨feature, .sleeping⟩)
      (dead : s.alive = false) (pending : t.pending = s.pending)
      (timers : t.timers = Function.update s.timers i none)
      (spawned : t.spawned = s.spawned) (silent : ∀ i, e.1 ≠ .notify i)
  | removed (i : ℕ) (feature : ListFeature) (before : s.timers i = some ⟨feature, .woken⟩)
      (shown : e = (.remove i, .removed feature)) (pending : t.pending = s.pending.erase feature)
      (timers : t.timers = Function.update s.timers i (some ⟨feature, .removed⟩))
      (spawned : t.spawned = s.spawned)
  | absent (i : ℕ) (feature : ListFeature) (before : s.timers i = some ⟨feature, .woken⟩)
      (absent : feature ∉ s.pending) (pending : t.pending = s.pending)
      (timers : t.timers = Function.update s.timers i none)
      (spawned : t.spawned = s.spawned) (silent : ∀ i, e.1 ≠ .notify i)
  | read (i : ℕ) (feature : ListFeature) (before : s.timers i = some ⟨feature, .removed⟩)
      (pending : t.pending = s.pending) (timer : Option Timer)
      (after : timer = none ∨ timer = some ⟨feature, .notifying⟩)
      (timers : t.timers = Function.update s.timers i timer)
      (spawned : t.spawned = s.spawned) (silent : ∀ i, e.1 ≠ .notify i)
  | notified (i : ℕ) (feature : ListFeature) (before : s.timers i = some ⟨feature, .notifying⟩)
      (call : e.1 = .notify i) (pending : t.pending = s.pending)
      (timers : t.timers = Function.update s.timers i none) (spawned : t.spawned = s.spawned)

variable {s t : State} {e : Event}

theorem step_frame (he : Step s e t) : Frame s e t := by
  have hown : ∀ {i : ℕ} {u : State}, e.1.timer = some i → u.alive = s.alive →
      u.runtime.reloadState = s.runtime.reloadState → u.calls = s.calls →
      (∃ timer, u.timers = Function.update s.timers i timer) → Frame s e u := by
    rintro i u hi halive hstate hcalls ⟨timer, htimers⟩
    exact ⟨.inr halive, .inr hstate, .inl hcalls, .inr ⟨i, timer, htimers, .inl hi⟩⟩
  obtain ⟨l, o⟩ := e
  unfold Step next at he
  dsimp only at he
  split at he
  · cases he
    exact ⟨.inr rfl, .inl ⟨_, rfl⟩, .inl rfl, .inl rfl⟩
  · cases he
    exact ⟨.inl ⟨rfl, rfl⟩, .inr rfl, .inl rfl, .inl rfl⟩
  · split at he <;> cases he
    exact ⟨.inr rfl, .inr rfl, .inr ⟨_, _, rfl, .inr ⟨_, rfl⟩⟩, .inl rfl⟩
  · split at he <;> cases he
    exact ⟨.inr rfl, .inr rfl, .inr ⟨_, _, rfl, .inl rfl⟩, .inl rfl⟩
  · split at he <;> cases he
    unfold insertFeature
    split
    · exact ⟨.inr rfl, .inr rfl, .inr ⟨_, _, rfl, .inl rfl⟩, .inl rfl⟩
    · exact ⟨.inr rfl, .inr rfl, .inr ⟨_, _, rfl, .inl rfl⟩, .inr ⟨_, _, rfl, .inr rfl⟩⟩
  · split at he
    · split at he <;> cases he
      exact hown rfl rfl rfl rfl ⟨_, rfl⟩
    · cases he
  · split at he
    · split at he <;> cases he <;> exact hown rfl rfl rfl rfl ⟨_, rfl⟩
    · cases he
  · split at he
    · split at he <;> cases he <;> exact hown rfl rfl rfl rfl ⟨_, rfl⟩
    · cases he
  · split at he <;> cases he
    exact hown rfl rfl rfl rfl ⟨_, rfl⟩

theorem step_change (he : Step s e t) : Change s e t := by
  obtain ⟨l, o⟩ := e
  unfold Step next at he
  dsimp only at he
  split at he
  · cases he
    exact .kept rfl rfl rfl (by simp)
  · cases he
    exact .kept rfl rfl rfl (by simp)
  · split at he <;> cases he
    exact .kept rfl rfl rfl (by simp)
  · split at he <;> cases he
    exact .kept rfl rfl rfl (by simp)
  · split at he <;> cases he
    unfold insertFeature
    split
    · exact .kept rfl rfl rfl (by simp)
    · rename_i feature _ hfresh
      exact .spawned feature hfresh rfl rfl rfl (by simp)
  · split at he
    · rename_i i upgraded _ feature hbefore
      split at he
      · cases he
      · rename_i halive
        cases he
        cases upgraded with
        | true => exact .woken i feature hbefore rfl rfl rfl (by simp)
        | false =>
          have hdead : s.alive = false := by simpa using halive
          exact .lost i feature hbefore hdead rfl rfl rfl (by simp)
    · cases he
  · split at he
    · rename_i i _ feature hbefore
      split at he <;> cases he
      · exact .removed i feature hbefore rfl rfl rfl rfl
      · rename_i habsent
        exact .absent i feature hbefore habsent rfl rfl rfl (by simp)
    · cases he
  · split at he
    · rename_i i _ feature hbefore
      split at he <;> cases he
      · exact .read i feature hbefore rfl none (.inl rfl) rfl rfl (by simp)
      · refine .read i feature hbefore rfl _ ?_ rfl rfl (by simp)
        split
        · exact .inr rfl
        · exact .inl rfl
    · cases he
  · split at he <;> cases he
    rename_i i _ feature hbefore
    exact .notified i feature hbefore rfl rfl rfl rfl

end RustMcpCore.ListChanged
