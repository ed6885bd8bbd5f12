import Mathlib.Data.List.Sort
import RustMcpCore.Clock
import RustMcpCore.Errors
import RustMcpCore.Library.Interleaving

/-! # Progress notifications

All clones of a context share a tracker. A call checks its value and notes it under the
lock of the tracker, and hands the notification to the peer after it has let go of it.
-/
namespace RustMcpCore.Progress
open Library

/-- A double. The finite ones may be any values in a line. -/
inductive F64 (α : Type)
  | finite (value : α)
  | notFinite

def F64.isFinite {α : Type} : F64 α → Bool
  | .finite _ => true
  | .notFinite => false

/-- Nanoseconds on the monotonic clock. -/
abbrev Instant := ℕ

structure ProgressState where
  enabled : Bool
  notificationInterval : Clock.Duration

def ProgressState.new (enabled : Bool) (notificationIntervalMs : UInt64) : ProgressState where
  enabled
  notificationInterval := 1000000 * notificationIntervalMs.toNat

structure ProgressStateInner (α : Type) where
  lastSentAt : Option Instant
  lastProgress : Option α

inductive ProgressToken
  | number (n : Int64)
  | string (s : String)

structure ProgressNotificationParam (α : Type) where
  progressToken : ProgressToken
  progress : F64 α
  total : Option (F64 α)
  message : Option String

/-- What a call reads of its clone of the context. -/
structure PluginContext where
  hasRequest : Bool
  progress : Option ProgressToken
  progressState : ProgressState

section Check
variable {α : Type} [LinearOrder α]

/-- `duration_since` is zero for an earlier reading of the clock. -/
def ProgressState.throttles (state : ProgressState) (lastSentAt : Option Instant) (now : Instant) :
    Bool :=
  0 < state.notificationInterval &&
    lastSentAt.any fun last => now - last < state.notificationInterval

def ProgressState.shouldSend (state : ProgressState) (inner : ProgressStateInner α)
    (progress : F64 α) (now : Instant) : Except McpError Bool × ProgressStateInner α :=
  if !state.enabled then (.ok false, inner)
  else
    match progress with
    | .notFinite => (.error (.invalidParams "progress must be a finite number" none), inner)
    | .finite progress =>
      if state.throttles inner.lastSentAt now then (.ok false, inner)
      else if inner.lastProgress.any (progress ≤ ·) then
        (.error (.invalidParams "progress must increase with each notification" none), inner)
      else (.ok true, { lastSentAt := some now, lastProgress := some progress })

/-- What passes is noted, and it is above what was noted before. -/
theorem ProgressState.shouldSend_passed {state : ProgressState}
    {inner inner' : ProgressStateInner α} {progress : F64 α} {now : Instant}
    (h : state.shouldSend inner progress now = (.ok true, inner')) :
    ∃ value, progress = .finite value ∧ inner'.lastProgress = some value ∧
      ∀ last, inner.lastProgress = some last → last < value := by
  unfold shouldSend at h
  split at h
  · cases h
  · split at h
    · cases h
    · rename_i value
      split at h
      · cases h
      · split at h
        · cases h
        · rename_i hlast
          cases h
          refine ⟨value, rfl, rfl, fun last hnoted => ?_⟩
          rw [hnoted, Option.any_some, decide_eq_true_iff, not_le] at hlast
          exact hlast

/-- What does not pass is not noted. -/
theorem ProgressState.shouldSend_held {state : ProgressState}
    {inner inner' : ProgressStateInner α} {progress : F64 α} {now : Instant}
    {result : Except McpError Bool} (h : state.shouldSend inner progress now = (result, inner'))
    (hheld : result ≠ .ok true) : inner' = inner := by
  unfold shouldSend at h
  split at h
  · cases h
    rfl
  · split at h
    · cases h
      rfl
    · split at h
      · cases h
        rfl
      · split at h
        · cases h
          rfl
        · cases h
          exact absurd rfl hheld

end Check

/-! ## Concurrent calls -/

structure Shared (α : Type) where
  tracker : ProgressStateInner α
  /-- What the peer has been given, in order. -/
  wire : List (ProgressNotificationParam α)

/-- Where a call of `notify_progress` is. -/
inductive Phase (α : Type)
  | checking (state : ProgressState) (param : ProgressNotificationParam α)
  | sending (param : ProgressNotificationParam α)

inductive Action (α : Type)
  | call (ctx : PluginContext) (progress : F64 α) (total : Option (F64 α)) (message : Option String)
  /-- The lock is taken, the value checked and the lock let go. -/
  | check (now : Instant)
  /-- The peer takes the notification or fails with a text. -/
  | send (outcome : Except String Unit)
  /-- The future is dropped at an await. -/
  | drop

structure Shown (α : Type) where
  passed : Option (ProgressNotificationParam α) := none
  ended : Option (Except McpError Bool) := none

/-- `notify_progress` up to the check. -/
def begin {α : Type} (ctx : PluginContext) (progress : F64 α) (total : Option (F64 α))
    (message : Option String) : Except McpError (Option (Phase α)) :=
  if !ctx.hasRequest then .ok none
  else
    match ctx.progress with
    | none => .ok none
    | some progressToken =>
      if total.any (!·.isFinite) then .error (.invalidParams "total must be a finite number" none)
      else
        .ok (some (.checking ctx.progressState { progressToken, progress, total, message }))

variable {α : Type} [LinearOrder α]

def notifyProgress (shared : Shared α) :
    Option (Phase α) → Action α → Option (Shared α × Option (Phase α) × Shown α)
  | none, .call ctx progress total message =>
    match begin ctx progress total message with
    | .ok (some phase) => some (shared, some phase, {})
    | .ok none => some (shared, none, { ended := some (.ok false) })
    | .error error => some (shared, none, { ended := some (.error error) })
  | some (.checking state param), .check now =>
    match state.shouldSend shared.tracker param.progress now with
    | (.ok true, tracker) => some ({ shared with tracker }, some (.sending param), { passed := some param })
    | (result, tracker) => some ({ shared with tracker }, none, { ended := some result })
  | some (.sending param), .send (.ok ()) =>
    some ({ shared with wire := shared.wire ++ [param] }, none, { ended := some (.ok true) })
  | some (.sending _), .send (.error error) =>
    some (shared, none,
      { ended := some (.error (.internalError s!"failed to send progress notification: {error}" none)) })
  | some _, .drop => some (shared, none, {})
  | _, _ => none

/-- The calls of one tool call. -/
def program (α : Type) [LinearOrder α] : Program (Shared α) (Phase α) (Action α) (Shown α) where
  init := ⟨⟨none, none⟩, []⟩
  act _ shared phase action := notifyProgress shared phase action

abbrev State (α : Type) := World (Shared α) (Phase α)

/-- The notifications in the order in which their checks passed. -/
def passed (es : List (Event (Action α) (Shown α))) : List (ProgressNotificationParam α) :=
  es.filterMap fun e => e.2.passed

def Increases (param next : ProgressNotificationParam α) : Prop :=
  ∃ value above, param.progress = .finite value ∧ next.progress = .finite above ∧ value < above

instance : Std.Antisymm (Increases (α := α)) where
  antisymm := by
    rintro param next ⟨value, above, hparam, hnext, hlt⟩ ⟨value', above', hnext', hparam', hlt'⟩
    rw [hparam] at hparam'
    rw [hnext] at hnext'
    cases hparam'
    cases hnext'
    exact absurd hlt' hlt.not_gt

/-- What a call can do in one step. -/
inductive Stepped (shared shared' : Shared α) (phase : Option (Phase α)) :
    Option (Phase α) → Shown α → Prop
  | quiet {phase' : Option (Phase α)} {shown : Shown α} (nothing : shown.passed = none)
      (same : shared' = shared) (unsent : ∀ param, phase' ≠ some (.sending param)) :
      Stepped shared shared' phase phase' shown
  | checked {param : ProgressNotificationParam α} {value : α}
      (progress : param.progress = .finite value)
      (above : ∀ last, shared.tracker.lastProgress = some last → last < value)
      (noted : shared'.tracker.lastProgress = some value) (wire : shared'.wire = shared.wire) :
      Stepped shared shared' phase (some (.sending param)) { passed := some param }
  | sent {param : ProgressNotificationParam α} {shown : Shown α} (nothing : shown.passed = none)
      (sending : phase = some (.sending param)) (tracker : shared'.tracker = shared.tracker)
      (wire : shared'.wire = shared.wire ++ [param]) : Stepped shared shared' phase none shown

variable {s t : State α} {e : Event (Action α) (Shown α)} {es : List (Event (Action α) (Shown α))}

omit [LinearOrder α] in
theorem begin_checking {ctx : PluginContext} {progress : F64 α} {total : Option (F64 α)}
    {message : Option String} {phase : Phase α}
    (h : begin ctx progress total message = .ok (some phase)) :
    ∀ param, phase ≠ .sending param := by
  unfold begin at h
  split at h
  · cases h
  · split at h
    · cases h
    · split at h
      · cases h
      · cases h
        nofun

theorem notifyProgress_cases {shared shared' : Shared α} {phase phase' : Option (Phase α)}
    {action : Action α} {shown : Shown α}
    (h : notifyProgress shared phase action = some (shared', phase', shown)) :
    Stepped shared shared' phase phase' shown := by
  unfold notifyProgress at h
  split at h
  · split at h
    · rename_i hbegin
      cases h
      exact .quiet rfl rfl fun param heq => begin_checking hbegin param (Option.some.inj heq)
    · cases h
      exact .quiet rfl rfl nofun
    · cases h
      exact .quiet rfl rfl nofun
  · split at h
    · rename_i hpassed
      cases h
      obtain ⟨value, hprogress, hnoted, habove⟩ := ProgressState.shouldSend_passed hpassed
      exact .checked hprogress habove hnoted rfl
    · rename_i hheld hsend
      cases h
      have htracker := ProgressState.shouldSend_held hsend hheld
      refine .quiet rfl ?_ nofun
      rw [htracker]
  · cases h
    exact .sent rfl rfl rfl rfl
  · cases h
    exact .quiet rfl rfl nofun
  · cases h
    exact .quiet rfl rfl nofun
  · cases h

/-- What the tracker, the calls and the wire know of the checks that have passed. -/
structure Tracked (es : List (Event (Action α) (Shown α))) (s : State α) : Prop where
  increasing : (passed es).Pairwise Increases
  noted : ∀ param ∈ passed es, ∃ value last, param.progress = .finite value ∧
    s.shared.tracker.lastProgress = some last ∧ value ≤ last
  sending : ∀ i param, s.tasks i = some (.sending param) → param ∈ passed es
  wire : ∀ param ∈ s.shared.wire, param ∈ passed es

omit [LinearOrder α] in
theorem passed_append : passed (es ++ [e]) = passed es ++ e.2.passed.toList := by
  unfold passed
  rw [List.filterMap_append]
  cases hpassed : e.2.passed with
  | none => simp [hpassed]
  | some param => simp [hpassed]

/-- A step that no check passes in. -/
theorem Tracked.unpassed (hs : Tracked es s) (hpassed : e.2.passed = none)
    (htracker : t.shared.tracker = s.shared.tracker)
    (hsending : ∀ i param, t.tasks i = some (.sending param) → param ∈ passed es)
    (hwire : ∀ param ∈ t.shared.wire, param ∈ passed es) : Tracked (es ++ [e]) t := by
  have hsame : passed (es ++ [e]) = passed es := by
    rw [passed_append, hpassed, Option.toList_none, List.append_nil]
  constructor
  · rw [hsame]
    exact hs.increasing
  · rw [hsame, htracker]
    exact hs.noted
  · rw [hsame]
    exact hsending
  · rw [hsame]
    exact hwire

theorem step_tracked (hs : Tracked es s) (he : (program α).machine.Step s e t) :
    Tracked (es ++ [e]) t := by
  have hact : notifyProgress s.shared (s.tasks e.1.1) e.1.2 = some (t.shared, t.tasks e.1.1, e.2) :=
    Program.step_self he
  have hstep := notifyProgress_cases hact
  have hother : ∀ i param, i ≠ e.1.1 → t.tasks i = some (.sending param) →
      param ∈ passed es := by
    intro i param hi hsending
    rw [Program.step_other he hi] at hsending
    exact hs.sending i param hsending
  generalize htask : t.tasks e.1.1 = task at hstep
  generalize hshown : e.2 = shown at hstep
  cases hstep with
  | quiet nothing same unsent =>
    refine hs.unpassed (hshown ▸ nothing) (congrArg _ same) ?_ ?_
    · intro i param hsending
      by_cases hi : i = e.1.1
      · rw [hi, htask] at hsending
        exact absurd hsending (unsent param)
      · exact hother i param hi hsending
    · rw [same]
      exact hs.wire
  | @checked param value progress above noted wire =>
    have hpassed : passed (es ++ [e]) = passed es ++ [param] := by
      rw [passed_append, hshown]
      rfl
    have hbelow : ∀ old ∈ passed es, Increases old param := by
      intro old hold
      obtain ⟨oldValue, last, hvalue, hlast, hle⟩ := hs.noted old hold
      exact ⟨oldValue, value, hvalue, progress, lt_of_le_of_lt hle (above last hlast)⟩
    constructor
    · rw [hpassed, List.pairwise_append]
      refine ⟨hs.increasing, List.pairwise_singleton _ _, fun old hold next hnext => ?_⟩
      rw [List.mem_singleton.mp hnext]
      exact hbelow old hold
    · intro old hold
      rw [hpassed, List.mem_append, List.mem_singleton] at hold
      rcases hold with hold | rfl
      · obtain ⟨oldValue, above', hvalue, habove, hlt⟩ := hbelow old hold
        rw [progress] at habove
        cases habove
        exact ⟨oldValue, value, hvalue, noted, hlt.le⟩
      · exact ⟨value, value, progress, noted, le_refl value⟩
    · intro i next hsending
      rw [hpassed, List.mem_append, List.mem_singleton]
      by_cases hi : i = e.1.1
      · rw [hi, htask] at hsending
        cases hsending
        exact .inr rfl
      · exact .inl (hother i next hi hsending)
    · intro next hnext
      rw [wire] at hnext
      rw [hpassed]
      exact List.mem_append_left _ (hs.wire next hnext)
  | @sent param _ nothing sending tracker wire =>
    refine hs.unpassed (hshown ▸ nothing) tracker ?_ ?_
    · intro i next hsending
      by_cases hi : i = e.1.1
      · rw [hi, htask] at hsending
        cases hsending
      · exact hother i next hi hsending
    · intro next hnext
      rw [wire, List.mem_append, List.mem_singleton] at hnext
      rcases hnext with hnext | rfl
      · exact hs.wire next hnext
      · exact hs.sending _ _ sending

/-- The wire increases exactly if the notifications are sent in the order of their checks. -/
theorem wire_increasing_iff (hr : Runs (program α).machine.Step (program α).machine.init es s) :
    s.shared.wire.Pairwise Increases ↔ s.shared.wire.Sublist (passed es) := by
  have htracked : Tracked es s := hr.history Tracked (fun _ _ _ _ => step_tracked)
    ⟨.nil, nofun, nofun, nofun⟩
  constructor
  · intro hwire
    have hnodup : s.shared.wire.Nodup := by
      refine hwire.imp ?_
      rintro param next ⟨value, above, hparam, hnext, hlt⟩ heq
      rw [heq, hnext] at hparam
      cases hparam
      exact lt_irrefl _ hlt
    exact List.sublist_of_subperm_of_pairwise (List.subperm_of_subset hnodup htracked.wire) hwire
      htracked.increasing
  · exact fun hsent => List.Pairwise.sublist hsent htracked.increasing

/-! ## Two calls at once -/

namespace Reports

def ctx : PluginContext where
  hasRequest := true
  progress := some (.number 1)
  progressState := .new true 250

/-- Both calls have passed their checks, the one with the lower value first. -/
def checks : List (ℕ × Action ℕ) :=
  [(0, .call ctx (.finite 1) none none), (1, .call ctx (.finite 2) none none),
    (0, .check 0), (1, .check 300000000)]

def param (value : ℕ) : ProgressNotificationParam ℕ where
  progressToken := .number 1
  progress := .finite value
  total := none
  message := none

end Reports

theorem wire_increasing_ordered : ∃ es s,
    Runs (program ℕ).machine.Step (program ℕ).machine.init es s ∧
      s.shared.wire = [Reports.param 1, Reports.param 2] ∧ s.shared.wire.Pairwise Increases := by
  have hr := @Machine.runs_of_execute _ _ _ (program ℕ).machine (program ℕ).machine.init _
    (Reports.checks ++ [(0, .send (.ok ())), (1, .send (.ok ()))]) _ rfl
  exact ⟨_, _, hr, rfl, (wire_increasing_iff hr).mpr (.refl _)⟩

/-- The call that was checked later sends first. -/
theorem wire_decreases : ∃ es s,
    Runs (program ℕ).machine.Step (program ℕ).machine.init es s ∧
      s.shared.wire = [Reports.param 2, Reports.param 1] ∧ ¬ s.shared.wire.Pairwise Increases := by
  have hr := @Machine.runs_of_execute _ _ _ (program ℕ).machine (program ℕ).machine.init _
    (Reports.checks ++ [(1, .send (.ok ())), (0, .send (.ok ()))]) _ rfl
  refine ⟨_, _, hr, rfl, fun hwire => ?_⟩
  obtain ⟨value, above, hvalue, habove, hlt⟩ := List.rel_of_pairwise_cons hwire List.mem_cons_self
  cases hvalue
  cases habove
  exact absurd hlt (by decide)

end RustMcpCore.Progress
