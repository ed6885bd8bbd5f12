import RustMcpCore.Tasks.Entries
import RustMcpCore.Library.WriteOnce

/-! # The life of a task

Under any interleaving the record of one task is a cell that is written at most
once: the store, seen through one id, simulates `Library.Cell`. The only
assumption is that the ids issued in the run differ.
-/
namespace RustMcpCore.TaskStore
open Library
variable {env : Platform} {s t : State} {e : Event}

/-- The first `n` ids are pairwise different. -/
def FreshIds (env : Platform) (n : ℕ) : Prop :=
  ∀ i < n, ∀ j < n, env.newV4 i = env.newV4 j → i = j

theorem FreshIds.mono {n m : ℕ} (h : FreshIds env n) (hle : m ≤ n) : FreshIds env m :=
  fun i hi j hj => h i (hi.trans_le hle) j (hj.trans_le hle)

/-- The result field and the status of a record tell the same story. -/
structure Consistent (entry : TaskEntry) : Prop where
  isSome_iff : entry.terminalResult.isSome = isTerminal entry.task.status
  agrees : ∀ result, entry.terminalResult = some result → StatusAgrees entry.task.status result

structure WellFormed (env : Platform) (s : State) : Prop where
  consistent : ∀ taskId entry, s.stored taskId = some entry → Consistent entry
  issued : ∀ taskId entry, s.stored taskId = some entry → ∃ k < s.issued, env.newV4 k = taskId

theorem init_wellFormed : WellFormed env .init where
  consistent _ _ h := by cases h
  issued _ _ h := by cases h

theorem step_wellFormed (hs : WellFormed env s) (he : (machine env).Step s e t) :
    WellFormed env t := by
  have hle := step_issued he
  have older : ∀ {taskId entry}, s.stored taskId = some entry →
      ∃ k < t.issued, env.newV4 k = taskId := by
    intro taskId entry h
    obtain ⟨k, hk, hid⟩ := hs.issued taskId entry h
    exact ⟨k, Nat.lt_of_lt_of_le hk hle, hid⟩
  constructor
  · intro taskId entry h
    cases step_entry taskId he with
    | gone _ after => rw [after] at h; cases h
    | kept _ before after =>
      rw [after] at h
      cases h
      have hc := hs.consistent taskId _ before
      exact ⟨hc.isSome_iff, hc.agrees⟩
    | created _ _ _ after working noResult =>
      rw [after] at h
      cases h
      exact ⟨by rw [working, noResult]; rfl, by simp [noResult]⟩
    | settled _ _ _ after stores _ agrees =>
      rw [after] at h
      cases h
      exact ⟨by rw [stores, agrees.isTerminal]; rfl, by simpa [stores] using agrees⟩
  · intro taskId entry h
    cases step_entry taskId he with
    | gone _ after => rw [after] at h; cases h
    | kept _ before => exact older before
    | created _ key count => exact ⟨s.issued, by omega, key⟩
    | settled _ before => exact older before

theorem Runs.wellFormed {es : List Event} (hr : Runs (machine env).Step s es t)
    (hs : WellFormed env s) : WellFormed env t :=
  hr.invariant (WellFormed env) (fun _ _ _ h he => step_wellFormed h he) hs

/-! ## The simulation -/

/-- One task as a cell that holds its status and result. -/
def view (env : Platform) (taskId : String) (s : State) : Cell (TaskStatus × TerminalResult) :=
  match s.stored taskId with
  | some entry =>
    match entry.terminalResult with
    | some result => .settled (entry.task.status, result)
    | none => .pending
  | none => if ∃ k < s.issued, env.newV4 k = taskId then .removed else .unborn

theorem cellEvent_eq_settle {taskId : String} {v : TaskStatus × TerminalResult} :
    cellEvent taskId e = .settle v ↔ settles taskId e = some v := by
  unfold cellEvent
  split <;> (try split) <;> simp_all

theorem cellEvent_eq_observe {taskId : String} {result : TerminalResult}
    (h : shows taskId e = some result) : cellEvent taskId e = .observe result := by
  unfold shows at h
  split at h
  · rw [Option.ite_none_right_eq_some] at h
    obtain ⟨rfl, h⟩ := h
    cases h
    simp [cellEvent, settles, shows]
  · cases h

theorem written_map_cellEvent (taskId : String) (es : List Event) :
    Cell.written (es.map (cellEvent taskId)) = es.filterMap (settles taskId) := by
  rw [Cell.written, List.filterMap_map]
  congr 1
  funext e
  apply Option.ext
  intro v
  rw [← cellEvent_eq_settle]
  cases h : cellEvent taskId e <;> simp [h]

theorem view_eq_settled {taskId : String} {status : TaskStatus} {result : TerminalResult} :
    view env taskId s = .settled (status, result) ↔ ∃ entry, s.stored taskId = some entry ∧
      entry.task.status = status ∧ entry.terminalResult = some result := by
  unfold view
  cases s.stored taskId with
  | none => dsimp only; split <;> simp
  | some entry =>
    cases hr : entry.terminalResult with
    | none => simp [hr]
    | some r => simp [hr]

theorem view_eq_pending {taskId : String} {entry : TaskEntry} (hs : s.stored taskId = some entry)
    (hr : entry.terminalResult = none) : view env taskId s = .pending := by
  simp only [view, hs, hr]

theorem view_of_none {taskId : String} (hs : s.stored taskId = none) :
    view env taskId s = if ∃ k < s.issued, env.newV4 k = taskId then .removed else .unborn := by
  simp only [view, hs]

theorem view_kept {taskId : String} {entry : TaskEntry} (handle : Option JoinHandle)
    (hs : s.stored taskId = some entry) (ht : t.stored taskId = some { entry with handle }) :
    view env taskId t = view env taskId s := by
  simp only [view, hs, ht]

theorem view_ne_unborn {taskId : String} {entry : TaskEntry} (hs : s.stored taskId = some entry) :
    view env taskId s ≠ .unborn := by
  simp only [view, hs]
  split <;> simp

theorem view_of_issued {taskId : String} {k : ℕ} (hs : s.stored taskId = none)
    (hk : k < s.issued) (hid : env.newV4 k = taskId) : view env taskId s = .removed := by
  rw [view_of_none hs, if_pos ⟨k, hk, hid⟩]

/-- The store moves one task as a cell that is written once. -/
theorem step_view (hs : WellFormed env s) (he : (machine env).Step s e t)
    (hid : FreshIds env t.issued) (taskId : String) :
    Cell.Step Prod.snd (view env taskId s) (cellEvent taskId e) (view env taskId t) := by
  cases step_entry taskId he with
  | gone idle after ids =>
    rw [idle]
    have hle := step_issued he
    cases hb : s.stored taskId with
    | some entry =>
      obtain ⟨k, hk, hkey⟩ := hs.issued taskId entry hb
      rw [view_of_issued after (Nat.lt_of_lt_of_le hk hle) hkey]
      exact .lapse (view_ne_unborn hb)
    | none =>
      have hsame : view env taskId t = view env taskId s := by
        rw [view_of_none hb, view_of_none after]
        rcases ids with ids | ⟨ids, hne⟩
        · rw [ids]
        · simp only [ids, Nat.lt_succ_iff_lt_or_eq, or_and_right, exists_or, exists_eq_left, hne,
            or_false]
      rw [hsame]
      exact .idle _
  | kept handle before after idle =>
    rw [view_kept handle before after]
    rcases idle with idle | ⟨result, observe, hr⟩
    · rw [idle]; exact .idle _
    · rw [observe, view_eq_settled.mpr ⟨_, before, rfl, hr⟩]
      exact .observe _
  | created create key count after working noResult =>
    have hfresh : ¬ ∃ k < s.issued, env.newV4 k = taskId := by
      rintro ⟨k, hk, hkey⟩
      have := hid k (by omega) s.issued (by omega) (hkey.trans key.symm)
      omega
    have hb : s.stored taskId = none := by
      cases hb : s.stored taskId with
      | none => rfl
      | some entry => exact absurd (hs.issued taskId entry hb) hfresh
    rw [create, view_of_none hb, if_neg hfresh, view_eq_pending after noResult]
    exact .create
  | settled entry' before isOpen after stores settle =>
    have hc := hs.consistent taskId _ before
    have hn := hc.isSome_iff.trans isOpen
    rw [Option.isSome_eq_false_iff, Option.isNone_iff_eq_none] at hn
    rw [settle, view_eq_pending before hn, view_eq_settled.mpr ⟨entry', after, rfl, stores⟩]
    exact .settle _

/-- A run, read through one id, is a run of its cell. -/
theorem Runs.view {es : List Event} (hr : Runs (machine env).Step s es t)
    (hs : WellFormed env s) (hid : FreshIds env t.issued) (taskId : String) :
    Runs (Cell.Step Prod.snd) (view env taskId s) (es.map (cellEvent taskId))
      (view env taskId t) := by
  have hb := (Runs.bounded (fun _ _ _ he => step_issued he) hr (le_refl t.issued)).1
  refine hb.simulate (WellFormed env) (TaskStore.view env taskId) (cellEvent taskId) ?_ ?_ hs
  · exact fun _ _ _ h he => step_wellFormed h he.1
  · intro a e b ha he
    refine step_view ha he.1 ?_ taskId
    exact fun i hi j hj => hid i (Nat.lt_of_lt_of_le hi he.2) j (Nat.lt_of_lt_of_le hj he.2)

/-! ## The life of a task -/

/-- A terminal record keeps its status and result as long as it is stored. -/
theorem Runs.terminal_stable {es : List Event} (hr : Runs (machine env).Step s es t)
    (hs : WellFormed env s) (hid : FreshIds env t.issued) {taskId : String}
    {entry entry' : TaskEntry} (hb : s.stored taskId = some entry)
    (ht : isTerminal entry.task.status = true) (ha : t.stored taskId = some entry') :
    entry'.task.status = entry.task.status ∧ entry'.terminalResult = entry.terminalResult := by
  have hsome := (hs.consistent taskId entry hb).isSome_iff.trans ht
  obtain ⟨result, hres⟩ := Option.isSome_iff_exists.mp hsome
  have hcell := Runs.view hr hs hid taskId
  rw [view_eq_settled.mpr ⟨entry, hb, rfl, hres⟩] at hcell
  rcases (Cell.Runs.from_settled hcell).1 with hv | hv
  · obtain ⟨entry'', ha', hstatus, hres'⟩ := view_eq_settled.mp hv
    rw [ha] at ha'
    cases ha'
    exact ⟨hstatus, hres'.trans hres.symm⟩
  · simp only [TaskStore.view, ha] at hv
    split at hv <;> cases hv

/-- At most one finish or cancel takes effect on a task. -/
theorem Runs.settles_le_one {es : List Event} (hr : Runs (machine env).Step s es t)
    (hs : WellFormed env s) (hid : FreshIds env t.issued) (taskId : String) :
    (es.filterMap (settles taskId)).length ≤ 1 := by
  rw [← written_map_cellEvent]
  exact Cell.Runs.written_le_one (Runs.view hr hs hid taskId)

/-- What waiters return for a task is the result of the one finish or cancel that
took effect on it. -/
theorem Runs.shown_settled {es : List Event} (hr : Runs (machine env).Step .init es t)
    (hid : FreshIds env t.issued) {taskId : String} {result : TerminalResult}
    (ho : ∃ e ∈ es, shows taskId e = some result) :
    ∃ status, es.filterMap (settles taskId) = [(status, result)] := by
  have hcell := Runs.view hr init_wellFormed hid taskId
  obtain ⟨e, he, hshow⟩ := ho
  have hm : .observe result ∈ es.map (cellEvent taskId) :=
    List.mem_map.mpr ⟨e, he, cellEvent_eq_observe hshow⟩
  obtain ⟨⟨status, result'⟩, rfl, hv | ⟨before, after, hes, _⟩⟩ :=
    Cell.Runs.observed_written hcell hm
  · obtain ⟨_, hstored, _⟩ := view_eq_settled.mp hv
    cases hstored
  · refine ⟨status, ?_⟩
    have hle := Runs.settles_le_one hr init_wellFormed hid taskId
    have hmem : (status, result') ∈ es.filterMap (settles taskId) := by
      rw [← written_map_cellEvent, hes]
      simp [Cell.written]
    obtain ⟨v, hv⟩ := List.length_eq_one_iff.mp (le_antisymm hle (List.length_pos_of_mem hmem))
    rw [hv, List.mem_singleton] at hmem
    rw [hv, ← hmem]

theorem shown_stored {taskId : String} {result : TerminalResult}
    (he : (machine env).Step s e t) (ho : shows taskId e = some result) :
    ∃ entry, s.stored taskId = some entry ∧ entry.terminalResult = some result := by
  have hobs := cellEvent_eq_observe ho
  cases step_entry taskId he with
  | gone idle => rw [idle] at hobs; cases hobs
  | kept _ before _ idle =>
    rcases idle with idle | ⟨result', observe, hr⟩
    · rw [idle] at hobs; cases hobs
    · rw [observe] at hobs; cases hobs; exact ⟨_, before, hr⟩
  | created create => rw [create] at hobs; cases hobs
  | settled _ _ _ _ _ settle => rw [settle] at hobs; cases hobs

theorem finish_rejected {taskId : String} {result : TerminalResult} {swept now : DateTime}
    {o : Output} (he : (machine env).Step s (.finish taskId result swept now, o) t) :
    ((∀ entry, (s.inner.cleanupExpired swept).entries.lookup taskId = some entry →
      isTerminal entry.task.status = true) → o = .finished none) ∧
    (o = .finished none → t.inner = s.inner.cleanupExpired swept ∧
      t.pending = s.inner.cleanupDrops swept) := by
  obtain ⟨_, rfl, rfl⟩ := step_finish.mp he
  rcases finish_cases env s.inner taskId result swept now with
    ⟨hv, hi, hd, _⟩ | ⟨entry, hl, hopen, hv, _⟩
  · exact ⟨fun _ => by rw [hv], fun _ => ⟨hi, hd⟩⟩
  · refine ⟨fun h => ?_, fun h => ?_⟩
    · rw [h entry hl] at hopen
      cases hopen
    · rw [hv] at h
      cases h

theorem cancel_rejected {taskId peerKey : String} {swept now : DateTime} {o : Output}
    (he : (machine env).Step s (.cancel taskId peerKey swept now, o) t) :
    ((∀ entry, (s.inner.cleanupExpired swept).entries.lookup taskId = some entry →
      isTerminal entry.task.status = true) → ∃ error, o = .cancelled (.error error)) ∧
    (∀ error, o = .cancelled (.error error) → t.inner = s.inner.cleanupExpired swept ∧
      t.pending = s.inner.cleanupDrops swept) := by
  obtain ⟨_, rfl, rfl⟩ := step_cancel.mp he
  rcases cancel_cases env s.inner taskId peerKey swept now with
    ⟨error, hv, hi, hd, _⟩ | ⟨entry, hl, _, hopen, hv, _⟩
  · exact ⟨fun _ => ⟨error, by rw [hv]⟩, fun _ _ => ⟨hi, hd⟩⟩
  · refine ⟨fun h => ?_, fun error h => ?_⟩
    · rw [h entry hl] at hopen
      cases hopen
    · rw [hv] at h
      cases h

/-- The life of a task, for two moments `s` and `t` of one run: the records are
consistent; a terminal record keeps its status and result while it is stored; at
most one finish or cancel takes effect; on a terminal or absent task a finish
returns nothing, a cancel an error, and a call that takes no effect leaves the
store, the tokens and the handles as the sweep it starts with; a waiter returns what is stored at that
moment, which is what that one finish or cancel has stored. -/
theorem lifecycle {es fs : List Event} (hr : Runs (machine env).Step .init es s)
    (hf : Runs (machine env).Step s fs t) (hid : FreshIds env t.issued) (taskId : String) :
    (∀ entry, s.stored taskId = some entry → Consistent entry) ∧
    (∀ entry entry', s.stored taskId = some entry → isTerminal entry.task.status = true →
      t.stored taskId = some entry' →
      entry'.task.status = entry.task.status ∧ entry'.terminalResult = entry.terminalResult) ∧
    ((es ++ fs).filterMap (settles taskId)).length ≤ 1 ∧
    (∀ result swept now o u, (machine env).Step s (.finish taskId result swept now, o) u →
      ((∀ entry, (s.inner.cleanupExpired swept).entries.lookup taskId = some entry →
        isTerminal entry.task.status = true) → o = .finished none) ∧
      (o = .finished none → u.inner = s.inner.cleanupExpired swept ∧
        u.pending = s.inner.cleanupDrops swept)) ∧
    (∀ peerKey swept now o u, (machine env).Step s (.cancel taskId peerKey swept now, o) u →
      ((∀ entry, (s.inner.cleanupExpired swept).entries.lookup taskId = some entry →
        isTerminal entry.task.status = true) → ∃ error, o = .cancelled (.error error)) ∧
      (∀ error, o = .cancelled (.error error) → u.inner = s.inner.cleanupExpired swept ∧
        u.pending = s.inner.cleanupDrops swept)) ∧
    (∀ e u result, (machine env).Step s e u → shows taskId e = some result →
      ∃ entry, s.stored taskId = some entry ∧ entry.terminalResult = some result) ∧
    ∀ result, (∃ e ∈ es ++ fs, shows taskId e = some result) →
      ∃ status, (es ++ fs).filterMap (settles taskId) = [(status, result)] := by
  have hs : WellFormed env s := Runs.wellFormed hr init_wellFormed
  have hrf := hr.append hf
  refine ⟨hs.consistent taskId, ?_, ?_, ?_, ?_, ?_, ?_⟩
  · exact fun _ _ hb ht ha => Runs.terminal_stable hf hs hid hb ht ha
  · exact Runs.settles_le_one hrf init_wellFormed hid taskId
  · exact fun _ _ _ _ _ he => finish_rejected he
  · exact fun _ _ _ _ _ he => cancel_rejected he
  · exact fun _ _ _ he ho => shown_stored he ho
  · exact fun _ ho => Runs.shown_settled hrf hid ho

def samplePlatform : Platform where
  newV4 n := if n = 0 then "task-0" else "task-1"
  toRfc3339 _ := "2026-01-01T00:00:00+00:00"

def emptyResult : CallToolResult :=
  { content := [], structuredContent := none, isError := none, metaValue := none }

/-- A task is created and finished, then a cancel loses and a waiter collects. -/
theorem lifecycle_collected : ∃ es t, Runs (machine samplePlatform).Step .init es t ∧
    ∃ status, es.filterMap (settles "task-0") = [(status, .ok emptyResult)] := by
  have hr := @Machine.runs_of_execute _ _ _ (machine samplePlatform) .init _
    [.create 0 "peer" none 0 0, .finish "task-0" (.ok emptyResult) 1 1, .perform,
      .cancel "task-0" "peer" 2 2, .wait 0 "task-0" "peer", .check 0 3] _ rfl
  refine ⟨_, _, hr, ?_⟩
  exact (lifecycle (.refl _) hr (by unfold FreshIds; decide) "task-0").2.2.2.2.2.2 _
    ⟨_, .tail _ (.tail _ (.tail _ (.tail _ (.tail _ (.head _))))), rfl⟩

end RustMcpCore.TaskStore
