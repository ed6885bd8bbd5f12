import RustMcpCore.Tasks.Expiry

/-! # Aborted executions

The store aborts what runs behind an entry when the entry goes or is settled, and
when a handle comes too late. Handles come into entries in one way only.
-/
namespace RustMcpCore.TaskStore
open Library
variable {env : Platform} {s t : State} {e : Event} {handle : JoinHandle}

/-- Why an operation on the store aborts an execution. -/
inductive Aborts (env : Platform) (s : State) (l : Label) (handle : JoinHandle) : Prop
  | swept {swept : DateTime} {taskId : String} {entry : TaskEntry}
      (sweeps : l.sweeps = some swept) (stored : s.stored taskId = some entry)
      (held : entry.handle = some handle) (expired : entry.isExpired swept = true)
  | replaced {entry : TaskEntry} (creates : l.creates = true)
      (stored : s.stored (env.newV4 s.issued) = some entry) (held : entry.handle = some handle)
  | late {taskId : String} (attach : l = .attachHandle taskId handle)
      (gone : s.stored taskId = none)
  | finished {taskId : String} {result : TerminalResult} {swept now : DateTime}
      {entry : TaskEntry} (finish : l = .finish taskId result swept now)
      (stored : s.stored taskId = some entry) (held : entry.handle = some handle)
      (isOpen : isTerminal entry.task.status = false)
  | cancelled {taskId : String} {swept now : DateTime} {entry : TaskEntry}
      (cancel : l = .cancel taskId entry.peerKey swept now)
      (stored : s.stored taskId = some entry) (held : entry.handle = some handle)
      (isOpen : isTerminal entry.task.status = false)

theorem abort_mem_handle {held : Option JoinHandle} :
    .abort handle ∈ (held.map Effect.abort).toList ↔ held = some handle := by
  cases held <;> simp [eq_comm]

theorem abort_mem_drop {entry : TaskEntry} :
    .abort handle ∈ entry.drop ↔ entry.handle = some handle := by
  simp only [TaskEntry.drop, List.mem_cons, reduceCtorEq, false_or, abort_mem_handle]

theorem abort_mem_cleanupDrops {inner : TaskStoreInner} {swept : DateTime} :
    .abort handle ∈ inner.cleanupDrops swept ↔ ∃ taskId entry,
      inner.entries.lookup taskId = some entry ∧ entry.handle = some handle ∧
        entry.isExpired swept = true := by
  constructor
  · intro h
    obtain ⟨entry, hentry, habort⟩ := List.mem_flatMap.mp h
    obtain ⟨⟨taskId, _⟩, hmem, rfl⟩ := List.mem_map.mp hentry
    obtain ⟨hmem, hexpired⟩ := List.mem_filter.mp hmem
    exact ⟨taskId, _, HashMap.lookup_eq_some_iff.mpr hmem, abort_mem_drop.mp habort,
      by simpa using hexpired⟩
  · rintro ⟨taskId, entry, hstored, hheld, hexpired⟩
    have hmem := HashMap.lookup_eq_some_iff.mp hstored
    refine List.mem_flatMap.mpr ⟨entry, List.mem_map.mpr ⟨⟨taskId, entry⟩, ?_, rfl⟩,
      abort_mem_drop.mpr hheld⟩
    exact List.mem_filter.mpr ⟨hmem, by simpa using hexpired⟩

theorem Aborts.of_swept {l : Label} {swept : DateTime} (sweeps : l.sweeps = some swept)
    (h : .abort handle ∈ s.inner.cleanupDrops swept) : Aborts env s l handle := by
  obtain ⟨taskId, entry, hstored, hheld, hexpired⟩ := abort_mem_cleanupDrops.mp h
  exact .swept sweeps hstored hheld hexpired

theorem abort_mem_create {peer : Peer} {peerKey : String} {ttlMs : Option UInt64}
    {swept now : DateTime}
    (h : .abort handle ∈ (create env s.issued s.inner peer peerKey ttlMs swept now).effects) :
    Aborts env s (.create peer peerKey ttlMs swept now) handle := by
  rcases List.mem_append.mp h with h | h
  · exact .of_swept rfl h
  · cases hl : (s.inner.cleanupExpired swept).entries.lookup (env.newV4 s.issued) with
    | none => simp [hl] at h
    | some entry =>
      simp only [hl, Option.map_some, Option.getD_some] at h
      exact .replaced rfl (TaskStoreInner.lookup_cleanupExpired.mp hl).1 (abort_mem_drop.mp h)

theorem abort_mem_attachHandle {taskId : String} {handle' : JoinHandle}
    (h : .abort handle ∈ (attachHandle s.inner taskId handle').effects) :
    Aborts env s (.attachHandle taskId handle') handle := by
  unfold attachHandle at h
  split at h
  · cases h
  · rename_i hgone
    cases List.mem_singleton.mp h
    exact .late rfl hgone

theorem abort_mem_finish {taskId : String} {result : TerminalResult} {swept now : DateTime}
    (h : .abort handle ∈ (finish env s.inner taskId result swept now).effects) :
    Aborts env s (.finish taskId result swept now) handle := by
  simp only [finish] at h
  split at h
  · exact .of_swept rfl h
  · rename_i entry hl
    split at h
    · exact .of_swept rfl h
    · rename_i hopen
      simp only [List.mem_append, List.mem_singleton, reduceCtorEq, or_false] at h
      rcases h with h | h
      · exact .of_swept rfl h
      · exact .finished rfl (TaskStoreInner.lookup_cleanupExpired.mp hl).1
          (abort_mem_handle.mp h) (by simpa using hopen)

theorem abort_mem_cancel {taskId peerKey : String} {swept now : DateTime}
    (h : .abort handle ∈ (cancel env s.inner taskId peerKey swept now).effects) :
    Aborts env s (.cancel taskId peerKey swept now) handle := by
  simp only [cancel] at h
  split at h
  · exact .of_swept rfl h
  · rename_i entry hl
    split at h
    · exact .of_swept rfl h
    · rename_i hpeer
      split at h
      · exact .of_swept rfl h
      · rename_i hopen
        simp only [List.mem_append, List.mem_cons, List.not_mem_nil, reduceCtorEq, or_false,
          false_or] at h
        rcases h with h | h
        · exact .of_swept rfl h
        · obtain rfl : entry.peerKey = peerKey := by simpa using hpeer
          exact .cancelled rfl (TaskStoreInner.lookup_cleanupExpired.mp hl).1
            (abort_mem_handle.mp h) (by simpa using hopen)

/-- An abort is called only after an operation has had a reason for it. -/
theorem step_abort (he : (machine env).Step s e t) (h : .abort handle ∈ t.pending) :
    .abort handle ∈ s.pending ∨ Aborts env s e.1 handle := by
  obtain ⟨l, o⟩ := e
  cases l with
  | create => obtain ⟨_, _, rfl⟩ := step_create.mp he; exact .inr (abort_mem_create h)
  | attachHandle =>
    obtain ⟨_, rfl, _⟩ := step_attachHandle.mp he
    exact .inr (abort_mem_attachHandle h)
  | finish => obtain ⟨_, rfl, _⟩ := step_finish.mp he; exact .inr (abort_mem_finish h)
  | getTask => obtain ⟨_, rfl, _⟩ := step_getTask.mp he; exact .inr (.of_swept rfl h)
  | listTasks => obtain ⟨_, rfl, _⟩ := step_listTasks.mp he; exact .inr (.of_swept rfl h)
  | cancel => obtain ⟨_, rfl, _⟩ := step_cancel.mp he; exact .inr (abort_mem_cancel h)
  | check =>
    obtain ⟨_, _, _, _, ⟨_, _, _, rfl⟩ | ⟨_, _, _, rfl⟩⟩ := step_check.mp he
    · exact .inr (.of_swept rfl h)
    · exact .inr (.of_swept rfl h)
  | perform =>
    obtain ⟨effect, rest, hs, rfl, _⟩ := step_perform.mp he
    left
    rw [hs]
    cases effect <;> exact List.mem_cons_of_mem _ h
  | wait => obtain ⟨_, rfl, _⟩ := step_wait.mp he; exact .inl h
  | notified => obtain ⟨_, _, _, _, rfl, _⟩ := step_notified.mp he; exact .inl h
  | dropWait => obtain ⟨_, rfl, _⟩ := step_dropWait.mp he; exact .inl h

theorem step_aborted (he : (machine env).Step s e t) (h : handle ∈ t.aborted) :
    handle ∈ s.aborted ∨ .abort handle ∈ s.pending := by
  obtain ⟨l, o⟩ := e
  cases l with
  | create => obtain ⟨_, _, rfl⟩ := step_create.mp he; exact .inl h
  | attachHandle => obtain ⟨_, rfl, _⟩ := step_attachHandle.mp he; exact .inl h
  | finish => obtain ⟨_, rfl, _⟩ := step_finish.mp he; exact .inl h
  | getTask => obtain ⟨_, rfl, _⟩ := step_getTask.mp he; exact .inl h
  | listTasks => obtain ⟨_, rfl, _⟩ := step_listTasks.mp he; exact .inl h
  | cancel => obtain ⟨_, rfl, _⟩ := step_cancel.mp he; exact .inl h
  | check =>
    obtain ⟨_, _, _, _, ⟨_, _, _, rfl⟩ | ⟨_, _, _, rfl⟩⟩ := step_check.mp he
    · exact .inl h
    · exact .inl h
  | perform =>
    obtain ⟨effect, rest, hs, rfl, _⟩ := step_perform.mp he
    cases effect with
    | abort handle' =>
      rcases List.mem_cons.mp h with rfl | h
      · exact .inr (hs ▸ List.mem_cons_self)
      · exact .inl h
    | cancelToken => exact .inl h
    | notifyWaiters => exact .inl h
  | wait => obtain ⟨_, rfl, _⟩ := step_wait.mp he; exact .inl h
  | notified => obtain ⟨_, _, _, _, rfl, _⟩ := step_notified.mp he; exact .inl h
  | dropWait => obtain ⟨_, rfl, _⟩ := step_dropWait.mp he; exact .inl h

/-! ## Where handles come from -/

/-- Only `attach_handle` gives an entry a handle. -/
theorem step_handle (he : (machine env).Step s e t) {taskId : String} {entry : TaskEntry}
    (hstored : t.stored taskId = some entry) (hheld : entry.handle = some handle) :
    (∃ earlier, s.stored taskId = some earlier ∧ earlier.handle = some handle) ∨
      e.1 = .attachHandle taskId handle := by
  cases step_origin he hstored with
  | kept before => exact .inl ⟨entry, before, hheld⟩
  | attached label before =>
    cases hheld
    exact .inr label
  | created creates key own unattached =>
    rw [unattached] at hheld
    cases hheld
  | finished before => cases hheld
  | cancelled before => cases hheld

end RustMcpCore.TaskStore
