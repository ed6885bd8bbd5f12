import RustMcpCore.Tasks.System
import RustMcpCore.Library.WriteOnce

/-! # What a step does to one entry

Eleven kinds of steps reach the record of a task in four ways only: it is
dropped, it keeps everything but its handle, it is new, or it is settled. The
invariants of the store are read off these four.
-/
namespace RustMcpCore.TaskStore
open Library
variable (env : Platform)

/-- The status of a stored result. -/
def StatusAgrees : TaskStatus → TerminalResult → Prop
  | .completed, .ok callResult => callResult.isError ≠ some true
  | .failed, .ok callResult => callResult.isError = some true
  | .failed, .error _ => True
  | .cancelled, .ok callResult => callResult = cancelledToolResult
  | _, _ => False

theorem StatusAgrees.isTerminal {status : TaskStatus} {result : TerminalResult}
    (h : StatusAgrees status result) : isTerminal status = true := by
  cases status <;> first | rfl | exact h.elim

theorem finishStatus_agrees (result : TerminalResult) :
    StatusAgrees (finishStatus result).1 result := by
  cases result with
  | error e => trivial
  | ok callResult =>
    by_cases h : callResult.isError = some true
    · simp only [finishStatus, if_pos h]
      exact h
    · simp only [finishStatus, if_neg h]
      exact h

theorem cancelled_agrees : StatusAgrees .cancelled (.ok cancelledToolResult) := rfl

/-- The status and result that a finish or a cancel gives to a task, when it
takes effect on it. -/
def settles (taskId : String) : Event → Option (TaskStatus × TerminalResult)
  | (.finish taskId' result _ _, .finished (some _)) =>
    if taskId' = taskId then some ((finishStatus result).1, result) else none
  | (.cancel taskId' _ _ _, .cancelled (.ok _)) =>
    if taskId' = taskId then some (.cancelled, .ok cancelledToolResult) else none
  | _ => none

/-- The result that a call of `wait_for_result` for a task returns. -/
def shows (taskId : String) : Event → Option TerminalResult
  | (_, .waited taskId' (.ok result)) => if taskId' = taskId then some result else none
  | _ => none

/-- What an event does to one task, as the cell of its status and result. -/
def cellEvent (taskId : String) (e : Event) :
    CellEvent (TaskStatus × TerminalResult) TerminalResult :=
  match settles taskId e, shows taskId e, e with
  | some v, _, _ => .settle v
  | none, some result, _ => .observe result
  | none, none, (_, .created created) => if created.task.taskId = taskId then .create else .idle
  | none, none, _ => .idle

/-! ## The operations -/

/-- `finish` leaves the swept entries alone, or settles an open one. -/
theorem finish_cases (inner : TaskStoreInner) (taskId : String) (result : TerminalResult)
    (swept now : DateTime) :
    let sec := finish env inner taskId result swept now
    let kept := inner.cleanupExpired swept
    (sec.value = none ∧ sec.inner = kept ∧ sec.effects = inner.cleanupDrops swept ∧
      ∀ entry, kept.entries.lookup taskId = some entry → isTerminal entry.task.status = true) ∨
    ∃ entry, kept.entries.lookup taskId = some entry ∧ isTerminal entry.task.status = false ∧
      sec.value = some ((finishedEntry env entry result now).task, entry.peer) ∧
      sec.inner = ⟨kept.entries.replace taskId (finishedEntry env entry result now)⟩ ∧
      .notifyWaiters entry.notify ∈ sec.effects := by
  intro sec kept
  cases hl : kept.entries.lookup taskId with
  | none =>
    left
    have hsec : sec = ⟨kept, inner.cleanupDrops swept, none⟩ := by
      simp only [sec, finish, kept] at hl ⊢
      rw [hl]
    rw [hsec]
    exact ⟨rfl, rfl, rfl, by simp⟩
  | some entry =>
    cases ht : isTerminal entry.task.status with
    | true =>
      left
      have hsec : sec = ⟨kept, inner.cleanupDrops swept, none⟩ := by
        simp only [sec, finish, kept] at hl ⊢
        simp only [hl, ht, if_true]
      rw [hsec]
      exact ⟨rfl, rfl, rfl, by simp [ht]⟩
    | false =>
      right
      refine ⟨entry, rfl, ht, ?_⟩
      simp only [sec, finish, kept] at hl ⊢
      simp [hl, ht]

/-- `cancel` fails and leaves the swept entries alone, or settles an open one of
its own peer. -/
theorem cancel_cases (inner : TaskStoreInner) (taskId peerKey : String) (swept now : DateTime) :
    let sec := cancel env inner taskId peerKey swept now
    let kept := inner.cleanupExpired swept
    (∃ error, sec.value = .error error ∧ sec.inner = kept ∧
      sec.effects = inner.cleanupDrops swept ∧
      ∀ entry, kept.entries.lookup taskId = some entry → entry.peerKey = peerKey →
        isTerminal entry.task.status = true ∧ error = .terminal entry.task.status) ∨
    ∃ entry, kept.entries.lookup taskId = some entry ∧ entry.peerKey = peerKey ∧
      isTerminal entry.task.status = false ∧
      sec.value = .ok ((cancelledEntry env entry now).task, entry.peer) ∧
      sec.inner = ⟨kept.entries.replace taskId (cancelledEntry env entry now)⟩ ∧
      .notifyWaiters entry.notify ∈ sec.effects := by
  intro sec kept
  cases hl : kept.entries.lookup taskId with
  | none =>
    left
    have hsec : sec = ⟨kept, inner.cleanupDrops swept, .error .notFound⟩ := by
      simp only [sec, cancel, kept] at hl ⊢
      rw [hl]
    rw [hsec]
    exact ⟨_, rfl, rfl, rfl, by simp⟩
  | some entry =>
    by_cases hp : entry.peerKey = peerKey
    · cases ht : isTerminal entry.task.status with
      | true =>
        left
        have hsec : sec = ⟨kept, inner.cleanupDrops swept, .error (.terminal entry.task.status)⟩ := by
          simp only [sec, cancel, kept] at hl ⊢
          simp [hl, hp, ht]
        rw [hsec]
        exact ⟨_, rfl, rfl, rfl, by simp [ht]⟩
      | false =>
        right
        refine ⟨entry, rfl, hp, ht, ?_⟩
        simp only [sec, cancel, kept] at hl ⊢
        simp [hl, ht, hp]
    · left
      have hsec : sec = ⟨kept, inner.cleanupDrops swept, .error .notFound⟩ := by
        simp only [sec, cancel, kept] at hl ⊢
        simp [hl, hp]
      rw [hsec]
      exact ⟨_, rfl, rfl, rfl, by simp [hp]⟩

theorem checkResult_ok {inner : TaskStoreInner} {taskId peerKey : String} {swept : DateTime}
    {result : TerminalResult}
    (h : (checkResult inner taskId peerKey swept).value = .inl (.ok result)) :
    ∃ entry, (inner.cleanupExpired swept).entries.lookup taskId = some entry ∧
      entry.terminalResult = some result := by
  simp only [checkResult] at h
  cases hl : (inner.cleanupExpired swept).entries.lookup taskId with
  | none => simp [hl] at h
  | some entry =>
    refine ⟨entry, rfl, ?_⟩
    simp only [hl] at h
    split at h
    · cases h
    · cases hr : entry.terminalResult with
      | none => simp [hr] at h
      | some r => simpa [hr] using h

theorem checkResult_notify {inner : TaskStoreInner} {taskId peerKey : String} {swept : DateTime}
    {notify : Notify} (h : (checkResult inner taskId peerKey swept).value = .inr notify) :
    ∃ entry, (inner.cleanupExpired swept).entries.lookup taskId = some entry ∧
      entry.terminalResult = none ∧ entry.notify = notify := by
  simp only [checkResult] at h
  cases hl : (inner.cleanupExpired swept).entries.lookup taskId with
  | none => simp [hl] at h
  | some entry =>
    refine ⟨entry, rfl, ?_⟩
    simp only [hl] at h
    split at h
    · cases h
    · cases hr : entry.terminalResult with
      | none => simpa [hr] using h
      | some r => simp [hr] at h

/-! ## The four ways -/

def State.stored (s : State) (taskId : String) : Option TaskEntry :=
  s.inner.entries.lookup taskId

/-- How the record of one task changes. -/
inductive EntryStep (env : Platform) (taskId : String) (s : State) (e : Event) (t : State) : Prop
  | gone (idle : cellEvent taskId e = .idle) (after : t.stored taskId = none)
      (ids : t.issued = s.issued ∨ t.issued = s.issued + 1 ∧ env.newV4 s.issued ≠ taskId)
  | kept {entry : TaskEntry} (handle : Option JoinHandle)
      (before : s.stored taskId = some entry) (after : t.stored taskId = some { entry with handle })
      (idle : cellEvent taskId e = .idle ∨
        ∃ result, cellEvent taskId e = .observe result ∧ entry.terminalResult = some result)
  | created (create : cellEvent taskId e = .create) (key : env.newV4 s.issued = taskId)
      (count : t.issued = s.issued + 1) {entry : TaskEntry}
      (after : t.stored taskId = some entry) (working : entry.task.status = .working)
      (noResult : entry.terminalResult = none) (notify : entry.notify = s.issued)
  | settled {entry : TaskEntry} (entry' : TaskEntry) {result : TerminalResult}
      (before : s.stored taskId = some entry) (isOpen : isTerminal entry.task.status = false)
      (after : t.stored taskId = some entry') (stores : entry'.terminalResult = some result)
      (settle : cellEvent taskId e = .settle (entry'.task.status, result))
      (agrees : StatusAgrees entry'.task.status result)
      (notify : entry'.notify = entry.notify) (wakes : .notifyWaiters entry.notify ∈ t.pending)

variable {env}
variable {s t : State} {e : Event} {o : Output}

theorem EntryStep.of_same {taskId : String} (idle : cellEvent taskId e = .idle)
    (ids : t.issued = s.issued) (ht : t.stored taskId = s.stored taskId) :
    EntryStep env taskId s e t := by
  cases hs : s.stored taskId with
  | none => exact .gone idle (ht.trans hs) (.inl ids)
  | some entry => exact .kept entry.handle hs (ht.trans hs) (.inl idle)

theorem EntryStep.of_swept {taskId : String} (swept : DateTime)
    (idle : cellEvent taskId e = .idle)
    (ids : t.issued = s.issued ∨ t.issued = s.issued + 1 ∧ env.newV4 s.issued ≠ taskId)
    (ht : t.stored taskId = (s.inner.cleanupExpired swept).entries.lookup taskId) :
    EntryStep env taskId s e t := by
  cases hl : (s.inner.cleanupExpired swept).entries.lookup taskId with
  | none => exact .gone idle (ht.trans hl) ids
  | some entry =>
    have hs : s.stored taskId = some entry := (TaskStoreInner.lookup_cleanupExpired.mp hl).1
    exact .kept entry.handle hs (ht.trans hl) (.inl idle)

theorem EntryStep.of_replaced {taskId id : String} {swept : DateTime} {entry' : TaskEntry}
    (idle : cellEvent taskId e = .idle) (hne : taskId ≠ id) (ids : t.issued = s.issued)
    (ht : t.inner = ⟨(s.inner.cleanupExpired swept).entries.replace id entry'⟩) :
    EntryStep env taskId s e t := by
  refine .of_swept swept idle (.inl ids) ?_
  rw [State.stored, ht, HashMap.lookup_replace, if_neg hne]

theorem perform_stored (s : State) (effect : Effect) (taskId : String) :
    (s.perform effect).stored taskId = s.stored taskId := by
  cases effect <;> rfl

theorem perform_issued (s : State) (effect : Effect) : (s.perform effect).issued = s.issued := by
  cases effect <;> rfl

theorem step_entry_create {peer : Peer} {peerKey : String} {ttlMs : Option UInt64}
    {swept now : DateTime} (taskId : String)
    (h : (machine env).Step s (.create peer peerKey ttlMs swept now, o) t) :
    EntryStep env taskId s (.create peer peerKey ttlMs swept now, o) t := by
  obtain ⟨_, rfl, rfl⟩ := step_create.mp h
  by_cases hk : taskId = env.newV4 s.issued
  · subst hk
    exact .created (if_pos rfl) rfl rfl (AList.lookup_insert _) rfl rfl rfl
  · exact .of_swept _ (if_neg (Ne.symm hk)) (.inr ⟨rfl, Ne.symm hk⟩) (AList.lookup_insert_ne hk)

theorem step_entry_attachHandle {id : String} {handle : JoinHandle} (taskId : String)
    (h : (machine env).Step s (.attachHandle id handle, o) t) :
    EntryStep env taskId s (.attachHandle id handle, o) t := by
  obtain ⟨_, rfl, rfl⟩ := step_attachHandle.mp h
  cases hl : s.inner.entries.lookup id with
  | none =>
    refine .of_same rfl rfl ?_
    simp only [State.stored, attachHandle, hl]
  | some entry =>
    by_cases hne : taskId = id
    · subst hne
      refine .kept (some handle) hl ?_ (.inl rfl)
      simp only [State.stored, attachHandle, hl, HashMap.lookup_replace, if_true, Option.map_some]
    · refine .of_same rfl rfl ?_
      simp only [State.stored, attachHandle, hl, HashMap.lookup_replace, if_neg hne]

theorem step_entry_finish {id : String} {result : TerminalResult} {swept now : DateTime}
    (taskId : String) (h : (machine env).Step s (.finish id result swept now, o) t) :
    EntryStep env taskId s (.finish id result swept now, o) t := by
  obtain ⟨_, rfl, rfl⟩ := step_finish.mp h
  rcases finish_cases env s.inner id result swept now with
    ⟨hv, hi, _, _⟩ | ⟨entry, hl, hopen, hv, hi, hn⟩
  · rw [hv]
    exact .of_swept _ rfl (.inl rfl) (by rw [State.stored, hi])
  · rw [hv]
    by_cases hne : id = taskId
    · subst hne
      have hs : s.stored id = some entry := (TaskStoreInner.lookup_cleanupExpired.mp hl).1
      refine .settled (finishedEntry env entry result now) hs hopen ?_ rfl ?_
        (finishStatus_agrees result) rfl hn
      · simp only [State.stored, hi, HashMap.lookup_replace, if_true, hl, Option.map_some]
      · simp only [cellEvent, settles, if_true]
        rfl
    · refine .of_replaced ?_ (Ne.symm hne) rfl hi
      simp only [cellEvent, settles, if_neg hne, shows]

theorem step_entry_cancel {id peerKey : String} {swept now : DateTime} (taskId : String)
    (h : (machine env).Step s (.cancel id peerKey swept now, o) t) :
    EntryStep env taskId s (.cancel id peerKey swept now, o) t := by
  obtain ⟨_, rfl, rfl⟩ := step_cancel.mp h
  rcases cancel_cases env s.inner id peerKey swept now with
    ⟨_, hv, hi, _, _⟩ | ⟨entry, hl, _, hopen, hv, hi, hn⟩
  · rw [hv]
    exact .of_swept _ rfl (.inl rfl) (by rw [State.stored, hi])
  · rw [hv]
    by_cases hne : id = taskId
    · subst hne
      have hs : s.stored id = some entry := (TaskStoreInner.lookup_cleanupExpired.mp hl).1
      refine .settled (cancelledEntry env entry now) hs hopen ?_ rfl ?_
        cancelled_agrees rfl hn
      · simp only [State.stored, hi, HashMap.lookup_replace, if_true, hl, Option.map_some]
      · simp only [cellEvent, settles, if_true]
        rfl
    · refine .of_replaced ?_ (Ne.symm hne) rfl hi
      simp only [cellEvent, settles, if_neg hne, shows]

theorem step_entry_check {w : ℕ} {swept : DateTime} (taskId : String)
    (h : (machine env).Step s (.check w swept, o) t) :
    EntryStep env taskId s (.check w swept, o) t := by
  obtain ⟨id, peerKey, _, _, ⟨value, hv, rfl, rfl⟩ | ⟨_, _, rfl, rfl⟩⟩ := step_check.mp h
  · cases value with
    | error _ => exact .of_swept _ rfl (.inl rfl) rfl
    | ok result =>
      by_cases hne : id = taskId
      · subst hne
        obtain ⟨entry, hl, hr⟩ := checkResult_ok hv
        have hs : s.stored id = some entry := (TaskStoreInner.lookup_cleanupExpired.mp hl).1
        refine .kept entry.handle hs hl (.inr ⟨result, ?_, hr⟩)
        simp only [cellEvent, settles, shows, if_true]
      · refine .of_swept swept ?_ (.inl rfl) rfl
        simp only [cellEvent, settles, shows, if_neg hne]
  · exact .of_swept _ rfl (.inl rfl) rfl

/-- Every step treats every record in one of the four ways. -/
theorem step_entry (taskId : String) (h : (machine env).Step s e t) :
    EntryStep env taskId s e t := by
  obtain ⟨l, o⟩ := e
  cases l with
  | create => exact step_entry_create taskId h
  | attachHandle => exact step_entry_attachHandle taskId h
  | finish => exact step_entry_finish taskId h
  | cancel => exact step_entry_cancel taskId h
  | check => exact step_entry_check taskId h
  | getTask =>
    obtain ⟨_, rfl, rfl⟩ := step_getTask.mp h
    exact .of_swept _ rfl (.inl rfl) rfl
  | listTasks =>
    obtain ⟨_, rfl, rfl⟩ := step_listTasks.mp h
    exact .of_swept _ rfl (.inl rfl) rfl
  | perform =>
    obtain ⟨effect, rest, _, rfl, rfl⟩ := step_perform.mp h
    exact .of_same rfl (perform_issued { s with pending := rest } effect)
      (perform_stored { s with pending := rest } effect taskId)
  | wait =>
    obtain ⟨_, rfl, rfl⟩ := step_wait.mp h
    exact .of_same rfl rfl rfl
  | notified =>
    obtain ⟨_, _, _, _, rfl, rfl⟩ := step_notified.mp h
    exact .of_same rfl rfl rfl
  | dropWait =>
    obtain ⟨_, rfl, rfl⟩ := step_dropWait.mp h
    exact .of_same rfl rfl rfl

/-- Ids are issued one by one. -/
theorem step_ids (h : (machine env).Step s e t) : t.issued = s.issued ∨
    (∃ peer peerKey ttlMs swept now, e.1 = .create peer peerKey ttlMs swept now) ∧
      t.issued = s.issued + 1 := by
  obtain ⟨l, o⟩ := e
  cases l with
  | create =>
    obtain ⟨_, _, rfl⟩ := step_create.mp h
    exact .inr ⟨⟨_, _, _, _, _, rfl⟩, rfl⟩
  | attachHandle => obtain ⟨_, rfl, _⟩ := step_attachHandle.mp h; exact .inl rfl
  | finish => obtain ⟨_, rfl, _⟩ := step_finish.mp h; exact .inl rfl
  | getTask => obtain ⟨_, rfl, _⟩ := step_getTask.mp h; exact .inl rfl
  | listTasks => obtain ⟨_, rfl, _⟩ := step_listTasks.mp h; exact .inl rfl
  | cancel => obtain ⟨_, rfl, _⟩ := step_cancel.mp h; exact .inl rfl
  | perform =>
    obtain ⟨effect, rest, _, rfl, _⟩ := step_perform.mp h
    exact .inl (perform_issued { s with pending := rest } effect)
  | wait => obtain ⟨_, rfl, _⟩ := step_wait.mp h; exact .inl rfl
  | check =>
    obtain ⟨_, _, _, _, ⟨_, _, _, rfl⟩ | ⟨_, _, _, rfl⟩⟩ := step_check.mp h
    · exact .inl rfl
    · exact .inl rfl
  | notified => obtain ⟨_, _, _, _, rfl, _⟩ := step_notified.mp h; exact .inl rfl
  | dropWait => obtain ⟨_, rfl, _⟩ := step_dropWait.mp h; exact .inl rfl

theorem step_issued (h : (machine env).Step s e t) : s.issued ≤ t.issued := by
  have hids := step_ids h
  omega

/-! ## Where an entry comes from -/

/-- The clean-up of an operation leaves the entry. -/
def Label.Keeps (l : Label) (entry : TaskEntry) : Prop :=
  ∀ swept, l.sweeps = some swept → entry.isExpired swept = false

/-- How the entry that is stored for a task after an operation came about. -/
inductive Origin (env : Platform) (taskId : String) (s : State) (l : Label) : TaskEntry → Prop
  | kept {entry : TaskEntry} (before : s.stored taskId = some entry) (keeps : l.Keeps entry) :
      Origin env taskId s l entry
  | attached {entry : TaskEntry} {handle : JoinHandle} (label : l = .attachHandle taskId handle)
      (before : s.stored taskId = some entry) :
      Origin env taskId s l { entry with handle := some handle }
  | created {entry : TaskEntry} (creates : l.creates = true) (key : taskId = env.newV4 s.issued)
      (own : entry.task.taskId = taskId) (unattached : entry.handle = none) :
      Origin env taskId s l entry
  | finished {entry : TaskEntry} {result : TerminalResult} {now : DateTime}
      (before : s.stored taskId = some entry) :
      Origin env taskId s l (finishedEntry env entry result now)
  | cancelled {entry : TaskEntry} {now : DateTime} (before : s.stored taskId = some entry) :
      Origin env taskId s l (cancelledEntry env entry now)

theorem Origin.of_swept {taskId : String} {l : Label} {swept : DateTime} {entry : TaskEntry}
    (hsweeps : l.sweeps = some swept)
    (h : (s.inner.cleanupExpired swept).entries.lookup taskId = some entry) :
    Origin env taskId s l entry := by
  obtain ⟨hbefore, hlive⟩ := TaskStoreInner.lookup_cleanupExpired.mp h
  refine .kept hbefore fun swept' hswept' => ?_
  obtain rfl : swept = swept' := Option.some.inj (hsweeps.symm.trans hswept')
  exact hlive

theorem Origin.of_replaced {taskId id : String} {l : Label} {swept : DateTime}
    {old new entry : TaskEntry} (hsweeps : l.sweeps = some swept)
    (hold : (s.inner.cleanupExpired swept).entries.lookup id = some old)
    (hnew : s.stored id = some old → Origin env id s l new)
    (h : ((s.inner.cleanupExpired swept).entries.replace id new).lookup taskId = some entry) :
    Origin env taskId s l entry := by
  rw [HashMap.lookup_replace] at h
  split at h
  · rename_i hid
    rw [hold] at h
    cases h
    rw [hid]
    exact hnew (TaskStoreInner.lookup_cleanupExpired.mp hold).1
  · exact .of_swept hsweeps h

theorem Origin.of_unchanged {taskId : String} {l : Label} {entry : TaskEntry}
    (hsweeps : l.sweeps = none) (h : s.stored taskId = some entry) :
    Origin env taskId s l entry := by
  refine .kept h fun swept hswept => ?_
  rw [hsweeps] at hswept
  cases hswept

theorem step_origin (h : (machine env).Step s e t) {taskId : String} {entry : TaskEntry}
    (hstored : t.stored taskId = some entry) : Origin env taskId s e.1 entry := by
  obtain ⟨l, o⟩ := e
  cases l with
  | create =>
    obtain ⟨_, _, rfl⟩ := step_create.mp h
    by_cases hk : taskId = env.newV4 s.issued
    · subst hk
      obtain rfl := Option.some.inj ((AList.lookup_insert _).symm.trans hstored)
      exact .created rfl rfl rfl rfl
    · exact .of_swept rfl ((AList.lookup_insert_ne hk).symm.trans hstored)
  | attachHandle id handle =>
    obtain ⟨_, rfl, _⟩ := step_attachHandle.mp h
    simp only [State.stored, attachHandle] at hstored
    split at hstored
    · rename_i old hold
      rw [HashMap.lookup_replace] at hstored
      split at hstored
      · rename_i hid
        subst hid
        rw [hold] at hstored
        cases hstored
        exact .attached rfl hold
      · exact .of_unchanged rfl hstored
    · exact .of_unchanged rfl hstored
  | finish id result swept now =>
    obtain ⟨_, rfl, _⟩ := step_finish.mp h
    rcases finish_cases env s.inner id result swept now with
      ⟨_, hinner, _⟩ | ⟨_, hold, _, _, hinner, _⟩
    · rw [State.stored, hinner] at hstored
      exact .of_swept rfl hstored
    · rw [State.stored, hinner] at hstored
      exact .of_replaced rfl hold .finished hstored
  | cancel id peerKey swept now =>
    obtain ⟨_, rfl, _⟩ := step_cancel.mp h
    rcases cancel_cases env s.inner id peerKey swept now with
      ⟨_, _, hinner, _⟩ | ⟨_, hold, _, _, _, hinner, _⟩
    · rw [State.stored, hinner] at hstored
      exact .of_swept rfl hstored
    · rw [State.stored, hinner] at hstored
      exact .of_replaced rfl hold .cancelled hstored
  | getTask => obtain ⟨_, rfl, _⟩ := step_getTask.mp h; exact .of_swept rfl hstored
  | listTasks => obtain ⟨_, rfl, _⟩ := step_listTasks.mp h; exact .of_swept rfl hstored
  | check =>
    obtain ⟨_, _, _, _, ⟨_, _, _, rfl⟩ | ⟨_, _, _, rfl⟩⟩ := step_check.mp h
    · exact .of_swept rfl hstored
    · exact .of_swept rfl hstored
  | perform =>
    obtain ⟨effect, rest, _, rfl, _⟩ := step_perform.mp h
    rw [perform_stored] at hstored
    exact .of_unchanged rfl hstored
  | wait => obtain ⟨_, rfl, _⟩ := step_wait.mp h; exact .of_unchanged rfl hstored
  | notified => obtain ⟨_, _, _, _, rfl, _⟩ := step_notified.mp h; exact .of_unchanged rfl hstored
  | dropWait => obtain ⟨_, rfl, _⟩ := step_dropWait.mp h; exact .of_unchanged rfl hstored

/-- A task is stored under the id it shows. -/
def Keyed (s : State) : Prop :=
  ∀ taskId entry, s.stored taskId = some entry → entry.task.taskId = taskId

theorem step_keyed (hs : Keyed s) (he : (machine env).Step s e t) : Keyed t := by
  intro taskId entry hstored
  cases step_origin he hstored with
  | kept before => exact hs taskId entry before
  | attached _ before =>
    have hid := hs taskId _ before
    exact hid
  | created _ _ own => exact own
  | finished before =>
    have hid := hs taskId _ before
    exact hid
  | cancelled before =>
    have hid := hs taskId _ before
    exact hid

theorem step_creates (he : (machine env).Step s e t) (h : e.1.creates = true) :
    t.issued = s.issued + 1 := by
  obtain ⟨l, o⟩ := e
  cases l with
  | create =>
    obtain ⟨_, _, rfl⟩ := step_create.mp he
    rfl
  | _ => cases h

end RustMcpCore.TaskStore
