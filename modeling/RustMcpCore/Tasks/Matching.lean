import RustMcpCore.Tasks.Parts

/-! # Two servers

From a run of many clients the operations of all other keys are taken out. A server of
all clients and one of a single client are alike if they show this client the same, and
an operation under the lock keeps them alike, whoever asks for it.
-/
namespace RustMcpCore.TaskStore
open Library

inductive SamePhase (env env' : Platform) (ids : List String) : WaitPhase → WaitPhase → Prop
  | loop : SamePhase env env' ids .loop .loop
  | checked {notify notify' : Notify} (same : env.newV4 notify = env'.newV4 notify')
      (mine : env.newV4 notify ∈ ids) : SamePhase env env' ids (.checked notify) (.checked notify')
  | parked {notify notify' : Notify} (same : env.newV4 notify = env'.newV4 notify')
      (mine : env.newV4 notify ∈ ids) : SamePhase env env' ids (.parked notify) (.parked notify')

structure SameWaiter (env env' : Platform) (key : String) (ids : List String)
    (waiter other : Waiter) : Prop where
  taskId : waiter.taskId = other.taskId
  own : waiter.peerKey = key
  own' : other.peerKey = key
  phase : SamePhase env env' ids waiter.phase other.phase

/-- A server of all clients and one of a single client. The second owes only calls that
wake somebody, and these are the ones the first owes to the client. -/
structure Sim (env env' : Platform) (key : String) (part : Part) (now : DateTime)
    (s t : State) : Prop where
  store : StoreSim key part now s.inner t.inner
  issued : t.issued = part.ids.length
  old : ∀ taskId ∈ part.ids, ∃ n < s.issued, env.newV4 n = taskId
  waiting : ∀ w ∈ part.waits,
    Option.Rel (SameWaiter env env' key part.ids) (s.waiters w) (t.waiters w)
  foreign : ∀ w ∉ part.waits, t.waiters w = none ∧
    ∀ waiter, s.waiters w = some waiter → waiter.peerKey ≠ key
  loud : ∀ effect ∈ t.pending, notifyOf effect ≠ none
  owes : owed env' t.pending = (owed env s.pending).filter (· ∈ part.ids)

/-- What the server of the single client does when an event happens on the other one. -/
def Matched (env env' : Platform) (key : String) (part : Part) (later : DateTime) (e : Event)
    (u t : State) : Prop :=
  ∃ es v, Runs (machine env').Step t es v ∧
    List.Forall₂ SameEvent (if part.owns key e.1 then [e] else [])
      (es.filter fun e => !e.1.isPerform) ∧
    Sim env env' key (part.after key e) later u v

section Sim
variable {env env' : Platform} {key : String} {part part' : Part} {now later : DateTime}
  {s t u : State} {e : Event}

theorem SamePhase.mono {ids ids' : List String} {phase phase' : WaitPhase}
    (h : SamePhase env env' ids phase phase') (hle : ids ⊆ ids') :
    SamePhase env env' ids' phase phase' := by
  cases h with
  | loop => exact .loop
  | checked same mine => exact .checked same (hle mine)
  | parked same mine => exact .parked same (hle mine)

theorem rel_waiter_mono {ids ids' : List String} {waiter other : Option Waiter}
    (h : Option.Rel (SameWaiter env env' key ids) waiter other) (hle : ids ⊆ ids') :
    Option.Rel (SameWaiter env env' key ids') waiter other := by
  cases h with
  | none => exact .none
  | some h => exact .some ⟨h.taskId, h.own, h.own', h.phase.mono hle⟩

theorem Sim.idle (h : Sim env env' key part now s t) (hp : s.pending = []) : t.pending = [] := by
  have howed := h.owes
  rw [hp] at howed
  cases hpending : t.pending with
  | nil => rfl
  | cons effect rest =>
    have hloud := h.loud effect (by rw [hpending]; exact List.mem_cons_self)
    obtain ⟨notify, hnotify⟩ := Option.ne_none_iff_exists'.mp hloud
    rw [hpending, owed, List.filterMap_cons, hnotify] at howed
    cases howed

/-- An operation under the lock keeps the two servers alike if it keeps the stores alike. -/
theorem Sim.locked (h : Sim env env' key part now s t) {inner other : TaskStoreInner}
    {effects back : List Effect} {issued issued' : ℕ}
    (hstore : StoreSim key part' later inner other) (hwaits : part'.waits = part.waits)
    (hids : part.ids ⊆ part'.ids) (hissued' : issued' = part'.ids.length)
    (hold : ∀ taskId ∈ part'.ids, ∃ n < issued, env.newV4 n = taskId)
    (hloud : ∀ effect ∈ back, notifyOf effect ≠ none)
    (howes : owed env' back = (owed env effects).filter (· ∈ part'.ids)) :
    Sim env env' key part' later { s with inner, pending := effects, issued }
      { t with inner := other, pending := back, issued := issued' } where
  store := hstore
  issued := hissued'
  old := hold
  waiting w hw := rel_waiter_mono (h.waiting w (hwaits ▸ hw)) hids
  foreign w hw := h.foreign w (hwaits ▸ hw)
  loud := hloud
  owes := howes

theorem matched_foreign (hforeign : part.owns key e.1 = false)
    (h : Sim env env' key (part.after key e) later u t) :
    Matched env env' key part later e u t := by
  refine ⟨[], t, .refl t, ?_, h⟩
  rw [hforeign]
  exact .nil

theorem matched_own {l : Label} {o o' : Output} {t₁ : State} {front back : List Effect}
    (hown : part.owns key l = true) (hstep : (machine env').Step t (l, o') t₁)
    (hp : t₁.pending = front ++ back) (hquiet : Quiet front) (hsame : SameOutput o o')
    (h : Sim env env' key (part.after key (l, o)) later u { t₁ with pending := back }) :
    Matched env env' key part later (l, o) u t := by
  obtain ⟨es, aborted, cancelled, hes, hr⟩ := @runs_quiet env' _ _ _ hp hquiet
  have hl : l.isPerform = false := by
    cases l with
    | perform => cases hown
    | _ => rfl
  refine ⟨(l, o') :: es, _, .cons hstep hr, ?_, ?_⟩
  · have hnone : es.filter (fun e => !e.1.isPerform) = [] := by
      refine List.filter_eq_nil_iff.mpr fun e he => ?_
      rw [hes e he]
      exact nofun
    rw [if_pos hown, List.filter_cons_of_pos (by rw [hl]; rfl), hnone]
    exact .cons ⟨rfl, hsame⟩ .nil
  · exact ⟨h.store, h.issued, h.old, h.waiting, h.foreign, h.loud, h.owes⟩

/-- What another client does under the lock. -/
theorem Sim.lockedForeign (h : Sim env env' key part now s t) (hp : s.pending = [])
    {inner : TaskStoreInner} {effects : List Effect} {issued : ℕ} (hle : s.issued ≤ issued)
    (hstore : StoreSim key part later inner t.inner)
    (howes : (owed env effects).filter (· ∈ part.ids) = []) :
    Sim env env' key part later { s with inner, pending := effects, issued } t := by
  have ht : { t with inner := t.inner, pending := [], issued := t.issued } = t := by
    rw [← h.idle hp]
  rw [← ht]
  refine h.locked hstore rfl (List.Subset.refl _) h.issued (fun taskId hid => ?_)
    (List.forall_mem_nil _) howes.symm
  obtain ⟨n, hn, hname⟩ := h.old taskId hid
  exact ⟨n, Nat.lt_of_lt_of_le hn hle, hname⟩

theorem matched_foreign_locked (h : Sim env env' key part now s t) (hp : s.pending = [])
    (hforeign : part.owns key e.1 = false) (hafter : part.after key e = part)
    {inner : TaskStoreInner} {effects : List Effect} {issued : ℕ} (hle : s.issued ≤ issued)
    (hstore : StoreSim key part later inner t.inner)
    (howes : (owed env effects).filter (· ∈ part.ids) = []) :
    Matched env env' key part later e { s with inner, pending := effects, issued } t := by
  refine matched_foreign hforeign ?_
  rw [hafter]
  exact h.lockedForeign hp hle hstore howes

/-- What the client does under the lock, other than create a task. -/
theorem matched_own_locked {l : Label} {o o' : Output} (h : Sim env env' key part now s t)
    (hown : part.owns key l = true) (hafter : part.after key (l, o) = part)
    {inner other : TaskStoreInner} {effects front back : List Effect}
    (hstep : (machine env').Step t (l, o') { t with inner := other, pending := front ++ back })
    (hquiet : Quiet front) (hsame : SameOutput o o')
    (hstore : StoreSim key part later inner other)
    (hloud : ∀ effect ∈ back, notifyOf effect ≠ none)
    (howes : owed env' back = (owed env effects).filter (· ∈ part.ids)) :
    Matched env env' key part later (l, o) { s with inner, pending := effects } t := by
  refine matched_own hown hstep rfl hquiet hsame ?_
  rw [hafter]
  exact h.locked hstore rfl (List.Subset.refl _) h.issued h.old hloud howes

end Sim

/-! ## Each operation -/

section Operations
variable {env env' : Platform} {key : String} {part : Part} {now : DateTime} {s t : State}
  (h : Sim env env' key part now s t)
include h

/-- An operation of the client that only drops what is expired. -/
theorem matched_swept {l : Label} {o o' : Output} {swept : DateTime} (hle : now ≤ swept)
    (hown : part.owns key l = true) (hafter : part.after key (l, o) = part)
    (hsame : SameOutput o o') (hstep : (machine env').Step t (l, o') { t with
      inner := t.inner.cleanupExpired swept, pending := t.inner.cleanupDrops swept }) :
    Matched env env' key part swept (l, o) { s with
      inner := s.inner.cleanupExpired swept, pending := s.inner.cleanupDrops swept } t := by
  rw [← List.append_nil (t.inner.cleanupDrops swept)] at hstep
  exact matched_own_locked h hown hafter hstep quiet_drops hsame (h.store.mono hle).sweepBoth
    (List.forall_mem_nil _) (owes_nothing quiet_drops).symm

theorem matched_foreign_swept {swept : DateTime} {e : Event} (hle : now ≤ swept)
    (hp : s.pending = []) (hforeign : part.owns key e.1 = false)
    (hafter : part.after key e = part) :
    Matched env env' key part swept e { s with
      inner := s.inner.cleanupExpired swept, pending := s.inner.cleanupDrops swept } t :=
  matched_foreign_locked h hp hforeign hafter (le_refl _) (h.store.mono hle).sweep
    (owes_nothing quiet_drops)

theorem matched_getTask {taskId peerKey : String} {swept : DateTime} {u : State} {o : Output}
    (hle : now ≤ swept) (he : (machine env).Step s (.getTask taskId peerKey swept, o) u) :
    Matched env env' key part swept (.getTask taskId peerKey swept, o) u t := by
  obtain ⟨hp, rfl, rfl⟩ := step_getTask.mp he
  by_cases hkey : peerKey = key
  · subst hkey
    have hown : part.owns peerKey (.getTask taskId peerKey swept) = true := decide_eq_true rfl
    have hvalue : (getTask s.inner taskId peerKey swept).value =
        (getTask t.inner taskId peerKey swept).value := by
      rw [getTask_visible, getTask_visible]
      rcases (h.store.mono hle).view.cases taskId with
        ⟨hnone, hnone'⟩ | ⟨entry, entry', hsome, hsome', hsame⟩
      · rw [hnone, hnone']
      · rw [hsome, hsome', Option.map_some, Option.map_some, hsame.task]
    rw [hvalue]
    exact matched_swept h hle hown rfl (.got _) (step_getTask.mpr ⟨h.idle hp, rfl, rfl⟩)
  · exact matched_foreign_swept h hle hp (decide_eq_false hkey) rfl

theorem matched_listTasks {peerKey : String} {swept : DateTime} {u : State} {o : Output}
    (hle : now ≤ swept) (he : (machine env).Step s (.listTasks peerKey swept, o) u) :
    Matched env env' key part swept (.listTasks peerKey swept, o) u t := by
  obtain ⟨hp, rfl, rfl⟩ := step_listTasks.mp he
  by_cases hkey : peerKey = key
  · subst hkey
    have hown : part.owns peerKey (.listTasks peerKey swept) = true := decide_eq_true rfl
    exact matched_swept h hle hown rfl (.listed (listTasks_perm (h.store.mono hle).view))
      (step_listTasks.mpr ⟨h.idle hp, rfl, rfl⟩)
  · exact matched_foreign_swept h hle hp (decide_eq_false hkey) rfl

theorem matched_attachHandle {taskId : String} {handle : JoinHandle} {u : State} {o : Output}
    (he : (machine env).Step s (.attachHandle taskId handle, o) u) :
    Matched env env' key part now (.attachHandle taskId handle, o) u t := by
  obtain ⟨hp, rfl, rfl⟩ := step_attachHandle.mp he
  have hquiet : ∀ inner : TaskStoreInner, Quiet (attachHandle inner taskId handle).effects := by
    intro inner
    unfold attachHandle
    split
    · exact List.forall_mem_nil _
    · exact @quiet_abort (some handle)
  by_cases hid : taskId ∈ part.ids
  · have hown : part.owns key (.attachHandle taskId handle) = true := decide_eq_true hid
    have hboth : StoreSim key part now (attachHandle s.inner taskId handle).inner
        (attachHandle t.inner taskId handle).inner := h.store.attach.attachOwn
    have hstep : (machine env').Step t (.attachHandle taskId handle, .silent) { t with
        inner := (attachHandle t.inner taskId handle).inner
        pending := (attachHandle t.inner taskId handle).effects ++ [] } := by
      rw [List.append_nil]
      exact step_attachHandle.mpr ⟨h.idle hp, rfl, rfl⟩
    exact matched_own_locked h hown rfl hstep (hquiet t.inner) .silent hboth
      (List.forall_mem_nil _) (owes_nothing (hquiet s.inner)).symm
  · have hforeign : part.owns key (.attachHandle taskId handle) = false := decide_eq_false hid
    exact matched_foreign_locked h hp hforeign rfl (le_refl _) h.store.attach
      (owes_nothing (hquiet s.inner))

/-- A task of the client is settled on both servers. -/
theorem matched_settled {l : Label} {o : Output} {taskId : String} {swept : DateTime}
    {entry entry' updated updated' : TaskEntry} {front front' : List Effect}
    (hnamed : Named env s) (hnamed' : Named env' t) (hle : now ≤ swept)
    (hown : part.owns key l = true) (hafter : part.after key (l, o) = part)
    (hsome : visible key swept s.inner taskId = some entry)
    (hsome' : visible key swept t.inner taskId = some entry') (hsame : SameEntry updated updated')
    (hkey : updated.peerKey = entry.peerKey) (hkey' : updated'.peerKey = entry'.peerKey)
    (hexpired : updated.isExpired swept = entry.isExpired swept)
    (hexpired' : updated'.isExpired swept = entry'.isExpired swept)
    (hquiet : Quiet front) (hquiet' : Quiet front') (houtput : SameOutput o o)
    (hstep : (machine env').Step t (l, o) { t with
      inner := ⟨(t.inner.cleanupExpired swept).entries.replace taskId updated'⟩
      pending := front' ++ [.notifyWaiters entry'.notify] }) :
    Matched env env' key part swept (l, o) { s with
      inner := ⟨(s.inner.cleanupExpired swept).entries.replace taskId updated⟩
      pending := front ++ [.notifyWaiters entry.notify] } t := by
  have hstore := (h.store.mono hle).sweepBoth
  obtain ⟨hlookup, _, hmine⟩ := lookup_of_visible hsome
  obtain ⟨hlookup', _, _⟩ := lookup_of_visible hsome'
  have hid : taskId ∈ part.ids := (h.store.mine taskId entry hlookup).mp hmine
  have hname := (hnamed.stored taskId entry hlookup).1
  have hname' := (hnamed'.stored taskId entry' hlookup').1
  refine matched_own_locked h hown hafter hstep hquiet' houtput
    (hstore.updateBoth ((visible_cleanupExpired (le_refl _)).trans hsome)
      ((visible_cleanupExpired (le_refl _)).trans hsome') hsame hkey hkey' hexpired hexpired') ?_ ?_
  · intro effect heffect
    rw [List.mem_singleton.mp heffect]
    exact nofun
  · rw [owed_quiet hquiet]
    change [env'.newV4 entry'.notify] = [env.newV4 entry.notify].filter (· ∈ part.ids)
    rw [hname, hname']
    simp [hid]

/-- A task of another client is settled. -/
theorem matched_foreign_settled {e : Event} {taskId : String} {swept : DateTime}
    {entry updated : TaskEntry} {front : List Effect} (hnamed : Named env s) (hle : now ≤ swept)
    (hp : s.pending = []) (hforeign : part.owns key e.1 = false) (hafter : part.after key e = part)
    (hlookup : (s.inner.cleanupExpired swept).entries.lookup taskId = some entry)
    (hother : entry.peerKey ≠ key) (hkey : updated.peerKey = entry.peerKey)
    (hexpired : updated.isExpired swept = entry.isExpired swept) (hquiet : Quiet front) :
    Matched env env' key part swept e { s with
      inner := ⟨(s.inner.cleanupExpired swept).entries.replace taskId updated⟩
      pending := front ++ [.notifyWaiters entry.notify] } t := by
  have hstore := (h.store.mono hle).sweep
  have hbefore := (TaskStoreInner.lookup_cleanupExpired.mp hlookup).1
  have hid : taskId ∉ part.ids := mt (h.store.mine taskId entry hbefore).mpr hother
  refine matched_foreign_locked h hp hforeign hafter (le_refl _)
    (hstore.updateForeign hlookup hother hkey hexpired) ?_
  rw [owed_quiet hquiet]
  change [env.newV4 entry.notify].filter (· ∈ part.ids) = []
  rw [(hnamed.stored taskId entry hbefore).1]
  simp [hid]

theorem matched_cancel {taskId peerKey : String} {swept later : DateTime} {u : State} {o : Output}
    (hnamed : Named env s) (hnamed' : Named env' t) (hformat : env'.toRfc3339 = env.toRfc3339)
    (hle : now ≤ swept) (he : (machine env).Step s (.cancel taskId peerKey swept later, o) u) :
    Matched env env' key part swept (.cancel taskId peerKey swept later, o) u t := by
  obtain ⟨hp, rfl, rfl⟩ := step_cancel.mp he
  have hquiet : ∀ (inner : TaskStoreInner) (entry : TaskEntry), Quiet (inner.cleanupDrops swept ++
      .cancelToken entry.cancellation :: (entry.handle.map .abort).toList) := by
    intro inner entry
    exact quiet_drops.append (@quiet_drop entry)
  by_cases hkey : peerKey = key
  · subst hkey
    have hown : part.owns peerKey (.cancel taskId peerKey swept later) = true := decide_eq_true rfl
    have hstep : ∀ sec, cancel env' t.inner taskId peerKey swept later = sec →
        (machine env').Step t (.cancel taskId peerKey swept later, .cancelled sec.value)
          { t with inner := sec.inner, pending := sec.effects } := by
      rintro _ rfl
      exact step_cancel.mpr ⟨h.idle hp, rfl, rfl⟩
    rcases (h.store.mono hle).view.cases taskId with
      ⟨hnone, hnone'⟩ | ⟨entry, entry', hsome, hsome', hsame⟩
    · rw [cancel_of_none hnone]
      exact matched_swept h hle hown rfl (.cancelled _) (hstep _ (cancel_of_none hnone'))
    · have hupdated : SameEntry (cancelledEntry env entry later) (cancelledEntry env' entry' later) := by
        refine ⟨?_, hsame.createdAt, rfl, hsame.peer, hsame.peerKey⟩
        unfold cancelledEntry
        rw [hsame.task, hformat]
      by_cases hterminal : isTerminal entry.task.status = true
      · rw [cancel_of_terminal hsome hterminal]
        rw [hsame.task] at hterminal ⊢
        exact matched_swept h hle hown rfl (.cancelled _)
          (hstep _ (cancel_of_terminal hsome' hterminal))
      · rw [cancel_of_open hsome hterminal]
        have hopen := hstep _ (cancel_of_open hsome' (by rwa [← hsame.task]))
        rw [← hupdated.task, ← hsame.peer] at hopen
        exact matched_settled h hnamed hnamed' hle hown rfl hsome hsome' hupdated rfl rfl rfl rfl
          (hquiet _ entry) (hquiet _ entry') (.cancelled _) hopen
  · have hforeign : part.owns key (.cancel taskId peerKey swept later) = false :=
      decide_eq_false hkey
    cases hvisible : visible peerKey swept s.inner taskId with
    | none =>
      rw [cancel_of_none hvisible]
      exact matched_foreign_swept h hle hp hforeign rfl
    | some entry =>
      by_cases hterminal : isTerminal entry.task.status = true
      · rw [cancel_of_terminal hvisible hterminal]
        exact matched_foreign_swept h hle hp hforeign rfl
      · rw [cancel_of_open hvisible hterminal]
        obtain ⟨hlookup, hlive, hother⟩ := lookup_of_visible hvisible
        refine matched_foreign_settled h hnamed hle hp hforeign rfl
          (TaskStoreInner.lookup_cleanupExpired.mpr ⟨hlookup, hlive⟩) ?_ rfl rfl (hquiet _ entry)
        rwa [hother]

theorem matched_finish {taskId : String} {result : TerminalResult} {swept later : DateTime}
    {u : State} {o : Output} (hnamed : Named env s) (hnamed' : Named env' t)
    (hformat : env'.toRfc3339 = env.toRfc3339) (hle : now ≤ swept)
    (he : (machine env).Step s (.finish taskId result swept later, o) u) :
    Matched env env' key part swept (.finish taskId result swept later, o) u t := by
  obtain ⟨hp, rfl, rfl⟩ := step_finish.mp he
  have hquiet : ∀ (inner : TaskStoreInner) (entry : TaskEntry), Quiet (inner.cleanupDrops swept ++
      (entry.handle.map .abort).toList) := by
    intro inner entry
    exact quiet_drops.append quiet_abort
  by_cases hid : taskId ∈ part.ids
  · have hown : part.owns key (.finish taskId result swept later) = true := decide_eq_true hid
    have hmine : ∀ entry, s.inner.entries.lookup taskId = some entry → entry.peerKey = key :=
      fun entry hentry => (h.store.mine taskId entry hentry).mpr hid
    have hmine' := h.store.only taskId
    have hstep : ∀ sec, finish env' t.inner taskId result swept later = sec →
        (machine env').Step t (.finish taskId result swept later, .finished sec.value)
          { t with inner := sec.inner, pending := sec.effects } := by
      rintro _ rfl
      exact step_finish.mpr ⟨h.idle hp, rfl, rfl⟩
    rcases (h.store.mono hle).view.cases taskId with
      ⟨hnone, hnone'⟩ | ⟨entry, entry', hsome, hsome', hsame⟩
    · rw [finish_of_none hmine hnone]
      exact matched_swept h hle hown rfl (.finished _) (hstep _ (finish_of_none hmine' hnone'))
    · have hupdated : SameEntry (finishedEntry env entry result later)
          (finishedEntry env' entry' result later) := by
        refine ⟨?_, hsame.createdAt, rfl, hsame.peer, hsame.peerKey⟩
        unfold finishedEntry
        rw [hsame.task, hformat]
      by_cases hterminal : isTerminal entry.task.status = true
      · rw [finish_of_terminal hmine hsome hterminal]
        rw [hsame.task] at hterminal
        exact matched_swept h hle hown rfl (.finished _)
          (hstep _ (finish_of_terminal hmine' hsome' hterminal))
      · rw [finish_of_open hmine hsome hterminal]
        have hopen := hstep _ (finish_of_open hmine' hsome' (by rwa [← hsame.task]))
        rw [← hupdated.task, ← hsame.peer] at hopen
        exact matched_settled h hnamed hnamed' hle hown rfl hsome hsome' hupdated rfl rfl rfl rfl
          (hquiet _ entry) (hquiet _ entry') (.finished _) hopen
  · have hforeign : part.owns key (.finish taskId result swept later) = false :=
      decide_eq_false hid
    cases hentry : s.inner.entries.lookup taskId with
    | none =>
      have hnone : ∀ entry, s.inner.entries.lookup taskId = some entry → entry.peerKey = key := by
        intro entry hfound
        rw [hentry] at hfound
        cases hfound
      rw [finish_of_none hnone (by rw [visible, hentry]; rfl)]
      exact matched_foreign_swept h hle hp hforeign rfl
    | some entry =>
      have hother : entry.peerKey ≠ key := fun hkey => hid ((h.store.mine taskId entry hentry).mp hkey)
      have hsole : ∀ found, s.inner.entries.lookup taskId = some found →
          found.peerKey = entry.peerKey := by
        intro found hfound
        rw [hentry] at hfound
        cases hfound
        rfl
      cases hvisible : visible entry.peerKey swept s.inner taskId with
      | none =>
        rw [finish_of_none hsole hvisible]
        exact matched_foreign_swept h hle hp hforeign rfl
      | some shown =>
        obtain ⟨hlookup, hlive, _⟩ := lookup_of_visible hvisible
        cases hentry.symm.trans hlookup
        by_cases hterminal : isTerminal entry.task.status = true
        · rw [finish_of_terminal hsole hvisible hterminal]
          exact matched_foreign_swept h hle hp hforeign rfl
        · rw [finish_of_open hsole hvisible hterminal]
          exact matched_foreign_settled h hnamed hle hp hforeign rfl
            (TaskStoreInner.lookup_cleanupExpired.mpr ⟨hlookup, hlive⟩) hother rfl rfl
            (hquiet _ entry)

theorem matched_create {peer : Peer} {peerKey : String} {ttlMs : Option UInt64}
    {swept later : DateTime} {u : State} {o : Output} (hinj : Function.Injective env.newV4)
    (hnamed : Named env s) (hformat : env'.toRfc3339 = env.toRfc3339)
    (hids : ∀ n taskId, (part.after key (.create peer peerKey ttlMs swept later, o)).ids[n]? =
      some taskId → env'.newV4 n = taskId) (hle : now ≤ swept)
    (he : (machine env).Step s (.create peer peerKey ttlMs swept later, o) u) :
    Matched env env' key part swept (.create peer peerKey ttlMs swept later, o) u t := by
  obtain ⟨hp, rfl, rfl⟩ := step_create.mp he
  have hold : ∀ taskId ∈ part.ids, ∃ n < s.issued + 1, env.newV4 n = taskId := by
    intro taskId hid
    obtain ⟨n, hn, hname⟩ := h.old taskId hid
    exact ⟨n, Nat.lt_succ_of_lt hn, hname⟩
  have hquiet : ∀ (env : Platform) (issued : ℕ) (inner : TaskStoreInner),
      Quiet (create env issued inner peer peerKey ttlMs swept later).effects := by
    intro env issued inner
    refine quiet_drops.append ?_
    cases (inner.cleanupExpired swept).entries.lookup (env.newV4 issued) with
    | none => exact List.forall_mem_nil _
    | some entry => exact quiet_drop
  by_cases hkey : peerKey = key
  · have hown : part.owns key (.create peer peerKey ttlMs swept later) = true :=
      decide_eq_true hkey
    have hafter : part.after key (.create peer peerKey ttlMs swept later,
        .created (create env s.issued s.inner peer peerKey ttlMs swept later).value) =
        { part with ids := part.ids ++ [env.newV4 s.issued] } := if_pos hkey
    rw [hafter] at hids
    have hid : env'.newV4 t.issued = env.newV4 s.issued := by
      refine hids _ _ ?_
      rw [h.issued]
      exact List.getElem?_concat_length
    have hstore : StoreSim key { part with ids := part.ids ++ [env.newV4 s.issued] } swept
        (create env s.issued s.inner peer peerKey ttlMs swept later).inner
        (create env' t.issued t.inner peer peerKey ttlMs swept later).inner := by
      unfold create
      simp only
      rw [hid, hformat]
      exact (h.store.mono hle).sweepBoth.createOwn ⟨rfl, rfl, rfl, rfl, rfl⟩ hkey
    refine matched_own hown (step_create.mpr ⟨h.idle hp, rfl, rfl⟩) (List.append_nil _).symm
      (hquiet env' t.issued t.inner) (.created ?_) ?_
    · unfold create
      simp only
      rw [hid, hformat]
    · rw [hafter]
      refine h.locked hstore rfl (List.subset_append_left _ _) ?_ ?_ (List.forall_mem_nil _)
        (owes_nothing (hquiet env s.issued s.inner)).symm
      · rw [h.issued, List.length_append]
        rfl
      · intro taskId hmem
        rcases List.mem_append.mp hmem with hmem | hmem
        · exact hold taskId hmem
        · exact ⟨s.issued, Nat.lt_succ_self _, (List.mem_singleton.mp hmem).symm⟩
  · have hforeign : part.owns key (.create peer peerKey ttlMs swept later) = false :=
      decide_eq_false hkey
    have hnew : env.newV4 s.issued ∉ part.ids := by
      intro hmem
      obtain ⟨n, hn, hname⟩ := h.old _ hmem
      exact absurd (hinj hname) (Nat.ne_of_lt hn)
    have hfresh : (s.inner.cleanupExpired swept).entries.lookup (env.newV4 s.issued) = none := by
      cases hentry : (s.inner.cleanupExpired swept).entries.lookup (env.newV4 s.issued) with
      | none => rfl
      | some entry =>
        obtain ⟨hname, hlt⟩ := hnamed.stored _ entry
          (TaskStoreInner.lookup_cleanupExpired.mp hentry).1
        exact absurd (hinj hname) (Nat.ne_of_lt hlt)
    have hafter : part.after key (.create peer peerKey ttlMs swept later,
        .created (create env s.issued s.inner peer peerKey ttlMs swept later).value) = part :=
      if_neg hkey
    exact matched_foreign_locked h hp hforeign hafter (Nat.le_succ _)
      ((h.store.mono hle).sweep.createForeign hfresh hkey hnew)
      (owes_nothing (hquiet env s.issued s.inner))

end Operations

end RustMcpCore.TaskStore
