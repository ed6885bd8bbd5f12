import Mathlib.Data.List.Perm.Basic
import RustMcpCore.Tasks.Cancellable
import RustMcpCore.Tasks.StatusNotifications

/-! # Who announces a terminal transition

The party that settles a task calls `notify_task_status` next, with nothing in between at
which its future could be dropped, but the call itself may suspend. A worker is an execution that the
store can abort; the handler of `tasks/cancel` is not.
-/
namespace RustMcpCore.TaskAnnouncements
open Library

inductive Party
  | worker (k : ℕ)
  | handler
  deriving DecidableEq

/-- A call of `notify_task_status`. -/
structure Call where
  party : Party
  task : Task
  peer : Peer

structure State where
  requests : TaskRequests.State
  /-- To be made by parties that have performed a transition. -/
  due : List Call
  /-- Made, and not returned. -/
  sending : List Call
  /-- Made so far. -/
  calls : List Call

inductive Label
  | step (label : TaskRequests.Label)
  /-- A party makes its call. -/
  | notify (i : ℕ)
  /-- The call of a handler returns. -/
  | returned (i : ℕ)

inductive Output
  | silent
  | step (output : TaskRequests.Output)

abbrev Event := Label × Output

/-- A finish or a cancel that takes effect, as the call that it asks for. -/
def transition : Event → Option Call
  | (.step (.finish k _ _), .step (.store (.finished (some (task, peer))))) =>
    some ⟨.worker k, task, peer⟩
  | (.step (.store (.cancel _ _ _ _)), .step (.store (.cancelled (.ok (task, peer))))) =>
    some ⟨.handler, task, peer⟩
  | _ => none

/-- The execution whose call returns, or whose future is dropped. -/
def ends : TaskRequests.Label → Option ℕ
  | .notified k | .reap k => some k
  | .enqueue .. | .spawn _ | .attach _ | .dropHandler _ | .advance _ _ | .finish .. | .store _ => none

variable (env : Platform) (engine : TaskRequests.Engine)

def next (s : State) : Label → Option (State × Output)
  | .step label =>
    match ends label with
    | some k =>
      -- The call comes before the next point at which the future can be dropped.
      if s.due.any (·.party = .worker k) then none
      else (TaskRequests.next env engine s.requests label).map fun (requests, output) =>
        ({ s with requests, sending := s.sending.filter (·.party ≠ .worker k) }, .step output)
    | none =>
      (TaskRequests.next env engine s.requests label).map fun (requests, output) =>
        ({ s with
            requests
            due := s.due ++ (transition (.step label, .step output)).toList }, .step output)
  | .notify i =>
    s.due[i]?.map fun call =>
      ({ s with
          due := s.due.eraseIdx i
          sending := call :: s.sending
          calls := s.calls ++ [call] }, .silent)
  | .returned i =>
    match s.sending[i]? with
    | some call =>
      if call.party = .handler then
        some ({ s with sending := s.sending.eraseIdx i }, .silent)
      else none
    | none => none

def machine : Machine State Label Output :=
  ⟨⟨(TaskRequests.machine env engine).init, [], [], []⟩, next env engine⟩

/-- An execution is between a transition and the return of its call. -/
def Busy (s : State) (k : ℕ) : Prop := ∃ call ∈ s.due ++ s.sending, call.party = .worker k

/-- No party is aborted between its transition and the return of its call. -/
def Undisturbed (s : State) : Prop :=
  ∀ k, Busy s k → k ∉ s.requests.store.aborted ∧ .abort k ∉ s.requests.store.pending

/-- A worker settles its task before the store has its handle, and when the store has it
the call is over or the task stays. -/
structure Harmless (env : Platform) (engine : TaskRequests.Engine) (s : State) (e : Event) :
    Prop where
  unattached : ∀ k swept now entry, e.1 = .step (.finish k swept now) →
    s.requests.store.stored (env.newV4 k) = some entry → entry.isExpired swept = false →
    isTerminal entry.task.status = false → entry.handle ≠ some k
  unexpired : ∀ k label l swept entry, Busy s k → e.1 = .step label →
    TaskRequests.storeLabel env engine s.requests label = some l → l.sweeps = some swept →
    s.requests.store.stored (env.newV4 k) = some entry → entry.handle = some k →
    entry.isExpired swept = false
  attached : ∀ k, Busy s k → e.1 = .step (.attach k) →
    s.requests.store.stored (env.newV4 k) ≠ none

/-! ## What each step does -/

variable {env engine}
variable {s t : State} {e : Event}

/-- What a step does to the calls. -/
inductive CallStep (env : Platform) (engine : TaskRequests.Engine) (s : State) (e : Event)
    (t : State) : Prop
  | step {label : TaskRequests.Label} {output : TaskRequests.Output}
      (event : e = (.step label, .step output)) (goesOn : ends label = none)
      (request : (TaskRequests.machine env engine).Step s.requests (label, output) t.requests)
      (due : t.due = s.due ++ (transition e).toList) (sending : t.sending = s.sending)
      (calls : t.calls = s.calls)
  | ended {label : TaskRequests.Label} {output : TaskRequests.Output} {k : ℕ}
      (event : e = (.step label, .step output)) (ended : ends label = some k)
      (request : (TaskRequests.machine env engine).Step s.requests (label, output) t.requests)
      (due : t.due = s.due) (sending : ∀ call ∈ t.sending, call ∈ s.sending)
      (calls : t.calls = s.calls)
  | notified {i : ℕ} {call : Call} (event : e.1 = .notify i) (found : s.due[i]? = some call)
      (requests : t.requests = s.requests) (due : t.due = s.due.eraseIdx i)
      (sending : t.sending = call :: s.sending) (calls : t.calls = s.calls ++ [call])
  | returned {i : ℕ} (event : e.1 = .returned i) (requests : t.requests = s.requests)
      (due : t.due = s.due) (sending : ∀ call ∈ t.sending, call ∈ s.sending)
      (calls : t.calls = s.calls)

theorem step_calls (he : (machine env engine).Step s e t) : CallStep env engine s e t := by
  obtain ⟨l, o⟩ := e
  change next env engine s l = some (t, o) at he
  cases l with
  | step label =>
    simp only [next] at he
    cases hends : ends label with
    | some k =>
      simp only [hends] at he
      split at he
      · cases he
      · obtain ⟨⟨requests, output⟩, hrequest, heq⟩ := Option.map_eq_some_iff.mp he
        cases heq
        exact .ended rfl hends hrequest rfl (fun _ h => List.mem_of_mem_filter h) rfl
    | none =>
      simp only [hends] at he
      obtain ⟨⟨requests, output⟩, hrequest, heq⟩ := Option.map_eq_some_iff.mp he
      cases heq
      exact .step rfl hends hrequest rfl rfl rfl
  | notify i =>
    obtain ⟨call, hcall, heq⟩ := Option.map_eq_some_iff.mp he
    cases heq
    exact .notified rfl hcall rfl rfl rfl rfl
  | returned i =>
    simp only [next] at he
    split at he
    · split at he
      · cases he
        exact .returned rfl rfl rfl (fun _ h => List.mem_of_mem_eraseIdx h) rfl
      · cases he
    · cases he

theorem step_request {label : TaskRequests.Label} (he : (machine env engine).Step s e t)
    (hlabel : e.1 = .step label) : ∃ output, e = (.step label, .step output) ∧
      (TaskRequests.machine env engine).Step s.requests (label, output) t.requests := by
  cases step_calls he with
  | @step label' output event _ request =>
    subst event
    cases hlabel
    exact ⟨output, rfl, request⟩
  | @ended label' output _ event _ request =>
    subst event
    cases hlabel
    exact ⟨output, rfl, request⟩
  | notified event => rw [event] at hlabel; cases hlabel
  | returned event => rw [event] at hlabel; cases hlabel

theorem transition_of_ends {label : TaskRequests.Label} {output : TaskRequests.Output} {k : ℕ}
    (h : ends label = some k) : transition (.step label, .step output) = none := by
  cases label with
  | notified | reap => rfl
  | _ => cases h

theorem storeLabel_of_ends {label : TaskRequests.Label} {k : ℕ} {requests : TaskRequests.State}
    (h : ends label = some k) : TaskRequests.storeLabel env engine requests label = none := by
  cases label with
  | notified | reap => rfl
  | _ => cases h

theorem cons_eraseIdx_perm {calls : List Call} {i : ℕ} {call : Call}
    (h : calls[i]? = some call) : (call :: calls.eraseIdx i).Perm calls := by
  obtain ⟨hi, rfl⟩ := List.getElem?_eq_some_iff.mp h
  exact List.getElem_cons_eraseIdx_perm hi

/-- What a transition finds, and what it leaves. -/
structure Settles (env : Platform) (before after : TaskRequests.State) (e : Event) (call : Call) :
    Prop where
  isOpen : ∃ entry, before.store.stored call.task.taskId = some entry ∧
    isTerminal entry.task.status = false
  closed : ∀ entry, after.store.stored call.task.taskId = some entry →
    isTerminal entry.task.status = true
  worker : ∀ k, call.party = .worker k → call.task.taskId = env.newV4 k ∧
    ∃ swept now entry, e.1 = .step (.finish k swept now) ∧
      before.store.stored (env.newV4 k) = some entry ∧ entry.isExpired swept = false ∧
      isTerminal entry.task.status = false

theorem step_settles {label : TaskRequests.Label} {output : TaskRequests.Output} {call : Call}
    {before after : TaskRequests.State} (hkeyed : TaskStore.Keyed before.store)
    (he : (TaskRequests.machine env engine).Step before (label, output) after)
    (h : transition (.step label, .step output) = some call) :
    Settles env before after (.step label, .step output) call := by
  change TaskRequests.next env engine before label = some (after, output) at he
  unfold transition at h
  split at h
  · rename_i k swept now task peer heq
    cases heq
    cases h
    simp only [TaskRequests.next] at he
    split at he
    · obtain ⟨⟨store, output⟩, hstore, heq⟩ := Option.map_eq_some_iff.mp he
      cases heq
      obtain ⟨entry, hstored, hlive, hopen, hid⟩ := TaskStore.finish_effective hstore
      rw [hkeyed _ entry hstored] at hid
      refine ⟨⟨entry, hid ▸ hstored, hopen⟩, fun entry' hentry' => ?_, ?_⟩
      · exact TaskStore.finish_closes hstore (hid ▸ hentry')
      · rintro _ ⟨⟩
        exact ⟨hid, swept, now, entry, rfl, hstored, hlive, hopen⟩
    · cases he
  · rename_i taskId peerKey swept now task peer heq
    cases heq
    cases h
    simp only [TaskRequests.next] at he
    split at he
    · obtain ⟨⟨store, output⟩, hstore, heq⟩ := Option.map_eq_some_iff.mp he
      cases heq
      obtain ⟨entry, hstored, hown, hopen, hid⟩ := TaskStore.cancel_effective hstore
      rw [hkeyed _ entry hstored] at hid
      refine ⟨⟨entry, hid ▸ hstored, hopen⟩, fun entry' hentry' => ?_,
        fun k hparty => by cases hparty⟩
      refine TaskStore.cancel_closes hstore (fun other hother => ?_) (hid ▸ hentry')
      cases hstored.symm.trans hother
      exact hown
    · cases he
  · cases h

/-! ## Every transition has its call -/

/-- How the calls of a run stand to its transitions. -/
structure Accounted (env : Platform) (es : List Event) (s : State) : Prop where
  tracked : TaskRequests.Tracked env s.requests
  keyed : TaskStore.Keyed s.requests.store
  condemned : TaskRequests.Condemned env s.requests
  calls : (es.filterMap transition).Perm (s.calls ++ s.due)
  sending : ∀ call ∈ s.sending, call ∈ s.calls
  closed : ∀ call ∈ es.filterMap transition,
    TaskStore.Closed env call.task.taskId s.requests.store
  worker : ∀ call ∈ es.filterMap transition, ∀ k, call.party = .worker k →
    call.task.taskId = env.newV4 k
  distinct : ((es.filterMap transition).map (·.task.taskId)).Nodup

theorem init_accounted : Accounted env [] (machine env engine).init where
  tracked := @TaskRequests.init_tracked env engine
  keyed _ _ h := by cases h
  condemned _ h := by rcases h with h | h <;> cases h
  calls := .nil
  sending _ h := by cases h
  closed _ h := by cases h
  worker _ h := by cases h
  distinct := .nil

theorem Accounted.busy {es : List Event} (hs : Accounted env es s) {k : ℕ} (h : Busy s k) :
    TaskStore.Closed env (env.newV4 k) s.requests.store := by
  obtain ⟨call, hcall, hparty⟩ := h
  have hmade : call ∈ s.calls ++ s.due := by
    rcases List.mem_append.mp hcall with hdue | hsending
    · exact List.mem_append_right _ hdue
    · exact List.mem_append_left _ (hs.sending call hsending)
  have hmem := hs.calls.mem_iff.mpr hmade
  rw [← hs.worker call hmem k hparty]
  exact hs.closed call hmem

/-- A step of the requests keeps what is known of the transitions so far. -/
theorem Accounted.request {es : List Event} {label : TaskRequests.Label}
    {output : TaskRequests.Output} (hs : Accounted env es s)
    (he : (TaskRequests.machine env engine).Step s.requests (label, output) t.requests)
    (hfresh : TaskStore.FreshIds env t.requests.store.issued) :
    TaskRequests.Tracked env t.requests ∧ TaskStore.Keyed t.requests.store ∧
      TaskRequests.Condemned env t.requests ∧
      ∀ taskId, TaskStore.Closed env taskId s.requests.store →
        TaskStore.Closed env taskId t.requests.store := by
  refine ⟨TaskRequests.step_tracked hs.tracked he hfresh, ?_,
    TaskRequests.step_condemned hs.tracked hs.condemned he hfresh, fun taskId hclosed => ?_⟩
  · rcases TaskRequests.step_store he with ⟨_, hstore⟩ | ⟨_, _, _, hstore, _⟩
    · rw [hstore]
      exact hs.keyed
    · exact TaskStore.step_keyed hs.keyed hstore
  · rcases TaskRequests.step_store he with ⟨_, hstore⟩ | ⟨_, _, _, hstore, _⟩
    · rw [hstore]
      exact hclosed
    · exact TaskStore.step_closed hstore hfresh hclosed

theorem transition_notify {i : ℕ} (h : e.1 = .notify i) : transition e = none := by
  obtain ⟨l, o⟩ := e
  cases h
  rfl

theorem transition_returned {i : ℕ} (h : e.1 = .returned i) : transition e = none := by
  obtain ⟨l, o⟩ := e
  cases h
  rfl

/-- A step without a transition may pass calls on from those that are due. -/
theorem Accounted.quiet {es : List Event} (hs : Accounted env es s) (h : transition e = none)
    (hrequests : TaskRequests.Tracked env t.requests ∧ TaskStore.Keyed t.requests.store ∧
      TaskRequests.Condemned env t.requests ∧
      ∀ taskId, TaskStore.Closed env taskId s.requests.store →
        TaskStore.Closed env taskId t.requests.store)
    (hcalls : (s.calls ++ s.due).Perm (t.calls ++ t.due))
    (hsending : ∀ call ∈ t.sending, call ∈ t.calls) : Accounted env (es ++ [e]) t := by
  obtain ⟨htracked, hkeyed, hcondemned, hclosed⟩ := hrequests
  have hsame : (es ++ [e]).filterMap transition = es.filterMap transition := by
    rw [List.filterMap_append, List.filterMap_cons_none h, List.filterMap_nil, List.append_nil]
  refine ⟨htracked, hkeyed, hcondemned, ?_, hsending, ?_, ?_, ?_⟩
  · rw [hsame]
    exact hs.calls.trans hcalls
  · rw [hsame]
    exact fun call hcall => hclosed _ (hs.closed call hcall)
  · rw [hsame]
    exact hs.worker
  · rw [hsame]
    exact hs.distinct

/-- A transition is the first one of its task. -/
theorem Accounted.settle {es : List Event} {label : TaskRequests.Label}
    {output : TaskRequests.Output} {call : Call} (hs : Accounted env es s)
    (he : (TaskRequests.machine env engine).Step s.requests (label, output) t.requests)
    (hfresh : TaskStore.FreshIds env t.requests.store.issued)
    (h : transition (.step label, .step output) = some call) (hdue : t.due = s.due ++ [call])
    (hsending : t.sending = s.sending) (hcalls : t.calls = s.calls) :
    Accounted env (es ++ [(.step label, .step output)]) t := by
  obtain ⟨htracked, hkeyed, hcondemned, hclosed⟩ := hs.request he hfresh
  have hsettles := step_settles hs.keyed he h
  obtain ⟨entry, hentry, hopen⟩ := hsettles.isOpen
  have hadd : (es ++ [(Label.step label, Output.step output)]).filterMap transition =
      es.filterMap transition ++ [call] := by
    rw [List.filterMap_append, List.filterMap_cons_some h, List.filterMap_nil]
  have hclosedCall : TaskStore.Closed env call.task.taskId t.requests.store := by
    obtain ⟨k, hk, hid⟩ := hs.tracked.wellFormed.issued _ entry hentry
    rcases TaskRequests.step_store he with ⟨_, hstore⟩ | ⟨_, _, _, hstore, _⟩
    · exact ⟨⟨k, by rw [hstore]; exact hk, hid⟩, hsettles.closed⟩
    · exact ⟨⟨k, hk.trans_le (TaskStore.step_issued hstore), hid⟩, hsettles.closed⟩
  refine ⟨htracked, hkeyed, hcondemned, ?_, ?_, ?_, ?_, ?_⟩
  · rw [hadd, hcalls, hdue, ← List.append_assoc]
    exact hs.calls.append_right [call]
  · rw [hsending, hcalls]
    exact hs.sending
  · intro call' hcall'
    rw [hadd] at hcall'
    rcases List.mem_append.mp hcall' with hcall' | hcall'
    · exact hclosed _ (hs.closed call' hcall')
    · rw [List.mem_singleton.mp hcall']
      exact hclosedCall
  · intro call' hcall' k hparty
    rw [hadd] at hcall'
    rcases List.mem_append.mp hcall' with hcall' | hcall'
    · exact hs.worker call' hcall' k hparty
    · rw [List.mem_singleton.mp hcall'] at hparty ⊢
      exact (hsettles.worker k hparty).1
  · rw [hadd, List.map_append]
    refine List.nodup_append.mpr ⟨hs.distinct, List.nodup_singleton _, ?_⟩
    -- An earlier transition of the same task would have closed it.
    rintro id hid _ hnew rfl
    obtain ⟨call', hcall', rfl⟩ := List.mem_map.mp hid
    have hterminal := (hs.closed call' hcall').terminal
    rw [List.mem_singleton.mp hnew] at hterminal
    rw [hterminal entry hentry] at hopen
    cases hopen

theorem step_accounted {es : List Event} (hs : Accounted env es s)
    (he : (machine env engine).Step s e t)
    (hfresh : TaskStore.FreshIds env t.requests.store.issued) : Accounted env (es ++ [e]) t := by
  cases step_calls he with
  | @step label output event goesOn request due sending calls =>
    cases htransition : transition e with
    | none =>
      rw [htransition, Option.toList_none, List.append_nil] at due
      refine hs.quiet htransition (hs.request request hfresh) (by rw [calls, due]) ?_
      rw [sending, calls]
      exact hs.sending
    | some call =>
      rw [htransition, Option.toList_some] at due
      subst event
      exact hs.settle request hfresh htransition due sending calls
  | @ended label output k event ended request due sending calls =>
    refine hs.quiet (by rw [event, transition_of_ends ended]) (hs.request request hfresh)
      (by rw [calls, due]) ?_
    rw [calls]
    exact fun call hcall => hs.sending call (sending call hcall)
  | @notified i call event found requests due sending calls =>
    refine hs.quiet (transition_notify event)
      (by rw [requests]; exact ⟨hs.tracked, hs.keyed, hs.condemned, fun _ h => h⟩) ?_ ?_
    · rw [calls, due, List.append_assoc, List.singleton_append]
      exact (cons_eraseIdx_perm found).symm.append_left s.calls
    · rw [sending, calls]
      intro call' hcall'
      rcases List.mem_cons.mp hcall' with rfl | hcall'
      · exact List.mem_append_right _ (List.mem_singleton_self _)
      · exact List.mem_append_left _ (hs.sending call' hcall')
  | @returned i event requests due sending calls =>
    refine hs.quiet (transition_returned event)
      (by rw [requests]; exact ⟨hs.tracked, hs.keyed, hs.condemned, fun _ h => h⟩)
      (by rw [calls, due]) ?_
    rw [calls]
    exact fun call hcall => hs.sending call (sending call hcall)

/-! ## Who is aborted -/

theorem busy_cases (he : (machine env engine).Step s e t) {k : ℕ} (h : Busy t k) :
    Busy s k ∨ ∃ call, transition e = some call ∧ call.party = .worker k := by
  obtain ⟨call, hcall, hparty⟩ := h
  cases step_calls he with
  | step _ _ _ due sending =>
    rw [due, sending] at hcall
    rcases List.mem_append.mp hcall with hcall | hcall
    · rcases List.mem_append.mp hcall with hcall | hcall
      · exact .inl ⟨call, List.mem_append_left _ hcall, hparty⟩
      · exact .inr ⟨call, Option.mem_toList.mp hcall, hparty⟩
    · exact .inl ⟨call, List.mem_append_right _ hcall, hparty⟩
  | ended _ _ _ due sending =>
    rw [due] at hcall
    rcases List.mem_append.mp hcall with hcall | hcall
    · exact .inl ⟨call, List.mem_append_left _ hcall, hparty⟩
    · exact .inl ⟨call, List.mem_append_right _ (sending call hcall), hparty⟩
  | @notified i found event hfound _ due sending =>
    rw [due, sending] at hcall
    rcases List.mem_append.mp hcall with hcall | hcall
    · exact .inl ⟨call, List.mem_append_left _ (List.mem_of_mem_eraseIdx hcall), hparty⟩
    · rcases List.mem_cons.mp hcall with rfl | hcall
      · exact .inl ⟨call, List.mem_append_left _ (List.mem_of_getElem? hfound), hparty⟩
      · exact .inl ⟨call, List.mem_append_right _ hcall, hparty⟩
  | returned _ _ due sending =>
    rw [due] at hcall
    rcases List.mem_append.mp hcall with hcall | hcall
    · exact .inl ⟨call, List.mem_append_left _ hcall, hparty⟩
    · exact .inl ⟨call, List.mem_append_right _ (sending call hcall), hparty⟩

/-- A step that works on the store, or settles a task. -/
theorem busy_of_goesOn {label : TaskRequests.Label} (he : (machine env engine).Step s e t)
    (hlabel : e.1 = .step label) (hends : ends label = none) {k : ℕ}
    (h : Busy s k ∨ ∃ call, transition e = some call ∧ call.party = .worker k) : Busy t k := by
  cases step_calls he with
  | step _ _ _ due sending =>
    rcases h with ⟨call, hcall, hparty⟩ | ⟨call, htransition, hparty⟩
    · refine ⟨call, ?_, hparty⟩
      rw [due, sending]
      rcases List.mem_append.mp hcall with hcall | hcall
      · exact List.mem_append_left _ (List.mem_append_left _ hcall)
      · exact List.mem_append_right _ hcall
    · refine ⟨call, ?_, hparty⟩
      rw [due, htransition]
      exact List.mem_append_left _ (List.mem_append_right _ (List.mem_singleton_self _))
  | ended event ended =>
    subst event
    cases hlabel
    rw [hends] at ended
    cases ended
  | notified event => rw [event] at hlabel; cases hlabel
  | returned event => rw [event] at hlabel; cases hlabel

theorem undisturbed_of_requests (hs : Undisturbed s) (hbusy : ∀ k, Busy t k → Busy s k)
    (hrequests : t.requests = s.requests) : Undisturbed t := by
  intro k hk
  rw [hrequests]
  exact hs k (hbusy k hk)

/-- A worker that is busy already is aborted for a reason that the guard excludes. -/
theorem not_aborts_busy {es : List Event} {label : TaskRequests.Label} {l : TaskStore.Label}
    {k : ℕ} (hs : Accounted env es s) (hguard : Harmless env engine s e)
    (hlabel : e.1 = .step label)
    (hl : TaskRequests.storeLabel env engine s.requests label = some l) (hbusy : Busy s k)
    (hcreates : l.creates = true → env.newV4 k ≠ env.newV4 s.requests.store.issued) :
    ¬ TaskStore.Aborts env s.requests.store l k := by
  have hclosed := hs.busy hbusy
  intro haborts
  cases haborts with
  | swept sweeps stored held expired =>
    obtain ⟨rfl, _⟩ := hs.tracked.handles _ _ k stored held
    rw [hguard.unexpired k label l _ _ hbusy hlabel hl sweeps stored held] at expired
    cases expired
  | replaced creates stored held =>
    obtain ⟨hid, _⟩ := hs.tracked.handles _ _ k stored held
    exact hcreates creates hid.symm
  | late attach gone =>
    subst attach
    obtain ⟨rfl, rfl⟩ := TaskRequests.storeLabel_attachHandle hl
    exact hguard.attached k hbusy hlabel gone
  | finished finish stored held isOpen =>
    obtain ⟨rfl, _⟩ := hs.tracked.handles _ _ k stored held
    rw [hclosed.terminal _ stored] at isOpen
    cases isOpen
  | cancelled cancel stored held isOpen =>
    obtain ⟨rfl, _⟩ := hs.tracked.handles _ _ k stored held
    rw [hclosed.terminal _ stored] at isOpen
    cases isOpen

/-- A worker that settles its task has not been aborted, and is not while the store does not
have its handle. -/
theorem not_aborts_settling {es : List Event} {label : TaskRequests.Label}
    {output : TaskRequests.Output} {call : Call} {k : ℕ} (hs : Accounted env es s)
    (hguard : Harmless env engine s (.step label, .step output))
    (he : (TaskRequests.machine env engine).Step s.requests (label, output) t.requests)
    (h : transition (.step label, .step output) = some call) (hparty : call.party = .worker k) :
    k ∉ s.requests.store.aborted ∧ .abort k ∉ s.requests.store.pending ∧
      ∀ l, TaskRequests.storeLabel env engine s.requests label = some l →
        ¬ TaskStore.Aborts env s.requests.store l k := by
  obtain ⟨_, swept, now, entry, hlabel, hstored, hlive, hopen⟩ :=
    (step_settles hs.keyed he h).worker k hparty
  have hfree : ¬ (k ∈ s.requests.store.aborted ∨ .abort k ∈ s.requests.store.pending) := by
    intro hcondemned
    rw [(hs.condemned k hcondemned).terminal entry hstored] at hopen
    cases hopen
  refine ⟨fun h => hfree (.inl h), fun h => hfree (.inr h), fun l hl haborts => ?_⟩
  obtain rfl : label = .finish k swept now := Label.step.inj hlabel
  have hfinish : ∃ result, l = .finish (env.newV4 k) result swept now := by
    simp only [TaskRequests.storeLabel] at hl
    split at hl
    · exact ⟨_, (Option.some.inj hl).symm⟩
    · cases hl
  obtain ⟨result, rfl⟩ := hfinish
  cases haborts with
  | swept sweeps stored held expired =>
    cases sweeps
    obtain ⟨rfl, _⟩ := hs.tracked.handles _ _ k stored held
    cases hstored.symm.trans stored
    rw [hlive] at expired
    cases expired
  | replaced creates => cases creates
  | late attach => cases attach
  | finished finish stored held =>
    obtain ⟨rfl, _⟩ := hs.tracked.handles _ _ k stored held
    cases hstored.symm.trans stored
    exact hguard.unattached k swept now entry rfl hstored hlive hopen held
  | cancelled cancel => cases cancel

theorem step_undisturbed {es : List Event} (hs : Accounted env es s) (hfree : Undisturbed s)
    (he : (machine env engine).Step s e t)
    (hfresh : TaskStore.FreshIds env t.requests.store.issued)
    (hguard : Harmless env engine s e) : Undisturbed t := by
  have hold : ∀ k, Busy t k → transition e = none → Busy s k := by
    intro k hk hnone
    rcases busy_cases he hk with hk | ⟨call, hcall, _⟩
    · exact hk
    · rw [hnone] at hcall
      cases hcall
  cases step_calls he with
  | notified event _ requests =>
    exact undisturbed_of_requests hfree (fun k hk => hold k hk (transition_notify event)) requests
  | returned event requests =>
    exact undisturbed_of_requests hfree (fun k hk => hold k hk (transition_returned event)) requests
  | @ended label output k event ended request =>
    have hsame : t.requests.store = s.requests.store := by
      rcases TaskRequests.step_store request with ⟨_, hstore⟩ | ⟨l, _, hl, _⟩
      · exact hstore
      · rw [storeLabel_of_ends ended] at hl
        cases hl
    intro k' hk'
    rw [hsame]
    exact hfree k' (hold k' hk' (by rw [event, transition_of_ends ended]))
  | @step label output event goesOn request =>
    subst event
    intro k hk
    have hearlier : k ∉ s.requests.store.aborted ∧ .abort k ∉ s.requests.store.pending ∧
        ∀ l output', TaskRequests.storeLabel env engine s.requests label = some l →
          (TaskStore.machine env).Step s.requests.store (l, output') t.requests.store →
          ¬ TaskStore.Aborts env s.requests.store l k := by
      rcases busy_cases he hk with hbusy | ⟨call, htransition, hparty⟩
      · obtain ⟨haborted, hpending⟩ := hfree k hbusy
        refine ⟨haborted, hpending, fun l output' hl hstore => ?_⟩
        exact not_aborts_busy hs hguard rfl hl hbusy fun hcreates =>
          TaskStore.not_created hstore hfresh (hs.busy hbusy).issued hcreates
      · obtain ⟨haborted, hpending, hnot⟩ :=
          not_aborts_settling hs hguard request htransition hparty
        exact ⟨haborted, hpending, fun l _ hl _ => hnot l hl⟩
    obtain ⟨haborted, hpending, hnot⟩ := hearlier
    rcases TaskRequests.step_store request with ⟨_, hstore⟩ | ⟨l, output', hl, hstore, _⟩
    · rw [hstore]
      exact ⟨haborted, hpending⟩
    · constructor
      · intro h
        rcases TaskStore.step_aborted hstore h with h | h
        · exact haborted h
        · exact hpending h
      · intro h
        rcases TaskStore.step_abort hstore h with h | h
        · exact hpending h
        · exact hnot l output' hl hstore h

theorem finish_transition {k : ℕ} {swept now : DateTime} {output : TaskRequests.Output}
    {before after : TaskRequests.State} {entry : TaskEntry}
    (he : (TaskRequests.machine env engine).Step before (.finish k swept now, output) after)
    (hstored : before.store.stored (env.newV4 k) = some entry)
    (hlive : entry.isExpired swept = false) (hopen : isTerminal entry.task.status = false) :
    (∃ call, transition (.step (.finish k swept now), .step output) = some call ∧
      call.party = .worker k) ∧
    (entry.handle = some k → .abort k ∈ after.store.pending) := by
  change TaskRequests.next env engine before (.finish k swept now) = some (after, output) at he
  simp only [TaskRequests.next] at he
  split at he
  · obtain ⟨⟨store, output⟩, hstore, heq⟩ := Option.map_eq_some_iff.mp he
    cases heq
    obtain ⟨task, peer, rfl⟩ := TaskStore.finish_of_isOpen hstore hstored hlive hopen
    exact ⟨⟨_, rfl, rfl⟩, TaskStore.finish_aborts hstore hstored hlive hopen⟩
  · cases he

/-- A step that leaves every party alone has met the guard. -/
theorem step_harmless (he : (machine env engine).Step s e t) (hfree : Undisturbed t) :
    Harmless env engine s e := by
  constructor
  · intro k swept now entry hlabel hstored hlive hopen hheld
    obtain ⟨output, rfl, request⟩ := step_request he hlabel
    obtain ⟨htransition, haborts⟩ := finish_transition request hstored hlive hopen
    have hbusy := busy_of_goesOn he rfl rfl (.inr htransition)
    exact (hfree k hbusy).2 (haborts hheld)
  · intro k label l swept entry hbusy hlabel hl hsweeps hstored hheld
    obtain ⟨output, rfl, request⟩ := step_request he hlabel
    have hends : ends label = none := by
      by_contra hends
      obtain ⟨k', hends⟩ := Option.ne_none_iff_exists'.mp hends
      rw [storeLabel_of_ends hends] at hl
      cases hl
    have hbusy := busy_of_goesOn he rfl hends (.inl hbusy)
    by_contra hexpired
    have hdrop := TaskStore.abort_mem_cleanupDrops.mpr
      ⟨_, entry, hstored, hheld, Bool.eq_true_of_not_eq_false hexpired⟩
    rcases TaskRequests.step_store request with ⟨hnone, _⟩ | ⟨l', _, hl', hstore, _⟩
    · rw [hl] at hnone
      cases hnone
    · cases hl.symm.trans hl'
      exact (hfree k hbusy).2 (TaskStore.step_drops hstore hsweeps hdrop)
  · intro k hbusy hlabel hgone
    obtain ⟨output, rfl, request⟩ := step_request he hlabel
    have hbusy := busy_of_goesOn he rfl rfl (.inl hbusy)
    rcases TaskRequests.step_store request with ⟨hnone, _⟩ | ⟨l', _, hl', hstore, _⟩
    · cases hnone
    · cases hl'
      obtain ⟨_, hafter, _⟩ := TaskStore.step_attachHandle.mp hstore
      have hlate : .abort k ∈ t.requests.store.pending := by
        rw [hafter]
        simp only [TaskStore.attachHandle]
        rw [show s.requests.store.inner.entries.lookup (env.newV4 k) = none from hgone]
        exact List.mem_singleton_self _
      exact (hfree k hbusy).2 hlate

/-! ## Whole runs -/

/-- Every transition of a run has one call, which is made or due; no task has two. -/
def AnnouncedOnce (es : List Event) (s : State) : Prop :=
  (es.filterMap transition).Perm (s.calls ++ s.due) ∧
    ((es.filterMap transition).map (·.task.taskId)).Nodup

theorem step_issued (he : (machine env engine).Step s e t) :
    s.requests.store.issued ≤ t.requests.store.issued := by
  have hrequest : ∀ {label output},
      (TaskRequests.machine env engine).Step s.requests (label, output) t.requests →
      s.requests.store.issued ≤ t.requests.store.issued := by
    intro label output request
    rcases TaskRequests.step_store request with ⟨_, hstore⟩ | ⟨_, _, _, hstore, _⟩
    · rw [hstore]
    · exact TaskStore.step_issued hstore
  cases step_calls he with
  | step _ _ request => exact hrequest request
  | ended _ _ request => exact hrequest request
  | notified _ _ requests => rw [requests]
  | returned _ requests => rw [requests]

section Runs
variable (env engine) (n : ℕ)

/-- A step of a run that issues no more ids than given. -/
def BoundedStep (s : State) (e : Event) (t : State) : Prop :=
  (machine env engine).Step s e t ∧ t.requests.store.issued ≤ n

variable {env engine n}

theorem bounded_accounted (hid : TaskStore.FreshIds env n) (es : List Event) (s : State)
    (e : Event) (t : State) (hs : Accounted env es s) (he : BoundedStep env engine n s e t) :
    Accounted env (es ++ [e]) t :=
  step_accounted hs he.1 (hid.mono he.2)

theorem bounded_harmless_iff (hid : TaskStore.FreshIds env n) (es : List Event) (s : State)
    (e : Event) (t : State) (hs : Accounted env es s) (hfree : Undisturbed s)
    (he : BoundedStep env engine n s e t) : Harmless env engine s e ↔ Undisturbed t :=
  ⟨step_undisturbed hs hfree he.1 (hid.mono he.2), step_harmless he.1⟩

end Runs

theorem init_undisturbed : Undisturbed (machine env engine).init := by
  rintro k ⟨call, hcall, _⟩
  cases hcall

/-- In a run every transition is announced once, and no party is aborted before its call
has returned, exactly if no step of the run meets a worker at the wrong time. -/
theorem announced_iff {es : List Event}
    (hr : Runs (machine env engine).Step (machine env engine).init es s)
    (hid : TaskStore.FreshIds env s.requests.store.issued) :
    (AnnouncedOnce es s ∧ Runs (fun s e t => (machine env engine).Step s e t ∧ Undisturbed t)
        (machine env engine).init es s) ↔
      Runs (Guarded (machine env engine).Step (Harmless env engine))
        (machine env engine).init es s := by
  have hsize : ∀ (s : State) (e : Event) (t : State), (machine env engine).Step s e t →
      s.requests.store.issued ≤ t.requests.store.issued := fun _ _ _ => step_issued
  have hbound : Runs (BoundedStep env engine s.requests.store.issued)
      (machine env engine).init es s := (hr.bounded hsize (le_refl _)).1
  have haccounted : Accounted env es s :=
    hbound.history (Accounted env) (bounded_accounted hid) init_accounted
  have hiff : Runs (fun s e t => BoundedStep env engine _ s e t ∧ Undisturbed t)
      (machine env engine).init es s ↔ Runs (Guarded (BoundedStep env engine _)
        (Harmless env engine)) (machine env engine).init es s :=
    Runs.guarded_iff (Accounted env) (bounded_accounted hid) (bounded_harmless_iff hid)
      init_accounted init_undisturbed
  constructor
  · rintro ⟨_, hfree⟩
    have hfree := (hfree.bounded (fun s e t h => hsize s e t h.1) (le_refl _)).1
    exact (hiff.mp (hfree.mono fun _ _ _ h => ⟨⟨h.1.1, h.2⟩, h.1.2⟩)).mono
      fun _ _ _ h => ⟨h.1.1, h.2⟩
  · intro hguarded
    have hguarded := (hguarded.bounded (fun s e t h => hsize s e t h.1) (le_refl _)).1
    refine ⟨⟨haccounted.calls, haccounted.distinct⟩, ?_⟩
    exact (hiff.mpr (hguarded.mono fun _ _ _ h => ⟨⟨h.1.1, h.2⟩, h.1.2⟩)).mono
      fun _ _ _ h => ⟨h.1.1, h.2⟩

/-! ## A worker that settles its task -/

theorem harmless_of_idle (hidle : ∀ k, ¬ Busy s k)
    (hfinish : ∀ k swept now, e.1 ≠ .step (.finish k swept now)) : Harmless env engine s e where
  unattached k swept now _ hlabel := absurd hlabel (hfinish k swept now)
  unexpired k _ _ _ _ hbusy := absurd hbusy (hidle k)
  attached k hbusy := absurd hbusy (hidle k)

theorem harmless_of_quiet (h : ∀ label, e.1 ≠ .step label) : Harmless env engine s e where
  unattached _ _ _ _ hlabel := absurd hlabel (h _)
  unexpired _ _ _ _ _ _ hlabel := absurd hlabel (h _)
  attached _ _ hlabel := absurd hlabel (h _)

def notifyingEngine : TaskRequests.Engine :=
  { TaskRequests.sampleEngine with config := TaskStore.notifyingConfig }

abbrev sampleMachine : Machine State Label Output :=
  machine TaskStore.samplePlatform notifyingEngine

def accept : List Label :=
  [.step (.enqueue ⟨"publish", none⟩ ⟨false, 0, "peer"⟩ 0 0), .step (.spawn 0)]

def settle : List Label :=
  [.step (.advance 0 (.ret (.ok TaskStore.emptyResult))), .step (.finish 0 1 1)]

/-- The worker is done before the handler has attached its handle. -/
theorem announced_early : ∃ es s, es.map Prod.fst = accept ++ settle ++ [.notify 0] ∧
    Runs sampleMachine.Step sampleMachine.init es s ∧ AnnouncedOnce es s ∧
    ∃ call, s.calls = [call] ∧ s.due = [] ∧ call.task.status = .completed := by
  have hidle : ∀ s : State, s.due = [] → s.sending = [] → ∀ k, ¬ Busy s k := by
    rintro s hdue hsending k ⟨call, hcall, _⟩
    rw [hdue, hsending] at hcall
    cases hcall
  have hm : sampleMachine.Meets (Harmless TaskStore.samplePlatform notifyingEngine)
      sampleMachine.init (accept ++ settle ++ [.notify 0]) := by
    refine ⟨harmless_of_idle (hidle _ rfl rfl) nofun, harmless_of_idle (hidle _ rfl rfl) nofun,
      harmless_of_idle (hidle _ rfl rfl) nofun, ?_, harmless_of_quiet nofun, trivial⟩
    constructor
    · intro k swept now entry hlabel hstored _ _ hheld
      cases hlabel
      cases hstored
      cases hheld
    · exact fun k _ _ _ _ hbusy => absurd hbusy (hidle _ rfl rfl k)
    · exact fun k hbusy => absurd hbusy (hidle _ rfl rfl k)
  have hguarded := hm.runs rfl
  have hr := hguarded.mono fun _ _ _ h => h.1
  have hid : TaskStore.FreshIds TaskStore.samplePlatform 1 := by
    unfold TaskStore.FreshIds
    decide
  exact ⟨_, _, rfl, hr, ((announced_iff hr hid).mpr hguarded).1, _, rfl, rfl, rfl⟩

/-- With the handle attached, the worker aborts itself, and its call is dropped. -/
theorem announcer_aborted : ∃ es s e t,
    es.map Prod.fst = accept ++ [.step (.attach 0)] ++ settle ++
      [.step (.store .perform), .notify 0] ∧
    Runs sampleMachine.Step sampleMachine.init es s ∧ Busy s 0 ∧
    0 ∈ s.requests.store.aborted ∧ sampleMachine.Step s e t ∧ e.1 = .step (.reap 0) ∧
    t.sending = [] := by
  have hr := @Machine.runs_of_execute _ _ _ sampleMachine sampleMachine.init _
    (accept ++ [.step (.attach 0)] ++ settle ++ [.step (.store .perform), .notify 0]) _ rfl
  exact ⟨_, _, (.step (.reap 0), _), _, rfl, hr, ⟨_, List.mem_singleton_self _, rfl⟩,
    List.mem_singleton_self _, rfl, rfl, rfl⟩

end RustMcpCore.TaskAnnouncements
