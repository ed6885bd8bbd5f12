import RustMcpCore.Tasks.Matching

/-! # What other clients cannot change

The calls that wait for a result cross several steps, and a notify wakes those of the
client alone. A whole run without the operations of all other keys is then a run again,
of a server that gives the remaining tasks the ids they had, and the remaining
operations return what they returned.
-/
namespace RustMcpCore.TaskStore
open Library

/-! ## Waiting -/

section Waiting
variable {env env' : Platform} {key : String} {part : Part} {now : DateTime} {s t : State}
  (h : Sim env env' key part now s t)
include h

omit h in
theorem SameWaiter.wake {ids : List String} {waiter other : Waiter} {notify notify' : Notify}
    (hinj : Function.Injective env.newV4) (hinj' : Function.Injective env'.newV4)
    (hsame : SameWaiter env env' key ids waiter other)
    (hname : env.newV4 notify = env'.newV4 notify') :
    SameWaiter env env' key ids (waiter.wake notify) (other.wake notify') := by
  obtain ⟨taskId, peerKey, phase⟩ := waiter
  obtain ⟨taskId', peerKey', phase'⟩ := other
  obtain ⟨hid, hown, hown', hphase⟩ := hsame
  unfold Waiter.wake
  cases hphase with
  | loop => exact ⟨hid, hown, hown', .loop⟩
  | checked same mine =>
    rw [if_neg nofun, if_neg nofun]
    exact ⟨hid, hown, hown', .checked same mine⟩
  | @parked parkedOn parkedOn' same mine =>
    by_cases heq : parkedOn = notify
    · have heq' : parkedOn' = notify' := hinj' (by rw [← same, heq, hname])
      rw [if_pos (by rw [heq]), if_pos (by rw [heq'])]
      exact ⟨hid, hown, hown', .loop⟩
    · have hne' : parkedOn' ≠ notify' := fun heq' => heq (hinj (by rw [same, heq', hname]))
      rw [if_neg (by simpa using heq), if_neg (by simpa using hne')]
      exact ⟨hid, hown, hown', .parked same mine⟩

omit h in
/-- A client's waiters do not hear the notifies of others. -/
theorem SameWaiter.wake_foreign {ids : List String} {waiter other : Waiter} {notify : Notify}
    (hsame : SameWaiter env env' key ids waiter other) (hid : env.newV4 notify ∉ ids) :
    waiter.wake notify = waiter := by
  obtain ⟨taskId, peerKey, phase⟩ := waiter
  obtain ⟨taskId', peerKey', phase'⟩ := other
  obtain ⟨_, _, _, hphase⟩ := hsame
  refine if_neg fun hparked => ?_
  simp only at hparked hphase
  rw [hparked] at hphase
  cases hphase with
  | parked same mine => exact hid mine

/-- A call that is owed to the client is made on both servers, any other on the first. -/
theorem matched_perform {u : State} {o : Output} (hinj : Function.Injective env.newV4)
    (hinj' : Function.Injective env'.newV4) (he : (machine env).Step s (.perform, o) u) :
    Matched env env' key part now (.perform, o) u t := by
  obtain ⟨effect, rest, hp, rfl, rfl⟩ := step_perform.mp he
  have howes := h.owes
  rw [hp] at howes
  cases effect with
  | cancelToken token =>
    exact matched_foreign rfl
      ⟨h.store, h.issued, h.old, h.waiting, h.foreign, h.loud, howes⟩
  | abort handle =>
    exact matched_foreign rfl
      ⟨h.store, h.issued, h.old, h.waiting, h.foreign, h.loud, howes⟩
  | notifyWaiters notify =>
    have hforeign : ∀ w ∉ part.waits,
        ∀ waiter, (s.waiters w).map (·.wake notify) = some waiter → waiter.peerKey ≠ key := by
      intro w hw waiter hwaiter
      obtain ⟨before, hbefore, rfl⟩ := Option.map_eq_some_iff.mp hwaiter
      unfold Waiter.wake
      split <;> exact (h.foreign w hw).2 before hbefore
    have hcons : owed env (.notifyWaiters notify :: rest) = env.newV4 notify :: owed env rest := rfl
    rw [hcons] at howes
    by_cases hid : env.newV4 notify ∈ part.ids
    · rw [List.filter_cons_of_pos (by simpa using hid)] at howes
      cases hpending : t.pending with
      | nil =>
        rw [hpending] at howes
        cases howes
      | cons effect' rest' =>
        have hloud := h.loud
        rw [hpending] at howes hloud
        cases effect' with
        | cancelToken token => exact absurd rfl (hloud _ List.mem_cons_self)
        | abort handle => exact absurd rfl (hloud _ List.mem_cons_self)
        | notifyWaiters notify' =>
          obtain ⟨hname, howes⟩ := List.cons.inj howes
          refine ⟨[(.perform, .silent)], _,
            .single (step_perform.mpr ⟨_, rest', hpending, rfl, rfl⟩), .nil, ?_⟩
          refine ⟨h.store, h.issued, h.old, fun w hw => ?_, fun w hw => ⟨?_, hforeign w hw⟩,
            fun effect heffect => hloud effect (List.mem_cons_of_mem _ heffect), howes⟩
          · have hrel := h.waiting w hw
            simp only [State.perform]
            generalize s.waiters w = waiter at hrel ⊢
            generalize t.waiters w = waiter' at hrel ⊢
            cases hrel with
            | none => exact .none
            | some hsame => exact .some (hsame.wake hinj hinj' hname.symm)
          · simp only [State.perform]
            rw [(h.foreign w hw).1]
            rfl
    · rw [List.filter_cons_of_neg (by simpa using hid)] at howes
      refine matched_foreign rfl ⟨h.store, h.issued, h.old, fun w hw => ?_,
        fun w hw => ⟨(h.foreign w hw).1, hforeign w hw⟩, h.loud, howes⟩
      have hrel := h.waiting w hw
      simp only [State.perform]
      generalize s.waiters w = waiter at hrel ⊢
      generalize t.waiters w = waiter' at hrel ⊢
      cases hrel with
      | none => exact .none
      | some hsame =>
        rw [Option.map_some, hsame.wake_foreign hid]
        exact .some hsame

omit h in
theorem Sim.setBoth {w : ℕ} {waiter other : Option Waiter} (h : Sim env env' key part now s t)
    (hsame : Option.Rel (SameWaiter env env' key part.ids) waiter other) :
    Sim env env' key { part with waits := insert w part.waits } now (s.setWaiter w waiter)
      (t.setWaiter w other) := by
  refine ⟨⟨h.store.view, h.store.mine, h.store.only⟩, h.issued, h.old, fun w' hw' => ?_,
    fun w' hw' => ?_, h.loud, h.owes⟩
  · simp only [State.setWaiter]
    by_cases heq : w' = w
    · rw [heq, Function.update_self, Function.update_self]
      exact hsame
    · rw [Function.update_of_ne heq, Function.update_of_ne heq]
      exact h.waiting w' (Finset.mem_of_mem_insert_of_ne hw' heq)
  · obtain ⟨hne, hnot⟩ := not_or.mp (mt Finset.mem_insert.mpr hw')
    simp only [State.setWaiter]
    rw [Function.update_of_ne hne, Function.update_of_ne hne]
    exact h.foreign w' hnot

omit h in
theorem Sim.setForeign {w : ℕ} {waiter : Option Waiter} (h : Sim env env' key part now s t)
    (ht : t.waiters w = none) (hother : ∀ found, waiter = some found → found.peerKey ≠ key) :
    Sim env env' key { part with waits := part.waits.erase w } now (s.setWaiter w waiter) t := by
  refine ⟨⟨h.store.view, h.store.mine, h.store.only⟩, h.issued, h.old, fun w' hw' => ?_,
    fun w' hw' => ?_, h.loud, h.owes⟩
  · obtain ⟨hne, hmem⟩ := Finset.mem_erase.mp hw'
    simp only [State.setWaiter]
    rw [Function.update_of_ne hne]
    exact h.waiting w' hmem
  · simp only [State.setWaiter]
    by_cases heq : w' = w
    · rw [heq, Function.update_self]
      exact ⟨ht, hother⟩
    · rw [Function.update_of_ne heq]
      exact h.foreign w' fun hmem => hw' (Finset.mem_erase.mpr ⟨heq, hmem⟩)

theorem Sim.waiter_none {w : ℕ} (hw : s.waiters w = none) : t.waiters w = none := by
  by_cases hmem : w ∈ part.waits
  · have hrel := h.waiting w hmem
    rw [hw] at hrel
    generalize t.waiters w = other at hrel ⊢
    cases hrel
    rfl
  · exact (h.foreign w hmem).1

theorem Sim.waiter_some {w : ℕ} {waiter : Waiter} (hmem : w ∈ part.waits)
    (hw : s.waiters w = some waiter) :
    ∃ other, t.waiters w = some other ∧ SameWaiter env env' key part.ids waiter other := by
  have hrel := h.waiting w hmem
  rw [hw] at hrel
  generalize t.waiters w = other at hrel ⊢
  cases hrel with
  | some hsame => exact ⟨_, rfl, hsame⟩

/-- A turn of a call of the client that only changes where the call is. -/
theorem matched_turn {l : Label} {w : ℕ} {waiter other : Option Waiter}
    (hown : part.owns key l = true) (hafter : (part.after key (l, .silent)).ids = part.ids ∧
      (part.after key (l, .silent)).waits = insert w part.waits)
    (hstep : (machine env').Step t (l, .silent) (t.setWaiter w other))
    (hsame : Option.Rel (SameWaiter env env' key part.ids) waiter other) :
    Matched env env' key part now (l, .silent) (s.setWaiter w waiter) t := by
  have hpart : part.after key (l, .silent) = { part with waits := insert w part.waits } := by
    rw [← hafter.1, ← hafter.2]
  refine matched_own hown hstep (List.nil_append _).symm (List.forall_mem_nil _) .silent ?_
  rw [hpart]
  exact h.setBoth hsame

theorem matched_foreign_turn {e : Event} {w : ℕ} {waiter : Option Waiter}
    (hforeign : part.owns key e.1 = false) (hafter : part.after key e = part)
    (hmem : w ∉ part.waits) (hother : ∀ found, waiter = some found → found.peerKey ≠ key) :
    Matched env env' key part now e (s.setWaiter w waiter) t := by
  refine matched_foreign hforeign ?_
  have hset := h.setForeign (w := w) (h.foreign w hmem).1 hother
  rw [Finset.erase_eq_of_notMem hmem] at hset
  rw [hafter]
  exact hset

theorem matched_wait {w : ℕ} {taskId peerKey : String} {u : State} {o : Output}
    (he : (machine env).Step s (.wait w taskId peerKey, o) u) :
    Matched env env' key part now (.wait w taskId peerKey, o) u t := by
  obtain ⟨hw, rfl, rfl⟩ := step_wait.mp he
  have ht := h.waiter_none hw
  by_cases hkey : peerKey = key
  · have hafter : part.after key (.wait w taskId peerKey, .silent) =
        { part with waits := insert w part.waits } := if_pos hkey
    exact matched_turn h (decide_eq_true hkey) (by rw [hafter]; exact ⟨rfl, rfl⟩)
      (step_wait.mpr ⟨ht, rfl, rfl⟩) (.some ⟨rfl, hkey, hkey, .loop⟩)
  · have hafter : part.after key (.wait w taskId peerKey, .silent) =
        { part with waits := part.waits.erase w } := if_neg hkey
    refine matched_foreign (decide_eq_false hkey) ?_
    rw [hafter]
    refine h.setForeign ht fun found hfound => ?_
    cases hfound
    exact hkey

theorem matched_dropWait {w : ℕ} {u : State} {o : Output}
    (he : (machine env).Step s (.dropWait w, o) u) :
    Matched env env' key part now (.dropWait w, o) u t := by
  obtain ⟨⟨waiter, hw⟩, rfl, rfl⟩ := step_dropWait.mp he
  by_cases hmem : w ∈ part.waits
  · obtain ⟨other, hother, _⟩ := h.waiter_some hmem hw
    exact matched_turn h (decide_eq_true hmem) ⟨rfl, (Finset.insert_eq_of_mem hmem).symm⟩
      (step_dropWait.mpr ⟨⟨other, hother⟩, rfl, rfl⟩) .none
  · exact matched_foreign_turn h (decide_eq_false hmem) rfl hmem nofun

theorem matched_notified {w : ℕ} {u : State} {o : Output}
    (he : (machine env).Step s (.notified w, o) u) :
    Matched env env' key part now (.notified w, o) u t := by
  obtain ⟨taskId, peerKey, notify, hw, rfl, rfl⟩ := step_notified.mp he
  by_cases hmem : w ∈ part.waits
  · obtain ⟨⟨taskId', peerKey', phase'⟩, hother, hid, hown, hown', hphase⟩ := h.waiter_some hmem hw
    cases hphase with
    | checked same mine =>
      exact matched_turn h (decide_eq_true hmem) ⟨rfl, (Finset.insert_eq_of_mem hmem).symm⟩
        (step_notified.mpr ⟨taskId', peerKey', _, hother, rfl, rfl⟩)
        (.some ⟨hid, hown, hown', .parked same mine⟩)
  · refine matched_foreign_turn h (decide_eq_false hmem) rfl hmem fun found hfound => ?_
    cases hfound
    exact fun hkey => (h.foreign w hmem).2 _ hw hkey

/-- The client's look at a task ends its call on both servers, or on neither. -/
theorem check_cases {taskId : String} {swept : DateTime} (hnamed : Named env s)
    (hnamed' : Named env' t) (hle : now ≤ swept) :
    (∃ value, (checkResult s.inner taskId key swept).value = .inl value ∧
      (checkResult t.inner taskId key swept).value = .inl value) ∨
    ∃ notify notify', (checkResult s.inner taskId key swept).value = .inr notify ∧
      (checkResult t.inner taskId key swept).value = .inr notify' ∧
      env.newV4 notify = env'.newV4 notify' ∧ env.newV4 notify ∈ part.ids := by
  rw [checkResult_visible, checkResult_visible]
  rcases (h.store.mono hle).view.cases taskId with
    ⟨hnone, hnone'⟩ | ⟨entry, entry', hsome, hsome', hsame⟩
  · rw [hnone, hnone']
    exact .inl ⟨_, rfl, rfl⟩
  · obtain ⟨hlookup, _, hmine⟩ := lookup_of_visible hsome
    obtain ⟨hlookup', _, _⟩ := lookup_of_visible hsome'
    simp only [hsome, hsome', hsame.terminalResult]
    cases entry'.terminalResult with
    | some result => exact .inl ⟨_, rfl, rfl⟩
    | none =>
      have hname := (hnamed.stored taskId entry hlookup).1
      have hname' := (hnamed'.stored taskId entry' hlookup').1
      refine .inr ⟨_, _, rfl, rfl, hname.trans hname'.symm, ?_⟩
      rw [hname]
      exact (h.store.mine taskId entry hlookup).mp hmine

/-- A look at a task of the client, on both servers. -/
theorem matched_looked {l : Label} {w : ℕ} {o : Output} {swept : DateTime}
    {waiter other : Option Waiter} (hle : now ≤ swept) (hown : part.owns key l = true)
    (hafter : part.after key (l, o) = part) (hmem : w ∈ part.waits) (houtput : SameOutput o o)
    (hstep : (machine env').Step t (l, o) (State.setWaiter { t with
      inner := t.inner.cleanupExpired swept, pending := t.inner.cleanupDrops swept } w other))
    (hsame : Option.Rel (SameWaiter env env' key part.ids) waiter other) :
    Matched env env' key part swept (l, o) (State.setWaiter { s with
      inner := s.inner.cleanupExpired swept, pending := s.inner.cleanupDrops swept } w waiter) t := by
  have hsim := h.locked (h.store.mono hle).sweepBoth rfl (List.Subset.refl _) h.issued h.old
    (List.forall_mem_nil _) (owes_nothing (@quiet_drops s.inner swept)).symm
  have hset := hsim.setBoth (w := w) hsame
  rw [Finset.insert_eq_of_mem hmem] at hset
  refine matched_own hown hstep (List.append_nil _).symm quiet_drops houtput ?_
  rw [hafter]
  exact hset

theorem matched_check {w : ℕ} {swept : DateTime} {u : State} {o : Output}
    (hnamed : Named env s) (hnamed' : Named env' t) (hle : now ≤ swept)
    (he : (machine env).Step s (.check w swept, o) u) :
    Matched env env' key part swept (.check w swept, o) u t := by
  obtain ⟨taskId, peerKey, hw, hp, hcase⟩ := step_check.mp he
  by_cases hmem : w ∈ part.waits
  · have hown : part.owns key (.check w swept) = true := decide_eq_true hmem
    obtain ⟨⟨taskId', peerKey', phase'⟩, hother, hid, hkey, hkey', hphase⟩ := h.waiter_some hmem hw
    cases hphase
    simp only at hid hkey hkey'
    subst hid hkey hkey'
    rcases @check_cases _ _ _ _ _ _ _ h taskId _ hnamed hnamed' hle with
      ⟨value, hvalue, hvalue'⟩ | ⟨notify, notify', hvalue, hvalue', same, mine⟩
    · rcases hcase with ⟨found, hfound, rfl, rfl⟩ | ⟨found, hfound, _⟩
      · cases hvalue.symm.trans hfound
        exact matched_looked h hle hown rfl hmem (.waited _ _)
          (step_check.mpr ⟨_, _, hother, h.idle hp, .inl ⟨_, hvalue', rfl, rfl⟩⟩) .none
      · cases hvalue.symm.trans hfound
    · rcases hcase with ⟨found, hfound, _⟩ | ⟨found, hfound, rfl, rfl⟩
      · cases hvalue.symm.trans hfound
      · cases hvalue.symm.trans hfound
        exact matched_looked h hle hown rfl hmem .silent
          (step_check.mpr ⟨_, _, hother, h.idle hp, .inr ⟨_, hvalue', rfl, rfl⟩⟩)
          (.some ⟨rfl, rfl, rfl, .checked same mine⟩)
  · have hforeign : part.owns key (.check w swept) = false := decide_eq_false hmem
    have hswept := h.lockedForeign hp (le_refl _) (h.store.mono hle).sweep
      (owes_nothing (@quiet_drops s.inner swept))
    rcases hcase with ⟨value, _, rfl, rfl⟩ | ⟨notify, _, rfl, rfl⟩
    · exact matched_foreign_turn hswept hforeign rfl hmem nofun
    · refine matched_foreign_turn hswept hforeign rfl hmem fun found hfound => ?_
      cases hfound
      exact fun hkey => (h.foreign w hmem).2 _ hw hkey

end Waiting

/-! ## Whole runs -/

section Runs
variable {env env' : Platform} {key : String} {part : Part} {now : DateTime} {s t u : State}

theorem sim_step {e : Event} (hinj : Function.Injective env.newV4)
    (hinj' : Function.Injective env'.newV4) (hformat : env'.toRfc3339 = env.toRfc3339)
    (hids : ∀ n taskId, (part.after key e).ids[n]? = some taskId → env'.newV4 n = taskId)
    (hnamed : Named env s) (hnamed' : Named env' t) (hle : ∀ reading ∈ e.1.readings, now ≤ reading)
    (h : Sim env env' key part now s t) (he : (machine env).Step s e u) :
    ∃ later, (later = now ∨ later ∈ e.1.readings) ∧ Matched env env' key part later e u t := by
  obtain ⟨l, o⟩ := e
  cases l with
  | create _ _ _ swept _ =>
    exact ⟨swept, .inr List.mem_cons_self,
      matched_create h hinj hnamed hformat hids (hle swept List.mem_cons_self) he⟩
  | attachHandle => exact ⟨now, .inl rfl, matched_attachHandle h he⟩
  | finish _ _ swept _ =>
    exact ⟨swept, .inr List.mem_cons_self,
      matched_finish h hnamed hnamed' hformat (hle swept List.mem_cons_self) he⟩
  | getTask _ _ swept =>
    exact ⟨swept, .inr List.mem_cons_self, matched_getTask h (hle swept List.mem_cons_self) he⟩
  | listTasks _ swept =>
    exact ⟨swept, .inr List.mem_cons_self, matched_listTasks h (hle swept List.mem_cons_self) he⟩
  | cancel _ _ swept _ =>
    exact ⟨swept, .inr List.mem_cons_self,
      matched_cancel h hnamed hnamed' hformat (hle swept List.mem_cons_self) he⟩
  | perform =>
    obtain ⟨_, _, _, _, rfl⟩ := step_perform.mp he
    exact ⟨now, .inl rfl, matched_perform h hinj hinj' he⟩
  | wait => exact ⟨now, .inl rfl, matched_wait h he⟩
  | check _ swept =>
    exact ⟨swept, .inr List.mem_cons_self,
      matched_check h hnamed hnamed' (hle swept List.mem_cons_self) he⟩
  | notified => exact ⟨now, .inl rfl, matched_notified h he⟩
  | dropWait => exact ⟨now, .inl rfl, matched_dropWait h he⟩

theorem sim_runs {es : List Event} (hinj : Function.Injective env.newV4)
    (hinj' : Function.Injective env'.newV4) (hformat : env'.toRfc3339 = env.toRfc3339)
    (hids : ∀ n taskId, (part.afterAll key es).ids[n]? = some taskId → env'.newV4 n = taskId)
    (hnamed : Named env s) (hnamed' : Named env' t)
    (hclock : (now :: es.flatMap fun e => e.1.readings).Pairwise (· ≤ ·))
    (h : Sim env env' key part now s t) (hr : Runs (machine env).Step s es u) :
    ∃ es' v, Runs (machine env').Step t es' v ∧
      List.Forall₂ SameEvent (part.events key es) (es'.filter fun e => !e.1.isPerform) := by
  induction hr generalizing part now t with
  | refl => exact ⟨[], t, .refl t, .nil⟩
  | @cons s u _ e es he hr ih =>
    rw [List.flatMap_cons] at hclock
    obtain ⟨hnow, hsorted⟩ := List.pairwise_cons.mp hclock
    obtain ⟨_, hrest, hacross⟩ := List.pairwise_append.mp hsorted
    have hids' : ∀ n taskId, (part.after key e).ids[n]? = some taskId → env'.newV4 n = taskId := by
      intro n taskId hn
      obtain ⟨hlt, rfl⟩ := List.getElem?_eq_some_iff.mp hn
      exact hids n _ (List.prefix_iff_getElem?.mp Part.ids_afterAll n hlt)
    obtain ⟨later, hlater, es₁, v₁, hr₁, hsame₁, h₁⟩ := sim_step hinj hinj' hformat hids' hnamed
      hnamed' (fun reading hreading => hnow reading (List.mem_append_left _ hreading)) h he
    have hclock' : (later :: es.flatMap fun e => e.1.readings).Pairwise (· ≤ ·) := by
      refine List.pairwise_cons.mpr ⟨fun reading hreading => ?_, hrest⟩
      rcases hlater with rfl | hlater
      · exact hnow reading (List.mem_append_right _ hreading)
      · exact hacross later hlater reading hreading
    obtain ⟨es₂, v₂, hr₂, hsame₂⟩ := ih hids (step_named hnamed he) (Runs.named hr₁ hnamed') hclock' h₁
    refine ⟨es₁ ++ es₂, v₂, hr₁.append hr₂, ?_⟩
    rw [List.filter_append]
    exact List.rel_append hsame₁ hsame₂

theorem init_sim : Sim env env' key Part.none now State.init State.init where
  store := ⟨fun _ => .none, fun _ _ h => (by cases h), fun _ _ h => (by cases h)⟩
  issued := rfl
  old := List.forall_mem_nil _
  waiting _ h := absurd h (Finset.notMem_empty _)
  foreign _ _ := ⟨rfl, fun _ h => (by cases h)⟩
  loud := List.forall_mem_nil _
  owes := rfl

/-- A client's operations return what they return on a server without the other clients,
and tell no task of another key from one that does not exist. -/
theorem taskStore_isolates {es : List Event} (hinj : Function.Injective env.newV4)
    (hinj' : Function.Injective env'.newV4) (hformat : env'.toRfc3339 = env.toRfc3339)
    (hids : ∀ n taskId, (Part.none.afterAll key es).ids[n]? = some taskId → env'.newV4 n = taskId)
    (hclock : (es.flatMap fun e => e.1.readings).Pairwise (· ≤ ·))
    (hr : Runs (machine env).Step State.init es s) :
    (∃ es' t, Runs (machine env').Step State.init es' t ∧
      List.Forall₂ SameEvent (Part.none.events key es) (es'.filter fun e => !e.1.isPerform)) ∧
    ∀ taskId entry unknown swept now, s.stored taskId = some entry → entry.peerKey ≠ key →
      s.stored unknown = none →
      getTask s.inner taskId key swept = getTask s.inner unknown key swept ∧
      checkResult s.inner taskId key swept = checkResult s.inner unknown key swept ∧
      cancel env s.inner taskId key swept now = cancel env s.inner unknown key swept now := by
  refine ⟨?_, fun taskId entry unknown swept now hentry hforeign hunknown => ?_⟩
  · have hfirst : ∃ first, (first :: es.flatMap fun e => e.1.readings).Pairwise (· ≤ ·) := by
      cases hreadings : es.flatMap fun e => e.1.readings with
      | nil => exact ⟨0, List.pairwise_singleton _ _⟩
      | cons reading rest =>
        rw [hreadings] at hclock
        refine ⟨reading, List.pairwise_cons.mpr ⟨fun other hother => ?_, hclock⟩⟩
        rcases List.mem_cons.mp hother with rfl | hother
        · exact le_refl _
        · exact (List.pairwise_cons.mp hclock).1 other hother
    obtain ⟨first, hclock⟩ := hfirst
    exact sim_runs hinj hinj' hformat hids init_named init_named hclock init_sim hr
  · have hnone : visible key swept s.inner taskId = none := by
      refine visible_foreign fun found hfound => ?_
      cases hentry.symm.trans hfound
      exact hforeign
    have hnone' : visible key swept s.inner unknown = none := by
      refine visible_foreign fun found hfound => ?_
      cases hunknown.symm.trans hfound
    rw [getTask_of_none hnone, getTask_of_none hnone', checkResult_of_none hnone,
      checkResult_of_none hnone', cancel_of_none hnone, cancel_of_none hnone']
    exact ⟨rfl, rfl, rfl⟩

end Runs

/-- Every id has one letter more than the one before. -/
def countingPlatform (first : ℕ) : Platform where
  newV4 n := String.ofList (List.replicate (first + n) 'a')
  toRfc3339 _ := ""

theorem countingPlatform_injective {first : ℕ} :
    Function.Injective (countingPlatform first).newV4 := by
  intro n m h
  have hlength := congrArg List.length (String.ofList_injective h)
  simpa using hlength

/-- Two clients create a task each, and the second one looks for both. -/
def sharedLabels : List Label :=
  [.create 0 "b" none 0 0, .create 1 "a" none 1 1, .finish "a" (.ok cancelledToolResult) 2 2,
    .perform, .listTasks "a" 3, .getTask "" "a" 4]

theorem taskStore_isolates_second : ∃ es s es' t,
    Runs (machine (countingPlatform 0)).Step .init es s ∧ es.map Prod.fst = sharedLabels ∧
    Runs (machine (countingPlatform 1)).Step .init es' t ∧
    List.Forall₂ SameEvent (Part.none.events "a" es) (es'.filter fun e => !e.1.isPerform) := by
  have hr := @Machine.runs_of_execute _ _ _ (machine (countingPlatform 0)) .init _ sharedLabels _ rfl
  have hids : ∀ n taskId, [(countingPlatform 0).newV4 1][n]? = some taskId →
      (countingPlatform 1).newV4 n = taskId := by
    intro n taskId h
    cases n with
    | zero => exact Option.some.inj h
    | succ n => cases h
  have hisolated := fun hids hclock => @taskStore_isolates (countingPlatform 0) (countingPlatform 1)
    "a" _ _ countingPlatform_injective countingPlatform_injective rfl hids hclock hr
  obtain ⟨⟨es', t, hr', hsame⟩, _⟩ := hisolated hids (by decide)
  exact ⟨_, _, es', t, hr, rfl, hr', hsame⟩

end RustMcpCore.TaskStore
