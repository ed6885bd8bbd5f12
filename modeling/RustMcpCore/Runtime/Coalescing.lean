import RustMcpCore.Runtime.Debounce

/-! # Pending features and their timers

While the runtime is alive a feature is pending exactly as long as one timer is on
its way to remove it, so that a schedule call that finds it pending may leave the
notification to that timer.
-/
namespace RustMcpCore.ListChanged
open Library
variable {s t : State} {e : Event} {feature : ListFeature} {reloadState : ReloadState}

structure OneTimer (s : State) : Prop where
  fresh : ∀ i, s.spawned ≤ i → s.timers i = none
  pending : ∀ feature i, Outstanding s feature i → feature ∈ s.pending
  unique : ∀ feature i j, Outstanding s feature i → Outstanding s feature j → i = j
  owed : s.alive = true → ∀ feature ∈ s.pending, ∃ i, Outstanding s feature i

theorem alive_of_step (he : Step s e t) (ht : t.alive = true) : s.alive = true := by
  rcases (step_frame he).alive with ⟨_, hdead⟩ | hsame
  · rw [hdead] at ht
    cases ht
  · rwa [← hsame]

theorem outstanding_other {i j : ℕ} {timer : Option Timer}
    (ht : t.timers = Function.update s.timers i timer) (hj : j ≠ i) :
    Outstanding t feature j ↔ Outstanding s feature j := by
  unfold Outstanding
  rw [ht, Function.update_of_ne hj]

theorem outstanding_self {i : ℕ} {timer : Option Timer}
    (ht : t.timers = Function.update s.timers i timer) : Outstanding t feature i ↔
      timer = some ⟨feature, .sleeping⟩ ∨ timer = some ⟨feature, .woken⟩ := by
  unfold Outstanding
  rw [ht, Function.update_self]

/-- A step that leaves every timer as outstanding as it was. -/
theorem OneTimer.kept (hs : OneTimer s) (hpending : t.pending = s.pending)
    (hspawned : t.spawned = s.spawned) (halive : t.alive = true → s.alive = true)
    (hfresh : ∀ i, s.timers i = none → t.timers i = none)
    (hsame : ∀ feature i, Outstanding t feature i ↔ Outstanding s feature i) : OneTimer t where
  fresh i hi := hfresh i (hs.fresh i (hspawned ▸ hi))
  pending feature i h := hpending ▸ hs.pending feature i ((hsame feature i).mp h)
  unique feature i j hi hj :=
    hs.unique feature i j ((hsame feature i).mp hi) ((hsame feature j).mp hj)
  owed ht feature h := by
    obtain ⟨i, hi⟩ := hs.owed (halive ht) feature (hpending ▸ h)
    exact ⟨i, (hsame feature i).mpr hi⟩

theorem fresh_update {i : ℕ} {timer : Option Timer} {before : Timer}
    (hbefore : s.timers i = some before) (ht : t.timers = Function.update s.timers i timer) :
    ∀ j, s.timers j = none → t.timers j = none := by
  intro j hj
  have hne : j ≠ i := by
    rintro rfl
    rw [hbefore] at hj
    cases hj
  rwa [ht, Function.update_of_ne hne]

/-- A timer that is not outstanding now leaves the others as they were. -/
theorem outstanding_gone {i j : ℕ} {timer : Option Timer}
    (ht : t.timers = Function.update s.timers i timer)
    (hafter : ∀ other, timer ≠ some ⟨other, .sleeping⟩ ∧ timer ≠ some ⟨other, .woken⟩) :
    Outstanding t feature j ↔ j ≠ i ∧ Outstanding s feature j := by
  by_cases hj : j = i
  · rw [hj, outstanding_self ht]
    refine iff_of_false ?_ fun h => h.1 rfl
    rintro (h | h)
    · exact (hafter feature).1 h
    · exact (hafter feature).2 h
  · rw [outstanding_other ht hj, and_iff_right hj]

/-- A step of a timer that has not been outstanding and is not now. -/
theorem same_outstanding {i : ℕ} {phase : TimerPhase} {timer : Option Timer}
    (hbefore : s.timers i = some ⟨feature, phase⟩) (hphase : phase ≠ .sleeping ∧ phase ≠ .woken)
    (ht : t.timers = Function.update s.timers i timer)
    (hafter : ∀ other, timer ≠ some ⟨other, .sleeping⟩ ∧ timer ≠ some ⟨other, .woken⟩) :
    ∀ other j, Outstanding t other j ↔ Outstanding s other j := by
  intro other j
  rw [outstanding_gone ht hafter, and_iff_right_of_imp]
  rintro h rfl
  rcases h with h | h <;> rw [hbefore] at h <;> cases h
  · exact hphase.1 rfl
  · exact hphase.2 rfl

/-- A new timer is the only one of its feature. -/
theorem OneTimer.spawned (hs : OneTimer s) (halive : t.alive = true → s.alive = true)
    (hfeature : feature ∉ s.pending) (hpending : t.pending = insert feature s.pending)
    (ht : t.timers = Function.update s.timers s.spawned (some ⟨feature, .sleeping⟩))
    (hspawned : t.spawned = s.spawned + 1) : OneTimer t := by
  have hnone : s.timers s.spawned = none := hs.fresh _ le_rfl
  have hold : ∀ other i, Outstanding t other i → i ≠ s.spawned → Outstanding s other i :=
    fun other i h hi => (outstanding_other ht hi).mp h
  have hnew : ∀ other, Outstanding t other s.spawned → other = feature := by
    intro other h
    rcases (outstanding_self ht).mp h with h | h <;> cases h
    rfl
  have hfirst : ∀ other i j, Outstanding t other i → Outstanding t other j →
      i = s.spawned → j = s.spawned := by
    rintro other i j hi hj rfl
    by_contra hne
    rw [hnew other hi] at hj
    exact hfeature (hs.pending feature j (hold feature j hj hne))
  constructor
  · intro i hi
    rw [hspawned] at hi
    rw [ht, Function.update_of_ne (Nat.ne_of_gt hi)]
    exact hs.fresh i (Nat.le_of_succ_le hi)
  · intro other i h
    rw [hpending, Finset.mem_insert]
    by_cases hi : i = s.spawned
    · exact .inl (hnew other (hi ▸ h))
    · exact .inr (hs.pending other i (hold other i h hi))
  · intro other i j hi hj
    by_cases his : i = s.spawned
    · rw [his, hfirst other i j hi hj his]
    · by_cases hjs : j = s.spawned
      · exact absurd (hfirst other j i hj hi hjs) his
      · exact hs.unique other i j (hold other i hi his) (hold other j hj hjs)
  · intro hon other h
    rw [hpending, Finset.mem_insert] at h
    rcases h with rfl | h
    · exact ⟨s.spawned, (outstanding_self ht).mpr (.inl rfl)⟩
    · obtain ⟨i, hi⟩ := hs.owed (halive hon) other h
      refine ⟨i, (outstanding_other ht ?_).mpr hi⟩
      rintro rfl
      rcases hi with hi | hi <;> rw [hnone] at hi <;> cases hi

/-- A timer that is done with its feature was the only one of it. -/
theorem OneTimer.removed (hs : OneTimer s) (halive : t.alive = true → s.alive = true) {i : ℕ}
    (hbefore : s.timers i = some ⟨feature, .woken⟩) (hpending : t.pending = s.pending.erase feature)
    (ht : t.timers = Function.update s.timers i (some ⟨feature, .removed⟩))
    (hspawned : t.spawned = s.spawned) : OneTimer t := by
  have hgone : ∀ {other j}, Outstanding t other j ↔ j ≠ i ∧ Outstanding s other j :=
    outstanding_gone ht fun other => by simp
  constructor
  · exact fun j hj => fresh_update hbefore ht j (hs.fresh j (hspawned ▸ hj))
  · intro other j h
    obtain ⟨hj, h⟩ := hgone.mp h
    rw [hpending]
    refine Finset.mem_erase.mpr ⟨?_, hs.pending other j h⟩
    rintro rfl
    exact hj (hs.unique other j i h (.inr hbefore))
  · exact fun other j k hj hk => hs.unique other j k (hgone.mp hj).2 (hgone.mp hk).2
  · intro hon other h
    rw [hpending] at h
    obtain ⟨hne, h⟩ := Finset.mem_erase.mp h
    obtain ⟨j, hj⟩ := hs.owed (halive hon) other h
    refine ⟨j, hgone.mpr ⟨?_, hj⟩⟩
    rintro rfl
    rcases hj with hj | hj <;> rw [hbefore] at hj <;> cases hj
    exact hne rfl

theorem step_oneTimer (hs : OneTimer s) (he : Step s e t) : OneTimer t := by
  have halive := alive_of_step he
  cases step_change he with
  | kept pending timers spawned =>
    refine hs.kept pending spawned halive (fun i h => timers ▸ h) fun _ _ => ?_
    unfold Outstanding
    rw [timers]
  | spawned feature fresh pending timers spawned =>
    exact hs.spawned halive fresh pending timers spawned
  | woken i feature before pending timers spawned =>
    refine hs.kept pending spawned halive (fresh_update before timers) fun other j => ?_
    by_cases hj : j = i
    · rw [hj, outstanding_self timers]
      unfold Outstanding
      rw [before]
      simp
    · exact outstanding_other timers hj
  | lost i feature before dead pending timers spawned =>
    have hgone : ∀ {other j}, Outstanding t other j ↔ j ≠ i ∧ Outstanding s other j :=
      outstanding_gone timers fun other => by simp
    constructor
    · exact fun j hj => fresh_update before timers j (hs.fresh j (spawned ▸ hj))
    · exact fun other j h => pending ▸ hs.pending other j (hgone.mp h).2
    · exact fun other j k hj hk => hs.unique other j k (hgone.mp hj).2 (hgone.mp hk).2
    · intro ht
      rw [halive ht] at dead
      cases dead
  | removed i feature before shown pending timers spawned =>
    exact hs.removed halive before pending timers spawned
  | absent i feature before absent =>
    exact absurd (hs.pending feature i (.inr before)) absent
  | read i feature before pending timer after timers spawned =>
    refine hs.kept pending spawned halive (fresh_update before timers)
      (same_outstanding before (by simp) timers fun other => ?_)
    rcases after with rfl | rfl <;> simp
  | notified i feature before call pending timers spawned =>
    exact hs.kept pending spawned halive (fresh_update before timers)
      (same_outstanding before (by simp) timers fun other => by simp)

theorem step_pending (he : Step s e t) (h : feature ∈ s.pending) :
    feature ∈ t.pending ∨ ∃ i, e = (.remove i, .removed feature) := by
  cases step_change he with
  | kept pending | woken _ _ _ pending | lost _ _ _ _ pending | absent _ _ _ _ pending
  | read _ _ _ pending | notified _ _ _ _ pending => exact .inl (pending ▸ h)
  | spawned _ _ pending =>
    rw [pending]
    exact .inl (Finset.mem_insert_of_mem h)
  | removed i other _ shown pending =>
    by_cases heq : feature = other
    · exact .inr ⟨i, heq ▸ shown⟩
    · rw [pending]
      exact .inl (Finset.mem_erase.mpr ⟨heq, h⟩)

theorem init_oneTimer : OneTimer (init reloadState) where
  fresh _ _ := rfl
  pending := by rintro feature i (h | h) <;> cases h
  unique := by rintro feature i j (h | h) <;> cases h
  owed := by rintro _ feature h; cases h

theorem OneTimer.pending_iff (hs : OneTimer s) (halive : s.alive = true) :
    feature ∈ s.pending ↔ ∃! i, Outstanding s feature i := by
  constructor
  · intro h
    obtain ⟨i, hi⟩ := hs.owed halive feature h
    exact ⟨i, hi, fun j hj => hs.unique feature j i hj hi⟩
  · rintro ⟨i, hi, _⟩
    exact hs.pending feature i hi

theorem runs_oneTimer {es : List Event} (hr : Runs Step (init reloadState) es s) : OneTimer s :=
  hr.invariant OneTimer (fun _ _ _ hs he => step_oneTimer hs he) init_oneTimer

/-! ## One notification for a timer -/

def notifies (i : ℕ) (e : Event) : Bool :=
  match e.1 with
  | .notify j => j == i
  | _ => false

/-- A timer that is to come or still there has not notified. -/
def NotifiesOnce (es : List Event) (s : State) : Prop :=
  ∀ i, es.countP (notifies i) ≤ 1 ∧
    (s.spawned ≤ i ∨ s.timers i ≠ none → es.countP (notifies i) = 0)

theorem countP_silent {es : List Event} (he : ∀ i, e.1 ≠ .notify i) (i : ℕ) :
    (es ++ [e]).countP (notifies i) = es.countP (notifies i) := by
  have hno : notifies i e = false := by
    unfold notifies
    split
    · rename_i j hj
      exact absurd hj (he j)
    · rfl
  rw [List.countP_append, List.countP_singleton, hno]
  rfl

theorem NotifiesOnce.silent {es : List Event} (hs : NotifiesOnce es s)
    (he : ∀ i, e.1 ≠ .notify i)
    (hback : ∀ i, t.spawned ≤ i ∨ t.timers i ≠ none → s.spawned ≤ i ∨ s.timers i ≠ none) :
    NotifiesOnce (es ++ [e]) t := by
  intro i
  rw [countP_silent he]
  exact ⟨(hs i).1, fun h => (hs i).2 (hback i h)⟩

theorem back_update {i : ℕ} {timer : Option Timer} {before : Timer}
    (hbefore : s.timers i = some before) (hspawned : t.spawned = s.spawned)
    (ht : t.timers = Function.update s.timers i timer) :
    ∀ j, t.spawned ≤ j ∨ t.timers j ≠ none → s.spawned ≤ j ∨ s.timers j ≠ none := by
  intro j hj
  refine hj.imp (fun h => hspawned ▸ h) fun h => ?_
  by_cases hji : j = i
  · rw [hji, hbefore]
    exact Option.some_ne_none _
  · rwa [ht, Function.update_of_ne hji] at h

theorem step_notifiesOnce {es : List Event} (hone : OneTimer s) (hs : NotifiesOnce es s)
    (he : Step s e t) : NotifiesOnce (es ++ [e]) t := by
  cases step_change he with
  | kept pending timers spawned silent =>
    exact hs.silent silent fun i h => by rwa [spawned, timers] at h
  | spawned feature fresh pending timers spawned silent =>
    refine hs.silent silent fun i h => ?_
    by_cases hi : i = s.spawned
    · exact .inl hi.ge
    · rw [spawned, timers, Function.update_of_ne hi] at h
      exact h.imp Nat.le_of_succ_le id
  | woken _ _ before _ timers spawned silent =>
    exact hs.silent silent (back_update before spawned timers)
  | removed _ _ before shown _ timers spawned =>
    exact hs.silent (by simp [shown]) (back_update before spawned timers)
  | lost _ _ before _ _ timers spawned silent | absent _ _ before _ _ timers spawned silent =>
    exact hs.silent silent (back_update before spawned timers)
  | read _ _ before _ _ _ timers spawned silent =>
    exact hs.silent silent (back_update before spawned timers)
  | notified i feature before call pending timers spawned =>
    intro j
    have hzero := (hs i).2 (.inr (by rw [before]; exact Option.some_ne_none _))
    rw [List.countP_append, List.countP_singleton]
    by_cases hj : j = i
    · subst hj
      have hyes : notifies j e = true := by simp [notifies, call]
      rw [hzero, hyes]
      refine ⟨le_rfl, ?_⟩
      rintro (h | h)
      · rw [hone.fresh j (spawned ▸ h)] at before
        cases before
      · rw [timers, Function.update_self] at h
        exact absurd rfl h
    · have hno : notifies j e = false := by simp [notifies, call, Ne.symm hj]
      rw [hno]
      exact ⟨(hs j).1, fun h => (hs j).2 (back_update before spawned timers j h)⟩

theorem notifiesOnce {es : List Event} (hr : Runs Step (init reloadState) es s) (i : ℕ) :
    es.countP (notifies i) ≤ 1 := by
  refine (hr.history (fun es s => OneTimer s ∧ NotifiesOnce es s) ?_ ?_).2 i |>.1
  · rintro es s e t ⟨hone, hs⟩ he
    exact ⟨step_oneTimer hone he, step_notifiesOnce hone hs he⟩
  · exact ⟨init_oneTimer, fun _ => ⟨Nat.zero_le _, fun _ => rfl⟩⟩

/-! ## What follows a schedule call -/

/-- A call and a timer that can go on do so. -/
structure Fair (x : Execution Step) : Prop where
  calls : ∀ c, x.WeaklyFair fun e => e.1.call = some c
  timers : ∀ i, x.WeaklyFair fun e => e.1.timer = some i

theorem step_calls_other {c : ℕ} (he : Step s e t) (hc : e.1.call ≠ some c)
    (hnew : ∀ feature, e.1 ≠ .schedule c feature) : t.calls c = s.calls c := by
  rcases (step_frame he).calls with hsame | ⟨d, call, hset, hown | ⟨feature, hschedule⟩⟩
  · rw [hsame]
  · rw [hset, Function.update_of_ne]
    rintro rfl
    exact hc hown
  · rw [hset, Function.update_of_ne]
    rintro rfl
    exact hnew feature hschedule

/-- A call goes on only by its own steps. -/
theorem step_call_other {c : ℕ} {call : Call} (he : Step s e t) (hc : e.1.call ≠ some c)
    (hs : s.calls c = some call) : t.calls c = some call := by
  refine (step_calls_other he hc fun feature hnew => ?_).trans hs
  obtain ⟨l, o⟩ := e
  cases hnew
  simp only [Step, next, hs] at he
  cases he

theorem step_timer_other {i : ℕ} {timer : Timer} (hone : OneTimer s) (he : Step s e t)
    (hi : e.1.timer ≠ some i) (hs : s.timers i = some timer) : t.timers i = some timer := by
  rcases (step_frame he).timers with hsame | ⟨j, new, hset, hown | hspawned⟩
  · rw [hsame, hs]
  · rw [hset, Function.update_of_ne, hs]
    rintro rfl
    exact hi hown
  · rw [hset, Function.update_of_ne, hs]
    -- the next timer's number is free
    rintro rfl
    cases (hone.fresh i hspawned.ge).symm.trans hs

section Phases
variable {i : ℕ}

theorem currentEngine_of_enabled (h : s.enabled feature = true) :
    ∃ engine, s.runtime.currentEngine = .ok engine ∧
      listChangedEnabled engine.config feature = true := by
  cases hstate : s.runtime.reloadState with
  | none => simp [State.enabled, hstate] at h
  | some state =>
    refine ⟨state.engine, ?_, by simpa [State.enabled, hstate] using h⟩
    simp [RuntimeState.currentEngine, RuntimeState.readReloadState, hstate]

theorem step_schedules {c : ℕ} {o : Output} (he : Step s (.schedule c feature, o) t) :
    s.calls c = none ∧ t.calls c = some (.started feature) ∧ t.pending = s.pending := by
  simp only [Step, next] at he
  split at he <;> cases he
  exact ⟨by assumption, Function.update_self .., rfl⟩

/-- What the next step of a schedule call is. -/
theorem step_started {c : ℕ} (he : Step s e t) (hc : e.1.call = some c)
    (hs : s.calls c = some (.started feature)) : t.pending = s.pending ∧
      t.calls c = if s.enabled feature then some (.enabled feature) else none := by
  obtain ⟨l, o⟩ := e
  cases l <;> cases hc <;> simp only [Step, next, hs] at he <;> cases he
  exact ⟨rfl, Function.update_self ..⟩

theorem step_enabled {c : ℕ} (he : Step s e t) (hc : e.1.call = some c)
    (hs : s.calls c = some (.enabled feature)) :
    e = (.insert c, .scheduled feature) ∧ feature ∈ t.pending ∧ t.calls c = none := by
  obtain ⟨l, o⟩ := e
  cases l <;> cases hc <;> simp only [Step, next, hs] at he <;> cases he
  refine ⟨rfl, ?_, Function.update_self ..⟩
  rw [State.pending_setCall]
  unfold insertFeature
  split
  · assumption
  · exact Finset.mem_insert_self _ _

theorem step_inserts {c : ℕ} (he : Step s (.insert c, .scheduled feature) t) :
    feature ∈ t.pending := by
  have hcall : s.calls c = some (.enabled feature) := by
    simp only [Step, next] at he
    split at he <;> cases he
    assumption
  exact (step_enabled he rfl hcall).2.1

theorem step_finds {c : ℕ} (he : Step s (.readEnabled c, .found feature true) t) :
    t.calls c = some (.enabled feature) := by
  simp only [Step, next] at he
  split at he
  · simp only [Option.some.injEq, Prod.mk.injEq, Output.found.injEq] at he
    obtain ⟨rfl, rfl, hon⟩ := he
    rw [if_pos hon]
    exact Function.update_self ..
  · cases he

/-- What the next step of a timer is, phase by phase. -/
theorem step_sleeping (he : Step s e t) (hi : e.1.timer = some i)
    (hs : s.timers i = some ⟨feature, .sleeping⟩) (halive : s.alive = true) :
    t.timers i = some ⟨feature, .woken⟩ := by
  obtain ⟨l, o⟩ := e
  cases l <;> cases hi <;> simp only [Step, next, hs] at he
  · rename_i upgraded
    rw [halive] at he
    cases upgraded <;> cases he
    exact Function.update_self ..
  all_goals cases he

theorem step_woken (he : Step s e t) (hi : e.1.timer = some i)
    (hs : s.timers i = some ⟨feature, .woken⟩) (hpending : feature ∈ s.pending) :
    e = (.remove i, .removed feature) ∧ t.timers i = some ⟨feature, .removed⟩ := by
  obtain ⟨l, o⟩ := e
  cases l <;> cases hi <;> simp only [Step, next, hs] at he
  case remove.refl =>
    rw [if_pos hpending] at he
    cases he
    exact ⟨rfl, Function.update_self ..⟩
  all_goals cases he

theorem step_removed (he : Step s e t) (hi : e.1.timer = some i)
    (hs : s.timers i = some ⟨feature, .removed⟩) (henabled : s.enabled feature = true) :
    t.timers i = some ⟨feature, .notifying⟩ := by
  obtain ⟨l, o⟩ := e
  cases l <;> cases hi <;> simp only [Step, next, hs] at he
  case readEngine.refl =>
    obtain ⟨engine, hengine, hon⟩ := currentEngine_of_enabled henabled
    simp only [hengine, hon] at he
    cases he
    exact Function.update_self ..
  all_goals cases he

theorem step_notifying (he : Step s e t) (hi : e.1.timer = some i)
    (hs : s.timers i = some ⟨feature, .notifying⟩) : e = (.notify i, .notified feature) := by
  obtain ⟨l, o⟩ := e
  cases l <;> cases hi <;> simp only [Step, next, hs] at he
  case notify.refl =>
    cases he
    rfl
  all_goals cases he

theorem step_removes (he : Step s (.remove i, .removed feature) t) :
    t.timers i = some ⟨feature, .removed⟩ := by
  simp only [Step, next] at he
  split at he
  · split at he <;> cases he
    exact Function.update_self ..
  · cases he

theorem timer_enabled {timer : Timer} (hs : s.timers i = some timer) :
    Enabled Step (fun e => e.1.timer = some i) s := by
  obtain ⟨feature, phase⟩ := timer
  cases phase with
  | sleeping =>
    exact ⟨(.wake i true, .silent), s.setTimer i (some ⟨feature, .woken⟩),
      by simp [Step, next, hs], rfl⟩
  | woken =>
    by_cases hpending : feature ∈ s.pending
    · exact ⟨(.remove i, .removed feature), _, by simp only [Step, next, hs, if_pos hpending]; rfl,
        rfl⟩
    · exact ⟨(.remove i, .silent), s.setTimer i none,
        by simp only [Step, next, hs, if_neg hpending], rfl⟩
  | removed =>
    cases hengine : s.runtime.currentEngine with
    | error error =>
      exact ⟨(.readEngine i, .silent), s.setTimer i none, by simp only [Step, next, hs, hengine],
        rfl⟩
    | ok engine =>
      exact ⟨(.readEngine i, .silent), _, by simp only [Step, next, hs, hengine]; rfl, rfl⟩
  | notifying =>
    exact ⟨(.notify i, .notified feature), s.setTimer i none, by simp only [Step, next, hs], rfl⟩

end Phases

/-! ## Leads-to -/

section Executions
variable {x : Execution Step} {n c i : ℕ}

theorem execution_oneTimer (hinit : OneTimer (x.state 0)) (n : ℕ) : OneTimer (x.state n) := by
  refine Execution.always (I := OneTimer) hinit ?_ n (Nat.zero_le n)
  exact fun m e _ he hs => step_oneTimer hs (x.step m e he)

theorem inserted_follows (hfair : Fair x)
    (hn : x.event n = some (.readEnabled c, .found feature true)) :
    ∃ m, n < m ∧ x.event m = some (.insert c, .scheduled feature) := by
  have hcall := step_finds (x.step n _ hn)
  have henabled : ∀ m, n + 1 ≤ m → (x.state m).calls c = some (.enabled feature) →
      Enabled Step (fun e => e.1.call = some c) (x.state m) := by
    intro m _ hP
    exact ⟨(.insert c, .scheduled feature), _, by simp only [Step, next, hP]; rfl, rfl⟩
  obtain ⟨m, e, hm, he, hP, hl⟩ := Execution.leadsTo (hfair.calls c)
    (fun s => s.calls c = some (.enabled feature)) (fun _ => 0)
    (fun _ e => e.1.call = some c) hcall henabled fun m e _ he hP => by
      by_cases hl : e.1.call = some c
      · exact .inl hl
      · exact .inr ⟨step_call_other (x.step m e he) hl hP, le_rfl, fun h => absurd h hl⟩
  exact ⟨m, hm, (step_enabled (x.step m e he) hl hP).1 ▸ he⟩

/-- A timer that has two steps to go takes both. -/
theorem timer_follows (hfair : x.WeaklyFair fun e => e.1.timer = some i)
    (hinit : OneTimer (x.state 0)) {first second : Timer} (target : Event)
    (hn : (x.state n).timers i = some first ∨ (x.state n).timers i = some second)
    (hfirst : ∀ m e, n ≤ m → x.event m = some e → e.1.timer = some i →
      (x.state m).timers i = some first → (x.state (m + 1)).timers i = some second)
    (hsecond : ∀ m e, n ≤ m → x.event m = some e → e.1.timer = some i →
      (x.state m).timers i = some second → e = target)
    (hne : second ≠ first) : ∃ m, n ≤ m ∧ x.event m = some target := by
  let rank : State → ℕ := fun s => if s.timers i = some first then 1 else 0
  have henabled : ∀ m, n ≤ m →
      (x.state m).timers i = some first ∨ (x.state m).timers i = some second →
      Enabled Step (fun e => e.1.timer = some i) (x.state m) := by
    rintro m _ (h | h) <;> exact timer_enabled h
  have hstep : ∀ m e, n ≤ m → x.event m = some e →
      (x.state m).timers i = some first ∨ (x.state m).timers i = some second →
      e = target ∨
        ((x.state (m + 1)).timers i = some first ∨ (x.state (m + 1)).timers i = some second) ∧
        rank (x.state (m + 1)) ≤ rank (x.state m) ∧
        (e.1.timer = some i → rank (x.state (m + 1)) < rank (x.state m)) := by
    intro m e hm he hP
    by_cases hown : e.1.timer = some i
    · rcases hP with hP | hP
      · have hnext := hfirst m e hm he hown hP
        have hrank : rank (x.state (m + 1)) < rank (x.state m) := by
          simp [rank, hnext, hP, hne]
        exact .inr ⟨.inr hnext, hrank.le, fun _ => hrank⟩
      · exact .inl (hsecond m e hm he hown hP)
    · have hsame : (x.state (m + 1)).timers i = (x.state m).timers i := by
        have hone := execution_oneTimer hinit m
        rcases hP with h | h <;>
          exact (step_timer_other hone (x.step m e he) hown h).trans h.symm
      refine .inr ⟨by rwa [hsame], ?_, fun h => absurd h hown⟩
      simp only [rank, hsame]
      exact le_rfl
  obtain ⟨m, e, hm, he, _, rfl⟩ := Execution.leadsTo hfair
    (fun s => s.timers i = some first ∨ s.timers i = some second) rank
    (fun _ e => e = target) hn henabled hstep
  exact ⟨m, hm, he⟩

theorem removed_follows (hfair : x.WeaklyFair fun e => e.1.timer = some i)
    (hinit : OneTimer (x.state 0)) (halive : ∀ n, (x.state n).alive = true)
    (hn : Outstanding (x.state n) feature i) :
    ∃ m, n ≤ m ∧ x.event m = some (.remove i, .removed feature) := by
  refine timer_follows hfair hinit _ hn ?_ ?_ (by simp)
  · exact fun m e _ he hown h => step_sleeping (x.step m e he) hown h (halive m)
  · intro m e _ he hown h
    have hpending := (execution_oneTimer hinit m).pending feature i (.inr h)
    exact (step_woken (x.step m e he) hown h hpending).1

/-- A timer that has removed its feature notifies, if the feature stays enabled. -/
theorem notified_follows (hfair : x.WeaklyFair fun e => e.1.timer = some i)
    (hinit : OneTimer (x.state 0)) (hn : x.event n = some (.remove i, .removed feature))
    (hon : ∀ m, n ≤ m → (x.state m).enabled feature = true) :
    ∃ m, n < m ∧ x.event m = some (.notify i, .notified feature) := by
  have hstart := step_removes (x.step n _ hn)
  refine @timer_follows x (n + 1) i hfair hinit ⟨feature, .removed⟩ ⟨feature, .notifying⟩ _
    (.inl hstart) ?_ ?_ (by simp)
  · exact fun m e hm he hown h => step_removed (x.step m e he) hown h (hon m (Nat.le_of_succ_le hm))
  · exact fun m e _ he hown h => step_notifying (x.step m e he) hown h

/-- A schedule call that finds its feature enabled returns, and then a timer removes
the feature. -/
theorem scheduled_removed (hfair : Fair x) (hinit : OneTimer (x.state 0))
    (halive : ∀ n, (x.state n).alive = true)
    (hn : x.event n = some (.insert c, .scheduled feature)) :
    ∃ m i, n < m ∧ x.event m = some (.remove i, .removed feature) := by
  have hpending := step_inserts (x.step n _ hn)
  obtain ⟨i, hi⟩ := (execution_oneTimer hinit (n + 1)).owed (halive _) feature hpending
  obtain ⟨m, hm, he⟩ := removed_follows (hfair.timers i) hinit halive hi
  exact ⟨m, i, hm, he⟩

end Executions

/-- While the runtime is alive a feature is pending exactly when one timer for it is
outstanding; every schedule call that finds its feature enabled returns, and a timer
removes the feature after that; and a timer notifies once at most. -/
theorem notifications_coalesce (reloadState : ReloadState) :
    (∀ s, (machine reloadState).Reachable s → s.alive = true → ∀ feature,
      (feature ∈ s.pending ↔ ∃! i, Outstanding s feature i) ∧
        ∀ i, Outstanding s feature i → feature ∈ s.pending) ∧
    (∀ x : Execution (machine reloadState).Step, x.state 0 = init reloadState → Fair x →
      (∀ n, (x.state n).alive = true) → ∀ n c feature,
      x.event n = some (.readEnabled c, .found feature true) → ∃ m k i, n < m ∧ m < k ∧
        x.event m = some (.insert c, .scheduled feature) ∧
        x.event k = some (.remove i, .removed feature)) ∧
    ∀ es s i, Runs (machine reloadState).Step (init reloadState) es s →
      es.countP (notifies i) ≤ 1 := by
  refine ⟨?_, ?_, fun es s i hr => notifiesOnce hr i⟩
  · rintro s ⟨es, hr⟩ halive feature
    have hs := runs_oneTimer hr
    exact ⟨hs.pending_iff halive, hs.pending feature⟩
  · intro x hx hfair halive n c feature hn
    have hinit : OneTimer (x.state 0) := hx ▸ init_oneTimer
    obtain ⟨m, hm, hinsert⟩ := inserted_follows hfair hn
    obtain ⟨k, i, hk, hremove⟩ := scheduled_removed hfair hinit halive hinsert
    exact ⟨m, k, i, hm, hk, hinsert, hremove⟩

theorem call_stopped {c : ℕ} (h : s.calls c = none) :
    ¬ Enabled Step (fun e => e.1.call = some c) s := by
  rintro ⟨⟨l, o⟩, t, he, hc⟩
  cases l <;> cases hc <;> simp [Step, next, h] at he

theorem timer_stopped {i : ℕ} (h : s.timers i = none) :
    ¬ Enabled Step (fun e => e.1.timer = some i) s := by
  rintro ⟨⟨l, o⟩, t, he, hi⟩
  cases l <;> cases hi <;> simp [Step, next, h] at he

theorem fair_of_stopped {x : Execution Step} {n : ℕ} (h : ∀ m, n ≤ m →
    (∀ c, (x.state m).calls c = none) ∧ ∀ i, (x.state m).timers i = none) : Fair x where
  calls c := Execution.weaklyFair_of_stopped fun m hm => call_stopped ((h m hm).1 c)
  timers i := Execution.weaklyFair_of_stopped fun m hm => timer_stopped ((h m hm).2 i)

theorem execution_alive {x : Execution Step} (hinit : (x.state 0).alive = true)
    (h : ∀ m e, x.event m = some e → e.1 ≠ .dropRuntime) (n : ℕ) : (x.state n).alive = true := by
  refine Execution.always (I := fun s : State => s.alive = true) hinit ?_ n (Nat.zero_le n)
  intro m e _ he halive
  rcases (step_frame (x.step m e he)).alive with ⟨hdrop, _⟩ | hsame
  · exact absurd hdrop (h m e he)
  · rwa [hsame]

theorem execution_reloadState {x : Execution Step}
    (hinit : (x.state 0).runtime.reloadState = some reloadState)
    (h : ∀ m e state, x.event m = some e → e.1 ≠ .reload state) (n : ℕ) :
    (x.state n).runtime.reloadState = some reloadState := by
  refine Execution.always (I := fun s : State => s.runtime.reloadState = some reloadState) hinit ?_
    n (Nat.zero_le n)
  intro m e _ he hs
  rcases (step_frame (x.step m e he)).reloadState with ⟨state, hreload⟩ | hsame
  · exact absurd hreload (h m e state he)
  · rwa [hsame]

/-- Prompts announce their changes, and nothing else does. -/
def promptsAnnounced : ReloadState :=
  ⟨.stdio, ⟨0, .withPrompts⟩, none⟩

theorem notifications_coalesce_prompts :
    ∃ (x : Execution (machine promptsAnnounced).Step) (m k i : ℕ), Fair x ∧
      x.event 1 = some (.readEnabled 0, .found .prompts true) ∧ 1 < m ∧ m < k ∧
      x.event m = some (.insert 0, .scheduled .prompts) ∧
      x.event k = some (.remove i, .removed .prompts) := by
  have hr := @Machine.runs_of_execute _ _ _ (machine promptsAnnounced) (init promptsAnnounced) _
    [.schedule 0 .prompts, .readEnabled 0, .insert 0, .wake 0 true, .remove 0, .readEngine 0,
      .notify 0] _ rfl
  obtain ⟨x, hx, hevent, hend⟩ := Execution.exists_of_runs hr
  have hfair : Fair x := by
    refine fair_of_stopped (n := 7) fun m hm => ?_
    rw [hend m hm]
    exact ⟨fun c => by cases c <;> rfl, fun i => by cases i <;> rfl⟩
  have halive : ∀ n, (x.state n).alive = true := by
    refine execution_alive (hx ▸ rfl) fun m e he => ?_
    rw [hevent] at he
    obtain ⟨hl, _⟩ := List.of_mem_zip (List.mem_of_getElem? he)
    rintro hdrop
    simp [hdrop] at hl
  obtain ⟨m, k, i, h⟩ := (notifications_coalesce promptsAnnounced).2.1 x hx hfair halive 1 0 .prompts
    (hevent 1)
  exact ⟨x, m, k, i, hfair, hevent 1, h⟩

end RustMcpCore.ListChanged
