import RustMcpCore.Http.SessionCap

/-! # Session records and sessions

The creation times are to have the same keys as the session map. The two differ
while an operation has changed one map and not yet the other; when such an
operation fails or is dropped, nobody makes up for it.
-/
namespace RustMcpCore.HardeningSessionManager
open Library Program
variable {limits : Limits} {s t : State} {e : Event}

/-- The two maps agree on a session. -/
def Shared.AgreesOn (g : Shared) (id : SessionId) : Prop := id ∈ g.createdAt ↔ id ∈ g.sessions

/-- The session that a task is working on. -/
def Task.current : Task → Option SessionId
  | .create (.pruning id _) | .create (.removing id _ _) | .create (.created id) => some id
  | .create _ => none
  | .close id _ | .forward _ id _ => some id

/-- The sessions that a task has to do with. -/
def Task.ids : Task → List SessionId
  | .create (.pruning id rest) | .create (.removing id rest _) => id :: rest
  | .create (.created id) => [id]
  | .create _ => []
  | .close id _ | .forward _ id _ => [id]

/-- The maps agree on the session that a task is working on. -/
def SettledFor (s : State) (i : ℕ) : Prop :=
  ∀ id, (s.tasks i).bind Task.current = some id → s.shared.AgreesOn id

/-- No inner close fails in a prune; an inner close fails and a future is dropped only
while the maps agree on the session in question; and nobody works on a session whose
`create_session` has not returned, the ids of the inner manager being new ones. -/
def Careful (s : State) (e : Event) : Prop :=
  match e.1.2 with
  | .closed (.error _) => SettledFor s e.1.1 ∧ ∀ phase, s.tasks e.1.1 ≠ some (.create phase)
  | .drop => SettledFor s e.1.1
  | .createInner (.ok id) => id ∉ s.shared.sessions ∧ id ∉ s.shared.createdAt ∧
      ∀ j, ∀ task ∈ s.tasks j, id ∉ task.ids
  | .closeInner | .check _ => ∀ id, (s.tasks e.1.1).bind Task.targets = some id →
      ∀ j, (s.tasks j).bind Task.creates ≠ some id
  | _ => True

/-- Every difference between the maps is in the hands of a task. -/
structure Accounted (s : State) : Prop where
  unrecorded : ∀ id ∈ s.shared.sessions, id ∈ s.shared.createdAt ∨
    ∃ j, (s.tasks j).bind Task.creates = some id
  stale : ∀ id ∈ s.shared.createdAt, id ∈ s.shared.sessions ∨
    ∃ j, (s.tasks j).bind Task.removes = some id
  created : ∀ j id, (s.tasks j).bind Task.creates = some id → id ∈ s.shared.sessions
  removed : ∀ j id, (s.tasks j).bind Task.removes = some id → id ∉ s.shared.sessions

theorem creates_current {task : Option Task} {id : SessionId}
    (h : task.bind Task.creates = some id) : task.bind Task.current = some id := by
  obtain ⟨task, rfl, hid⟩ := Option.bind_eq_some_iff.mp h
  unfold Task.creates at hid
  split at hid <;> cases hid
  rfl

theorem removes_current {task : Option Task} {id : SessionId}
    (h : task.bind Task.removes = some id) : task.bind Task.current = some id := by
  obtain ⟨task, rfl, hid⟩ := Option.bind_eq_some_iff.mp h
  unfold Task.removes at hid
  split at hid <;> cases hid <;> rfl

theorem current_ids {task : Option Task} {id : SessionId}
    (h : task.bind Task.current = some id) : ∃ task' ∈ task, id ∈ task'.ids := by
  obtain ⟨task, rfl, hid⟩ := Option.bind_eq_some_iff.mp h
  refine ⟨task, rfl, ?_⟩
  unfold Task.current at hid
  split at hid <;> cases hid <;> exact List.mem_cons_self

section Steps
variable (hs : Accounted s) (hstep : Step limits s e t)
include hs hstep

/-- What changes neither map nor what the task holds. -/
theorem accounted_of_kept (same : t.shared = s.shared)
    (creates : (t.tasks e.1.1).bind Task.creates = (s.tasks e.1.1).bind Task.creates)
    (removes : (t.tasks e.1.1).bind Task.removes = (s.tasks e.1.1).bind Task.removes) :
    Accounted t := by
  have hc := step_bind hstep creates
  have hr := step_bind hstep removes
  constructor <;> simp only [same, hc, hr]
  · exact hs.unrecorded
  · exact hs.stale
  · exact hs.created
  · exact hs.removed

/-- A session begins, under an id that nobody has to do with. -/
theorem accounted_of_created {id : SessionId} (hfresh : ∀ j, ∀ task ∈ s.tasks j, id ∉ task.ids)
    (after : t.shared = { s.shared with sessions := insert id s.shared.sessions })
    (creates : (t.tasks e.1.1).bind Task.creates = some id)
    (free : (s.tasks e.1.1).bind Task.creates = none)
    (removes : (t.tasks e.1.1).bind Task.removes = (s.tasks e.1.1).bind Task.removes) :
    Accounted t := by
  have hr := step_bind hstep removes
  constructor <;> simp only [after, hr, Finset.mem_insert]
  · rintro id' (rfl | hid)
    · exact .inr ⟨_, creates⟩
    · rcases hs.unrecorded id' hid with hrec | ⟨j, hj⟩
      · exact .inl hrec
      · exact .inr ⟨j, step_bind_kept hstep free hj⟩
  · intro id' hid
    rcases hs.stale id' hid with hin | hj
    · exact .inl (.inr hin)
    · exact .inr hj
  · intro j id' hj
    rcases step_bind_new hstep creates hj with rfl | hj
    · exact .inl rfl
    · exact .inr (hs.created j id' hj)
  · rintro j id' hj (rfl | hin)
    · obtain ⟨task, htask, hmem⟩ := current_ids (removes_current hj)
      exact hfresh j task htask hmem
    · exact hs.removed j id' hj hin

/-- The creation of a session is noted. -/
theorem accounted_of_booked {id : SessionId} {now : Instant}
    (after : t.shared = { s.shared with createdAt := s.shared.createdAt.insert id now })
    (creates : (s.tasks e.1.1).bind Task.creates = some id)
    (free : (t.tasks e.1.1).bind Task.creates = none)
    (removes : (t.tasks e.1.1).bind Task.removes = (s.tasks e.1.1).bind Task.removes) :
    Accounted t := by
  have hr := step_bind hstep removes
  constructor <;> simp only [after, hr, AList.mem_insert]
  · intro id' hid
    rcases hs.unrecorded id' hid with hrec | ⟨j, hj⟩
    · exact .inl (.inr hrec)
    · rcases step_bind_old hstep creates hj with rfl | hj
      · exact .inl (.inl rfl)
      · exact .inr ⟨j, hj⟩
  · rintro id' (rfl | hid)
    · exact .inl (hs.created _ _ creates)
    · exact hs.stale id' hid
  · exact fun j id' hj => hs.created j id' (step_bind_held hstep free hj)
  · exact hs.removed

/-- A session ends that nobody is creating. -/
theorem accounted_of_removed {id : SessionId}
    (hother : ∀ j, (s.tasks j).bind Task.creates ≠ some id)
    (after : t.shared = { s.shared with sessions := s.shared.sessions.erase id })
    (removes : (t.tasks e.1.1).bind Task.removes = some id)
    (idle : (s.tasks e.1.1).bind Task.removes = none)
    (creates : (t.tasks e.1.1).bind Task.creates = (s.tasks e.1.1).bind Task.creates) :
    Accounted t := by
  have hc := step_bind hstep creates
  constructor <;> simp only [after, hc, Finset.mem_erase]
  · rintro id' ⟨_, hid⟩
    exact hs.unrecorded id' hid
  · intro id' hid
    by_cases heq : id' = id
    · rw [heq]
      exact .inr ⟨_, removes⟩
    · rcases hs.stale id' hid with hin | ⟨j, hj⟩
      · exact .inl ⟨heq, hin⟩
      · exact .inr ⟨j, step_bind_kept hstep idle hj⟩
  · intro j id' hj
    refine ⟨?_, hs.created j id' hj⟩
    rintro rfl
    exact hother j hj
  · rintro j id' hj ⟨hne, hin⟩
    rcases step_bind_new hstep removes hj with rfl | hj
    · exact hne rfl
    · exact hs.removed j id' hj hin

/-- The record of a session that has ended is deleted. -/
theorem accounted_of_unbooked {id : SessionId}
    (after : t.shared = { s.shared with createdAt := s.shared.createdAt.erase id })
    (removes : (s.tasks e.1.1).bind Task.removes = some id)
    (idle : (t.tasks e.1.1).bind Task.removes = none)
    (creates : (t.tasks e.1.1).bind Task.creates = (s.tasks e.1.1).bind Task.creates) :
    Accounted t := by
  have hc := step_bind hstep creates
  constructor <;> simp only [after, hc, AList.mem_erase]
  · intro id' hid
    rcases hs.unrecorded id' hid with hrec | hj
    · refine .inl ⟨?_, hrec⟩
      rintro rfl
      exact hs.removed _ _ removes hid
    · exact .inr hj
  · rintro id' ⟨hne, hid⟩
    rcases hs.stale id' hid with hin | ⟨j, hj⟩
    · exact .inl hin
    · rcases step_bind_old hstep removes hj with rfl | hj
      · exact absurd rfl hne
      · exact .inr ⟨j, hj⟩
  · exact hs.created
  · exact fun j id' hj => hs.removed j id' (step_bind_held hstep idle hj)

/-- A task is gone while the maps agree on its session. -/
theorem accounted_of_ended (hagree : SettledFor s e.1.1) (same : t.shared = s.shared)
    (gone : t.tasks e.1.1 = none) : Accounted t := by
  have hkept : ∀ {f : Task → Option SessionId} {j id}, (t.tasks j).bind f = some id →
      (s.tasks j).bind f = some id := step_bind_held hstep (by rw [gone]; rfl)
  constructor <;> rw [same]
  · intro id hid
    rcases hs.unrecorded id hid with hrec | ⟨j, hj⟩
    · exact .inl hrec
    · by_cases hi : j = e.1.1
      · rw [hi] at hj
        exact .inl ((hagree id (creates_current hj)).mpr hid)
      · exact .inr ⟨j, by rwa [step_other hstep hi]⟩
  · intro id hid
    rcases hs.stale id hid with hin | ⟨j, hj⟩
    · exact .inl hin
    · by_cases hi : j = e.1.1
      · rw [hi] at hj
        exact .inl ((hagree id (removes_current hj)).mp hid)
      · exact .inr ⟨j, by rwa [step_other hstep hi]⟩
  · exact fun j id hj => hs.created j id (hkept hj)
  · exact fun j id hj => hs.removed j id (hkept hj)

end Steps

theorem step_accounted (hs : Accounted s) (he : Guarded (Step limits) Careful s e t) :
    Accounted t := by
  obtain ⟨hstep, hguard⟩ := he
  cases act_change (i := e.1.1) (step_self hstep) with
  | kept same creates removes => exact accounted_of_kept hs hstep same creates removes
  | created id call after creates free removes removes' =>
    simp only [Careful, call] at hguard
    exact accounted_of_created hs hstep hguard.2.2 after creates free (removes'.trans removes.symm)
  | booked id now after creates free removes removes' =>
    exact accounted_of_booked hs hstep after creates free (removes'.trans removes.symm)
  | removed id call target after removes idle free free' =>
    simp only [Careful, call] at hguard
    have hother := hguard id target
    exact accounted_of_removed hs hstep hother after removes idle (free'.trans free.symm)
  | unbooked id after removes idle free free' =>
    exact accounted_of_unbooked hs hstep after removes idle (free'.trans free.symm)
  | ended same gone call =>
    have hagree : SettledFor s e.1.1 := by
      rcases call with call | ⟨error, call⟩
      · simpa only [Careful, call] using hguard
      · simp only [Careful, call] at hguard
        exact hguard.1
    exact accounted_of_ended hs hstep hagree same gone

/-! ## Prunes -/

def noteClose (ids : List SessionId) (action : Action) (o : Output) : List SessionId :=
  match action, o with
  | .create _, _ => []
  | _, .expired found => found
  | _, .closing id => ids.erase id
  | _, _ => ids

/-- The sessions that the prune of the latest `create_session` of a task has found
expired and not yet closed. -/
def toClose (i : ℕ) (es : List Event) : List SessionId :=
  es.foldl (fun ids e => if e.1.1 = i then noteClose ids e.1.2 e.2 else ids) []

def CreatePhase.remaining : CreatePhase → List SessionId
  | .pruning id rest => id :: rest
  | .removing _ rest _ => rest
  | .snapshot _ | .counting | .creating | .created _ => []

theorem remaining_prune (ids : List SessionId) : (prune limits ids).remaining = ids := by
  unfold prune afterPrune
  cases ids with
  | cons id rest => rfl
  | nil => cases limits.maxSessions <;> rfl

def Remaining (es : List Event) (s : State) : Prop :=
  ∀ i phase, s.tasks i = some (.create phase) → toClose i es = phase.remaining

theorem act_remaining {i : ℕ} {g g' : Shared} {task : Option Task} {action : Action} {o : Output}
    {phase' : CreatePhase} {ids : List SessionId}
    (hids : ∀ phase, task = some (.create phase) → ids = phase.remaining)
    (h : act limits i g task action = some (g', some (.create phase'), o)) :
    noteClose ids action o = phase'.remaining := by
  obtain ⟨phase, rfl, hstep⟩ := act_create h
  cases hstep with
  | start now _ next =>
    rw [next]
    split
    · rfl
    · exact (remaining_prune []).symm
  | expired now found _ _ next =>
    rw [next]
    exact (remaining_prune found).symm
  | closing id rest =>
    rw [hids _ rfl]
    change (id :: rest).erase id = rest
    simp
  | unbooked id rest _ next =>
    rw [next, remaining_prune]
    have hrest := hids _ rfl
    exact hrest
  | closed | passed | created =>
    have hrest := hids _ rfl
    exact hrest

theorem step_remaining {es : List Event} (hs : Remaining es s) (he : Step limits s e t) :
    Remaining (es ++ [e]) t := by
  intro i phase h
  rw [toClose, List.foldl_append]
  change (if e.1.1 = i then noteClose (toClose i es) e.1.2 e.2 else toClose i es) = phase.remaining
  by_cases hi : i = e.1.1
  · subst hi
    have hact := step_self he
    rw [h] at hact
    rw [if_pos rfl]
    exact act_remaining (i := e.1.1) (hs e.1.1) hact
  · rw [step_other he hi] at h
    rw [if_neg (Ne.symm hi), hs i phase h]

/-- A prune ends only when it has closed every session that it has found expired. -/
def CreatePhase.Pruned : CreatePhase → Prop
  | .counting | .creating | .created _ => True
  | .snapshot _ | .pruning _ _ | .removing _ _ _ => False

theorem act_createFailed {i : ℕ} {g g' : Shared} {task task' : Option Task} {action : Action}
    {error : HardeningSessionManagerError}
    (h : act limits i g task action = some (g', task', .createFailed error)) :
    (∃ phase error', task = some (.create phase) ∧ action = .closed (.error error')) ∨
      (∃ limit, limits.maxSessions = some limit ∧ error = .sessionLimitExceeded limit ∧
        limit.toNat ≤ g.sessions.card) ∨
      ∃ error', action = .createInner (.error error') ∧ error = .inner error' := by
  have hcreate : ∀ {phase}, task = phase.map .create →
      actCreate limits g phase action = some (g', task', .createFailed error) →
      (∃ phase error', task = some (.create phase) ∧ action = .closed (.error error')) ∨
        (∃ limit, limits.maxSessions = some limit ∧ error = .sessionLimitExceeded limit ∧
          limit.toNat ≤ g.sessions.card) ∨
        ∃ error', action = .createInner (.error error') ∧ error = .inner error' := by
    intro phase htask h
    cases actCreate_step h with
    | closeFailed => exact .inl ⟨_, _, htask, rfl⟩
    | full limit configured count =>
      exact .inr (.inl ⟨limit, configured, rfl, le_countU64.mp count⟩)
    | refused => exact .inr (.inr ⟨_, rfl, rfl⟩)
  unfold act at h
  split at h
  · cases h
  · cases h
  · cases h
  · exact hcreate rfl h
  · exact hcreate rfl h
  · unfold actClose at h
    split at h
    · cases h
    · split at h <;> cases h
    · cases h
    · cases h
  · unfold actForward at h
    split at h
    · obtain ⟨_, _, h⟩ := Option.map_eq_some_iff.mp h
      cases h
    · cases h
    · split at h <;> cases h
    · cases h
    · cases h
    · cases h

/-- With a maximal lifetime, an operation is let through only by its check, and the
check has found no record or a young one. -/
theorem act_checked {i : ℕ} {g g' : Shared} {task : Option Task} {action : Action} {o : Output}
    {operation : Operation} {id : SessionId} {maxLifetime : Duration}
    (hlife : limits.maxLifetime = some maxLifetime)
    (h : act limits i g task action = some (g', some (.forward operation id .checked), o)) :
    ∃ now, action = .check now ∧ task.bind Task.targets = some id ∧
      ∀ created ∈ g.createdAt.lookup id, durationSince now created < maxLifetime := by
  unfold act at h
  split at h
  · cases h
  · cases h
  · rw [hlife] at h
    cases h
  · rcases actCreate_kind h with h | ⟨_, h⟩ <;> cases h
  · rcases actCreate_kind h with h | ⟨_, h⟩ <;> cases h
  · rcases actClose_kind h with h | ⟨_, h⟩ <;> cases h
  · unfold actForward at h
    split at h
    · rename_i now _
      rw [hlife] at h
      simp only [Option.map_some, Option.some.injEq, Prod.mk.injEq, Task.forward.injEq] at h
      obtain ⟨_, ⟨_, rfl, hphase⟩, _⟩ := h
      refine ⟨now, rfl, rfl, ?_⟩
      intro created hcreated
      rw [Option.mem_def.mp hcreated] at hphase
      dsimp only at hphase
      by_contra hold
      rw [if_neg hold] at hphase
      cases hphase
    · cases h
    · split at h <;> cases h
    · cases h
    · cases h
    · cases h

/-- What holds after a run. -/
structure Sound (limits : Limits) (es : List Event) (s : State) : Prop where
  /-- With no operation running, the records are those of the sessions. -/
  recorded : (∀ i, s.tasks i = none) → ∀ id, id ∈ s.shared.createdAt ↔ id ∈ s.shared.sessions
  /-- A call that is past its prune has closed all that the prune has found expired. -/
  pruned : ∀ i phase, s.tasks i = some (.create phase) → phase.Pruned → toClose i es = []
  /-- A call fails only at the limit, or when the inner manager creates no session. -/
  failed : ∀ e t error, Guarded (Step limits) Careful s e t → e.2 = .createFailed error →
    (∃ limit, limits.maxSessions = some limit ∧ error = .sessionLimitExceeded limit ∧
      limit.toNat ≤ s.shared.sessions.card) ∨
    ∃ error', e.1.2 = .createInner (.error error') ∧ error = .inner error'
  /-- An operation is let through to a session of the inner manager only by a check that
  has found its age below the maximal lifetime. -/
  forwarded : ∀ e t operation id maxLifetime, Guarded (Step limits) Careful s e t →
    limits.maxLifetime = some maxLifetime →
    t.tasks e.1.1 = some (.forward operation id .checked) → ∃ now, e.1.2 = .check now ∧
      (id ∈ s.shared.sessions → ∃ created, s.shared.createdAt.lookup id = some created ∧
        durationSince now created < maxLifetime)

theorem sound_of_accounted {es : List Event} (hs : Accounted s) (hes : Remaining es s) :
    Sound limits es s where
  recorded hidle id := by
    constructor
    · intro hid
      rcases hs.stale id hid with hin | ⟨j, hj⟩
      · exact hin
      · rw [hidle j] at hj
        cases hj
    · intro hid
      rcases hs.unrecorded id hid with hrec | ⟨j, hj⟩
      · exact hrec
      · rw [hidle j] at hj
        cases hj
  pruned i phase htask hpruned := by
    rw [hes i phase htask]
    cases phase with
    | counting | creating | created _ => rfl
    | snapshot _ | pruning _ _ | removing _ _ _ => exact hpruned.elim
  failed := by
    rintro e t error ⟨hstep, hguard⟩ ho
    have hact := step_self hstep
    rw [ho] at hact
    rcases act_createFailed (i := e.1.1) hact with ⟨phase, _, htask, hcall⟩ | hlimit | hinner
    · simp only [Careful, hcall] at hguard
      exact absurd htask (hguard.2 phase)
    · exact .inl hlimit
    · exact .inr hinner
  forwarded := by
    rintro e t operation id maxLifetime ⟨hstep, hguard⟩ hlife htask
    have hact := step_self hstep
    rw [htask] at hact
    obtain ⟨now, hcall, htarget, hyoung⟩ := act_checked (i := e.1.1) hlife hact
    refine ⟨now, hcall, fun hid => ?_⟩
    simp only [Careful, hcall] at hguard
    rcases hs.unrecorded id hid with hrec | ⟨j, hj⟩
    · obtain ⟨created, hcreated⟩ := Option.isSome_iff_exists.mp (AList.lookup_isSome.mpr hrec)
      exact ⟨created, hcreated, hyoung created hcreated⟩
    · exact absurd hj (hguard id htarget j)

theorem init_accounted : Accounted (init limits) := by
  constructor
  · rintro id hid
    cases hid
  · rintro id hid
    cases hid
  · rintro j id hj
    cases hj
  · rintro j id hj
    cases hj

/-- In every run without a failing close in a prune, and without a failing close or a
dropped future that leaves the maps different, the records are those of the sessions,
prunes are complete, and no operation reaches an expired session. -/
theorem sessions_sound {es : List Event}
    (hr : Runs (Guarded (Step limits) Careful) (init limits) es s) : Sound limits es s := by
  have hs := hr.invariant Accounted (fun _ _ _ hs he => step_accounted hs he) init_accounted
  refine sound_of_accounted hs (hr.history Remaining (fun _ _ _ _ hs he => step_remaining hs he.1) ?_)
  intro i phase h
  cases h

/-- At most three sessions, for ten seconds each. -/
def hardened : Limits := new (some ⟨some 3, none, some 10, none⟩)

/-- A session is created and used, and the next call finds it expired and closes it. -/
def expiredOnce : List (ℕ × Action) :=
  [(0, .create 0), (0, .snapshot), (0, .count), (0, .createInner (.ok "first")), (0, .book 0),
    (0, .forward .acceptMessage "first"), (0, .check 5000000000), (0, .forwardInner),
    (0, .create 11000000000), (0, .snapshot), (0, .closeInner), (0, .closed (.ok ())),
    (0, .unbook), (0, .count), (0, .createInner (.ok "second")), (0, .book 11000000000)]

theorem sessions_sound_expired : ∃ es s, es.map Prod.fst = expiredOnce ∧
    Runs (Guarded (Step hardened) Careful) (init hardened) es s ∧ Sound hardened es s ∧
    s.shared.sessions = {"second"} := by
  have hm : (program hardened).machine.Meets Careful (init hardened) expiredOnce := by
    refine ⟨trivial, trivial, trivial, ⟨by decide, by decide, ?_⟩, trivial, trivial, ?_, trivial,
      trivial, trivial, ?_, trivial, trivial, trivial, ⟨by decide, by decide, ?_⟩, trivial, trivial⟩
    · rintro (_ | j) task htask <;> cases htask
      exact List.not_mem_nil
    · rintro id _ (_ | j) hj <;> cases hj
    · rintro id _ (_ | j) hj <;> cases hj
    · rintro (_ | j) task htask <;> cases htask
      exact List.not_mem_nil
  have hr := hm.runs rfl
  exact ⟨_, _, rfl, hr, @sessions_sound hardened _ _ hr, by decide⟩

/-- The third call finds two sessions expired, and the first inner close fails. -/
def failedClose : List (ℕ × Action) :=
  [(0, .create 0), (0, .snapshot), (0, .count), (0, .createInner (.ok "first")), (0, .book 0),
    (1, .create 0), (1, .snapshot), (1, .count), (1, .createInner (.ok "second")), (1, .book 0),
    (2, .create 11000000000), (2, .snapshot), (2, .closeInner),
    (2, .closed (.error (.session "closed")))]

/-- No operation is running and a record without a session is left; the other expired
session has not been closed; and the call has failed with one session of three. -/
theorem sessions_drift : ∃ es s, (program hardened).machine.Reachable s ∧
    Runs (Step hardened) (init hardened) es s ∧ (∀ i, s.tasks i = none) ∧
    ("second" ∈ s.shared.createdAt ∧ "second" ∉ s.shared.sessions) ∧
    ("first" ∈ toClose 2 es ∧ "first" ∈ s.shared.sessions) ∧
    s.shared.sessions.card = 1 ∧ hardened.maxSessions = some 3 ∧
    es.getLast?.map Prod.snd = some (.createFailed (.inner (.session "closed"))) := by
  have hr := @Machine.runs_of_execute _ _ _ (program hardened).machine (init hardened) _
    failedClose _ rfl
  refine ⟨_, _, Machine.reachable_of_runs hr, hr, ?_, by decide, by decide, by decide, rfl, rfl⟩
  intro i
  rcases i with _ | _ | _ | i <;> rfl

end RustMcpCore.HardeningSessionManager
