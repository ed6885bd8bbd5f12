import RustMcpCore.Http.Hardening

/-! # The session limit

`create_session` counts the sessions, and creates one after further awaits.
Calls that have passed the count and not yet created are sessions to come; the
limit holds as long as a count that passes leaves room for them.
-/
namespace RustMcpCore.HardeningSessionManager
open Library Program
variable {limits : Limits} {s t : State} {e : Event}

/-- The call has passed the count and awaits its inner session. -/
def Passed (task : Task) : Prop := task = .create .creating

/-- A count that passes finds room for the calls that have passed before it, too. -/
def CountsPassed (limits : Limits) (s : State) (e : Event) : Prop :=
  e.1.2 = .count → ∀ limit, limits.maxSessions = some limit →
    s.shared.sessions.card < limit.toNat →
    s.shared.sessions.card + (inPhase Passed s).ncard < limit.toNat

theorem le_countU64 {limit : UInt64} {count : ℕ} :
    limit ≤ countU64 count ↔ limit.toNat ≤ count := by
  have hlimit := limit.toNat_lt
  rw [UInt64.le_iff_toNat_le]
  unfold countU64
  split
  · rw [UInt64.toNat_ofNat_of_lt' (by assumption)]
  · rw [UInt64.toNat_ofNat_of_lt' (by decide)]
    omega

theorem act_passes {i : ℕ} {g g' : Shared} {task : Option Task} {action : Action} {o : Output}
    {limit : UInt64} (hlimit : limits.maxSessions = some limit)
    (h : act limits i g task action = some (g', some (.create .creating), o)) :
    action = .count ∧ g' = g ∧ g.sessions.card < limit.toNat := by
  have hprune : ∀ ids, .creating ≠ prune limits ids := by
    intro ids
    cases ids <;> simp [prune, afterPrune, hlimit]
  obtain ⟨phase, _, hstep⟩ := act_create h
  cases hstep with
  | start now _ next =>
    split at next
    · cases next
    · exact absurd next (hprune [])
  | expired _ ids _ _ next => exact absurd next (hprune ids)
  | unbooked _ rest _ next => exact absurd next (hprune rest)
  | passed limit' configured count =>
    rw [hlimit] at configured
    cases configured
    rw [le_countU64, not_le] at count
    exact ⟨rfl, rfl, count⟩

theorem act_createInner {i : ℕ} {g g' : Shared} {task task' : Option Task} {id : SessionId}
    {o : Output} (h : act limits i g task (.createInner (.ok id)) = some (g', task', o)) :
    task = some (.create .creating) ∧ task' = some (.create (.created id)) := by
  rcases task with _ | ⟨phase⟩ | ⟨_, phase⟩ | ⟨_, _, phase⟩
  · cases h
  · cases phase with
    | creating => cases h; exact ⟨rfl, rfl⟩
    | removing _ _ removal => cases removal <;> cases h
    | _ => cases h
  · cases phase with
    | started => cases h
    | removing removal => cases removal <;> cases h
  · cases phase with
    | removing removal => cases removal <;> cases h
    | _ => cases h

theorem step_cap {limit : UInt64} (hlimit : limits.maxSessions = some limit)
    (hs : (inPhase Passed s).Finite ∧
      s.shared.sessions.card + (inPhase Passed s).ncard ≤ limit.toNat)
    (he : Guarded (Step limits) (CountsPassed limits) s e t) :
    (inPhase Passed t).Finite ∧
      t.shared.sessions.card + (inPhase Passed t).ncard ≤ limit.toNat := by
  obtain ⟨hfin, hcap⟩ := hs
  obtain ⟨hstep, hguard⟩ := he
  have hact := step_self hstep
  refine ⟨step_inPhase_finite hstep hfin, ?_⟩
  by_cases hin : e.1.1 ∈ inPhase Passed t
  · obtain ⟨task, htask, rfl⟩ := hin
    rw [Option.mem_def.mp htask] at hact
    obtain ⟨hcount, hsame, hlt⟩ := act_passes (i := e.1.1) hlimit hact
    have hroom := hguard hcount limit hlimit hlt
    have henter := step_inPhase_enter hstep hfin
    rw [hsame]
    omega
  · have hstay := step_inPhase_stay hstep hfin hin
    cases act_change (i := e.1.1) hact with
    | created id call after =>
      rw [call] at hact
      have hleave := step_inPhase_leave hstep hfin ⟨_, (act_createInner (i := e.1.1) hact).1, rfl⟩ hin
      have hinsert := Finset.card_insert_le id s.shared.sessions
      rw [after]
      dsimp only
      omega
    | removed id _ _ after =>
      have herase := Finset.card_erase_le (a := id) (s := s.shared.sessions)
      rw [after]
      dsimp only
      omega
    | kept same | ended same => rw [same]; omega
    | booked _ _ after => rw [after]; dsimp only; omega
    | unbooked _ after => rw [after]; dsimp only; omega

/-- In every run in which each count that passes finds room for the calls that have
passed before it, the inner manager never has more sessions than the limit. -/
theorem session_cap {limit : UInt64} (hlimit : limits.maxSessions = some limit)
    {es : List Event} (hr : Runs (Guarded (Step limits) (CountsPassed limits)) (init limits) es s) :
    s.shared.sessions.card ≤ limit.toNat := by
  have hinv := hr.invariant (fun s => (inPhase Passed s).Finite ∧
    s.shared.sessions.card + (inPhase Passed s).ncard ≤ limit.toNat)
    (fun _ _ _ hs he => step_cap hlimit hs he) ?_
  · exact (Nat.le_add_right _ _).trans hinv.2
  · rw [inPhase_init, Set.ncard_empty]
    exact ⟨Set.finite_empty, Nat.zero_le _⟩

/-- Two calls that both pass the count before either of them creates. -/
def overlappingCreates : List (ℕ × Action) :=
  [(0, .create 0), (1, .create 0), (0, .count), (1, .count),
    (0, .createInner (.ok "first")), (1, .createInner (.ok "second")), (0, .book 1), (1, .book 1)]

def limited (maxSessions : UInt64) : Limits := new (some ⟨some maxSessions, none, none, none⟩)

/-- With a limit of two there is room for both. -/
theorem session_cap_overlapping : ∃ es s, es.map Prod.fst = overlappingCreates ∧
    Runs (Guarded (Step (limited 2)) (CountsPassed (limited 2))) (init (limited 2)) es s ∧
    s.shared.sessions.card ≤ 2 := by
  have hm : (program (limited 2)).machine.Meets (CountsPassed (limited 2)) (init (limited 2))
      overlappingCreates := by
    have room : ∀ s : State, s.shared.sessions = ∅ → inPhase Passed s ⊆ {0} →
        CountsPassed (limited 2) s ((0, .count), .silent) := by
      intro s hs hsub _ limit hlimit _
      cases hlimit
      have hone := Set.ncard_le_ncard hsub (Set.finite_singleton 0)
      rw [Set.ncard_singleton] at hone
      rw [hs, Finset.card_empty, Nat.zero_add]
      exact Nat.lt_of_le_of_lt hone (by decide)
    refine ⟨nofun, nofun, room _ rfl ?_, room _ rfl ?_, nofun, nofun, nofun, nofun, trivial⟩
    all_goals
      rintro (_ | _ | i) ⟨task, htask, hp⟩
      · rfl
      · cases htask
        cases hp
      · cases htask
  have hr := hm.runs rfl
  exact ⟨_, _, rfl, hr, @session_cap (limited 2) _ 2 rfl _ hr⟩

/-- With a limit of one there is not, and both create. -/
theorem session_cap_exceeded : (limited 1).maxSessions = some 1 ∧ ∃ s,
    (program (limited 1)).machine.Reachable s ∧ s.shared.sessions.card = 2 := by
  have hr := @Machine.runs_of_execute _ _ _ (program (limited 1)).machine (init (limited 1)) _
    overlappingCreates _ rfl
  exact ⟨rfl, _, Machine.reachable_of_runs hr, rfl⟩

end RustMcpCore.HardeningSessionManager
