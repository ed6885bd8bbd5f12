import RustMcpCore.Notifications.Retention

/-! # Who is told

A call of `notify` sends to the peers that it finds in the list. Those that another
call has taken out it does not see.
-/
namespace RustMcpCore.ClientNotificationHub
open Library Program
variable {s t : State} {e : Event} {i : ℕ} {kind : NotificationKind} {entry : ObservedPeer}

/-- No call takes the list while an open peer is only in the hands of another one. -/
def Delivering (s : State) (e : Event) : Prop :=
  Retaining s e ∧ (e.1.2 = .take → ∀ j, j ≠ e.1.1 → ∀ entry ∈ held (s.tasks j),
    entry.peer ∉ s.shared.closed → entry ∈ s.shared.peers)

/-- The event ends the call. -/
def Ends (i : ℕ) (e : Event) : Prop :=
  e.1.1 = i ∧ (e.1.2 = .drop ∨ ∃ sent, e.2 = .notified sent)

def Sends (i : ℕ) (kind : NotificationKind) (entry : ObservedPeer) (e : Event) : Prop :=
  e.1.1 = i ∧ e.2 = .sent kind entry

def NotifyPhase.pending : NotifyPhase → List ObservedPeer
  | .sending entry rest _ _ => entry :: rest
  | .started | .merging _ _ => []

/-- The call has not taken the list yet, or the peer is among those to come, or the
peer has been sent to. -/
def Underway (i : ℕ) (kind : NotificationKind) (entry : ObservedPeer) (es : List Event)
    (s : State) : Prop :=
  ∃ phase, s.tasks i = some (.notify kind phase) ∧
    (phase = .started ∨ entry ∈ phase.pending ∨ ∃ e ∈ es, Sends i kind entry e)

theorem pending_sendNext (keep : List ObservedPeer) (sent : ℕ) (rest : List ObservedPeer) :
    (sendNext keep sent rest).pending = rest := by
  cases rest <;> rfl

section Steps
variable {g g' : Shared} {task' : Option Task} {action : Action} {o : Output} {phase : NotifyPhase}

theorem act_notify (h : act i g (some (.notify kind phase)) action = some (g', task', o))
    (hdrop : action ≠ .drop) : actNotify g kind phase action = some (g', task', o) := by
  cases action with
  | drop => exact absurd rfl hdrop
  | _ => exact h

theorem act_call {task : Option Task} (h : act i g task (.notify kind) = some (g', task', o)) :
    task' = some (.notify kind .started) := by
  rcases task with _ | _ | ⟨_, phase⟩
  · cases h
    rfl
  · cases h
  · cases phase <;> cases h

/-- A step of the call sends to the peer or leaves it among those to come. -/
theorem actNotify_tells (h : actNotify g kind phase action = some (g', task', o))
    (hlist : phase = .started → action = .take → entry ∈ g.retained)
    (hsent : ∀ kind refused, o = .failed kind refused → refused.peer ≠ entry.peer)
    (hphase : phase = .started ∨ entry ∈ phase.pending) :
    o = .sent kind entry ∨
      ∃ phase', task' = some (.notify kind phase') ∧ entry ∈ phase'.pending := by
  unfold actNotify at h
  split at h
  · have hin := hlist rfl rfl
    split at h
    · rename_i hnone
      rw [hnone] at hin
      cases hin
    · rename_i hsome
      cases h
      rw [hsome] at hin
      exact .inr ⟨_, rfl, hin⟩
  · rename_i sending rest keep sent
    cases h
    rcases hphase.resolve_left (by simp) with _ | ⟨_, hin⟩
    · exact .inl rfl
    · exact .inr ⟨_, rfl, (pending_sendNext _ _ rest).symm ▸ hin⟩
  · rename_i sending rest keep sent
    cases h
    rcases hphase.resolve_left (by simp) with _ | ⟨_, hin⟩
    · exact absurd rfl (hsent _ _ rfl)
    · exact .inr ⟨_, rfl, (pending_sendNext _ _ rest).symm ▸ hin⟩
  · rcases hphase with hphase | hphase <;> cases hphase
  · cases h

theorem actNotify_kind (h : actNotify g kind phase action = some (g', task', o)) :
    (∃ phase', task' = some (.notify kind phase')) ∨ ∃ sent, o = .notified sent := by
  unfold actNotify at h
  split at h
  · split at h <;> cases h
    · exact .inr ⟨_, rfl⟩
    · exact .inl ⟨_, rfl⟩
  · cases h
    exact .inl ⟨_, rfl⟩
  · cases h
    exact .inl ⟨_, rfl⟩
  · cases h
    exact .inr ⟨_, rfl⟩
  · cases h

end Steps

/-- When a call takes the list, the list has every known open peer. -/
theorem take_sees (hguard : Delivering s e) (htake : e.1.2 = .take)
    (htask : s.tasks e.1.1 = some (.notify kind .started)) (hentry : Present s entry)
    (hopen : entry.peer ∉ s.shared.closed) : entry ∈ s.shared.retained := by
  refine mem_retained.mpr ⟨?_, hopen⟩
  rcases hentry with h | ⟨j, h⟩
  · exact h
  · by_cases hj : j = e.1.1
    · rw [hj, htask] at h
      cases h
    · exact hguard.2 htake j hj entry h hopen

theorem step_tells (he : Guarded Step Delivering s e t) {phase : NotifyPhase}
    (htask : s.tasks e.1.1 = some (.notify kind phase)) (hentry : Present s entry)
    (hopen : entry.peer ∉ s.shared.closed) (hsent : ¬ Refuses entry.peer e)
    (hdrop : e.1.2 ≠ .drop) (hphase : phase = .started ∨ entry ∈ phase.pending) :
    e.2 = .sent kind entry ∨
      ∃ phase', t.tasks e.1.1 = some (.notify kind phase') ∧ entry ∈ phase'.pending := by
  have hact := step_self he.1
  rw [htask] at hact
  refine actNotify_tells (act_notify (i := e.1.1) hact hdrop) ?_ ?_ hphase
  · rintro rfl htake
    exact take_sees he.2 htake htask hentry hopen
  · rintro kind refused hfail hpeer
    exact hsent ⟨kind, refused, hfail, hpeer⟩

theorem step_underway {es : List Event} (he : Guarded Step Delivering s e t)
    (hs : Underway i kind entry es s) (hentry : Present s entry)
    (hopen : entry.peer ∉ s.shared.closed) (hsent : ¬ Refuses entry.peer e)
    (hends : ¬ Ends i e) : Underway i kind entry (es ++ [e]) t := by
  obtain ⟨phase, htask, hphase⟩ := hs
  by_cases hi : i = e.1.1
  · subst hi
    have hdrop : e.1.2 ≠ .drop := fun h => hends ⟨rfl, .inl h⟩
    have hact := step_self he.1
    rw [htask] at hact
    obtain ⟨phase', htask'⟩ | ⟨sent, hret⟩ := actNotify_kind (act_notify (i := e.1.1) hact hdrop)
    · refine ⟨phase', htask', .inr ?_⟩
      rcases or_assoc.mpr hphase with hphase | ⟨f, hf, hsend⟩
      · rcases step_tells he htask hentry hopen hsent hdrop hphase with ho | ⟨phase'', h, hin⟩
        · exact .inr ⟨e, List.mem_append_right _ List.mem_cons_self, rfl, ho⟩
        · rw [htask'] at h
          cases h
          exact .inl hin
      · exact .inr ⟨f, List.mem_append_left _ hf, hsend⟩
    · exact absurd ⟨rfl, .inr ⟨sent, hret⟩⟩ hends
  · refine ⟨phase, by rw [step_other he.1 hi, htask], ?_⟩
    refine hphase.imp id (Or.imp id ?_)
    rintro ⟨f, hf, hsend⟩
    exact ⟨f, List.mem_append_left _ hf, hsend⟩

/-- From its start on, a call is under way towards each peer that was observed before
and goes on being open and accepting. -/
theorem runs_underway {s₀ s₁ : State} {past during : List Event} {call : Event}
    (hpast : Runs (Guarded Step Delivering) init past s₀)
    (hcall : Guarded Step Delivering s₀ call s₁)
    (hr : Runs (Guarded Step Delivering) s₁ during s)
    (hobserved : Since (Observes entry) (Refuses entry.peer) (past ++ [call]))
    (hstart : Underway i kind entry [] s₁)
    (hduring : ∀ e ∈ during, ¬ Ends i e ∧ ¬ Refuses entry.peer e)
    (hopen : entry.peer ∉ s.shared.closed) :
    Underway i kind entry during s ∧ Present s entry := by
  have hrem : Remembers (past ++ [call]) s₁ := by
    refine step_remembers (hpast.history Remembers ?_ init_remembers) ⟨hcall.1, hcall.2.1⟩
    exact fun _ _ _ _ hs he => step_remembers hs ⟨he.1, he.2.1⟩
  have main := hr.history (fun es t => Remembers (past ++ [call] ++ es) t ∧
    ((∀ e ∈ es, ¬ Ends i e ∧ ¬ Refuses entry.peer e) → entry.peer ∉ t.shared.closed →
      Underway i kind entry es t)) ?_ ?_
  · obtain ⟨hs, hunder⟩ := main
    exact ⟨hunder hduring hopen,
      hs.present entry (hobserved.extend fun e he => (hduring e he).2) hopen⟩
  · rintro es u e v ⟨hu, hunder⟩ he
    refine ⟨?_, fun hes hvopen => ?_⟩
    · rw [← List.append_assoc]
      exact step_remembers hu ⟨he.1, he.2.1⟩
    · have hinit := fun f hf => hes f (List.mem_append_left _ hf)
      have huopen : entry.peer ∉ u.shared.closed := fun h => hvopen (step_closed he.1 h)
      have hpresent := hu.present entry (hobserved.extend fun f hf => (hinit f hf).2) huopen
      obtain ⟨hends, hsent⟩ := hes e (List.mem_append_right _ List.mem_cons_self)
      exact step_underway he (hunder hinit huopen) hpresent huopen hsent hends
  · exact ⟨by rwa [List.append_nil], fun _ _ => hstart⟩

/-- A call that returns has taken a list without the peer, or has none to come. -/
theorem actNotify_returns {g g' : Shared} {task' : Option Task} {action : Action}
    {phase : NotifyPhase} {sent : ℕ}
    (h : actNotify g kind phase action = some (g', task', .notified sent)) :
    phase = .started ∧ action = .take ∧ g.retained = [] ∨
      phase ≠ .started ∧ phase.pending = [] := by
  unfold actNotify at h
  split at h
  · split at h
    · rename_i hnone
      exact .inl ⟨rfl, rfl, hnone⟩
    · cases h
  · cases h
  · cases h
  · exact .inr ⟨by simp, rfl⟩
  · cases h

/-- In every run in which no call takes the list while an open peer is only in the hands
of another one, no call that alone holds an open peer is dropped and no peer takes the
key of another open one, a call that returns has sent to every peer that was observed
before it started and has stayed open and accepted all sends. -/
theorem every_peer_told {past during : List Event} {last : Event}
    (hr : Runs (Guarded Step Delivering) init
      (past ++ ((i, .notify kind), .silent) :: (during ++ [last])) s)
    (hobserved : Since (Observes entry) (Refuses entry.peer) past)
    (hduring : ∀ e ∈ during, ¬ Ends i e ∧ ¬ Refuses entry.peer e)
    (hlast : last.1.1 = i ∧ ∃ sent, last.2 = .notified sent)
    (hopen : entry.peer ∉ s.shared.closed) : ∃ e ∈ during, Sends i kind entry e := by
  obtain ⟨s₀, hpast, hrest⟩ := hr.split
  obtain ⟨rfl, sent, hret⟩ := hlast
  cases hrest with
  | @cons _ s₁ _ _ _ hcall hrest =>
  obtain ⟨s₂, hmid, hend⟩ := hrest.split
  cases hend with
  | cons hstep hnil =>
  cases hnil
  have hopen' : entry.peer ∉ s₂.shared.closed := fun h => hopen (step_closed hstep.1 h)
  have hstart : Underway last.1.1 kind entry [] s₁ :=
    ⟨.started, act_call (i := last.1.1) (step_self hcall.1), .inl rfl⟩
  have hquiet : ∀ e ∈ [((last.1.1, .notify kind), .silent)], ¬ Refuses entry.peer e := by
    rintro e he ⟨_, _, hfail, _⟩
    rw [List.mem_singleton.mp he] at hfail
    cases hfail
  obtain ⟨⟨phase, htask, hphase⟩, hpresent⟩ := runs_underway hpast hcall hmid
    (hobserved.extend hquiet) hstart hduring hopen'
  have hact := step_self hstep.1
  rw [htask, hret] at hact
  have hdrop : last.1.2 ≠ .drop := by
    intro h
    rw [h] at hact
    have hsilent := congrArg (Option.map (·.2.2)) hact
    cases hsilent
  rcases actNotify_returns (act_notify (i := last.1.1) hact hdrop) with
    ⟨rfl, htake, hnone⟩ | ⟨hne, hpending⟩
  · have hin := take_sees hstep.2 htake htask hpresent hopen'
    rw [hnone] at hin
    cases hin
  · rw [hpending] at hphase
    rcases hphase with h | h | h
    · exact absurd h hne
    · cases h
    · exact h

/-- A peer is observed again while a call sends to it, and then the next call starts. -/
def observedAgain : List Event :=
  [((0, .observe (session 1 "a")), .silent), ((0, .record), .observed ⟨"session:a", 1⟩),
    ((0, .notify .tools), .silent), ((0, .take), .silent),
    ((1, .observe (session 1 "a")), .silent), ((1, .record), .observed ⟨"session:a", 1⟩)]

def toldAgain : List Event :=
  [((1, .take), .silent), ((1, .send true), .sent .prompts ⟨"session:a", 1⟩)]

def secondCall : List Event :=
  observedAgain ++ ((1, .notify .prompts), .silent) :: (toldAgain ++ [((1, .merge), .notified 1)])

theorem every_peer_told_again : ∃ s, Runs (Guarded Step Delivering) init secondCall s ∧
    ∃ e ∈ toldAgain, Sends 1 .prompts ⟨"session:a", 1⟩ e := by
  have hm : program.machine.Meets Delivering init (secondCall.map Prod.fst) := by
    have other : ∀ {s : State} {e : Event}, e.1.2 ≠ .take → Retaining s e → Delivering s e :=
      fun hne h => ⟨h, fun htake => absurd htake hne⟩
    refine ⟨other (by simp) trivial, other (by simp) ?_, other (by simp) trivial, ⟨trivial, ?_⟩,
      other (by simp) trivial, other (by simp) ?_, other (by simp) trivial, ⟨trivial, ?_⟩,
      other (by simp) trivial, other (by simp) trivial, trivial⟩
    · rintro new entry _ (h | ⟨_ | j, h⟩) <;> cases h
    · rintro _ (_ | j) hj entry h
      · exact absurd rfl hj
      · cases h
    · rintro new entry hnew (h | ⟨_ | _ | j, h⟩) _ _
      · cases h
      · cases hnew
        exact List.mem_singleton.mp h
      · cases h
      · cases h
    · rintro _ (_ | _ | j) hj entry h _
      · exact h
      · exact absurd rfl hj
      · cases h
  have hr := hm.runs rfl
  refine ⟨_, hr, @every_peer_told _ 1 .prompts ⟨"session:a", 1⟩ observedAgain toldAgain _ hr ?_ ?_
    ⟨rfl, 1, rfl⟩ (by decide)⟩
  · exact ⟨observedAgain.take 5, _, [], rfl, rfl, fun _ h => absurd h List.not_mem_nil⟩
  · intro e he
    simp only [toldAgain, List.mem_cons, List.not_mem_nil, or_false] at he
    rcases he with rfl | rfl
    · exact ⟨by simp [Ends], by simp [Refuses]⟩
    · exact ⟨by simp [Ends], by simp [Refuses]⟩

/-- A second call starts while the first one sends, and returns at once. -/
theorem peer_not_told : ∃ past during last s,
    Runs Step init (past ++ ((1, .notify .prompts), .silent) :: (during ++ [last])) s ∧
    Since (Observes ⟨"session:a", 1⟩) (Refuses 1) past ∧
    (∀ e ∈ during, ¬ Ends 1 e ∧ ¬ Refuses 1 e) ∧ last = ((1, .take), .notified 0) ∧
    s.shared.closed = ∅ ∧ ¬ ∃ e ∈ during ++ [last], Sends 1 .prompts ⟨"session:a", 1⟩ e := by
  have hr := @Machine.runs_of_execute _ _ _ program.machine init _
    [(0, .observe (session 1 "a")), (0, .record), (0, .notify .tools), (0, .take),
      (1, .notify .prompts), (1, .take)] _ rfl
  refine ⟨observedAgain.take 4, [], _, _, hr, ?_, fun _ h => absurd h List.not_mem_nil, rfl, rfl, ?_⟩
  · refine ⟨[_], _, [_, _], rfl, rfl, ?_⟩
    rintro e he ⟨kind, entry, hfail, _⟩
    simp only [List.mem_cons, List.not_mem_nil, or_false] at he
    rcases he with rfl | rfl <;> cases hfail
  · rintro ⟨e, he, _, hsent⟩
    rw [List.nil_append, List.mem_singleton] at he
    rw [he] at hsent
    cases hsent

end RustMcpCore.ClientNotificationHub
