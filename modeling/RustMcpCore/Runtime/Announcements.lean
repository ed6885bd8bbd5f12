import RustMcpCore.Runtime.RegistryEvents

/-! # What is announced

The feature of an event is owed from the moment the event is sent until a timer
removes it: the event is unread, or the worker has it in hand, or the feature is
pending. An overwritten event is made up for by anything else that owes its feature.
-/
namespace RustMcpCore.RegistryEvents
open Library
variable {s t : State} {e : Event} {feature : ListFeature} {reloadState : ReloadState}

/-- The worker has received an event of the feature and not yet inserted it. -/
def InHand (s : State) (feature : ListFeature) : Prop :=
  s.received.map featureOf = some feature ∨
    (s.listChanged.calls workerCall).map (·.feature) = some feature

def Unread (s : State) (feature : ListFeature) : Prop :=
  ∃ event ∈ s.channel.unread, featureOf event = feature

def Owed (s : State) (feature : ListFeature) : Prop :=
  Unread s feature ∨ InHand s feature ∨ feature ∈ s.listChanged.pending

/-- The feature of an event that is overwritten is owed all the same. -/
def KeepsOwed (s : State) (e : Event) : Prop :=
  ∀ event lost, sends e = some event → s.channel.overwritten = some lost →
    Owed { s with channel := s.channel.send event } (featureOf lost)

def Overwrites (s : State) (e : Event) : Prop :=
  (sends e).isSome ∧ s.channel.overwritten.isSome

theorem unread_send {channel : Channel} {e other : RegistryEvent}
    (h : other ∈ channel.unread) : other ∈ (channel.send e).unread ∨ channel.overwritten = some other := by
  unfold Channel.send Channel.overwritten
  split
  · exact .inl (List.mem_append_left _ h)
  · cases hunread : channel.unread with
    | nil =>
      rw [hunread] at h
      cases h
    | cons first rest =>
      rw [hunread] at h
      rcases List.mem_cons.mp h with rfl | h
      · exact .inr rfl
      · exact .inl (List.mem_append_left _ h)

theorem mem_send (channel : Channel) (event : RegistryEvent) :
    event ∈ (channel.send event).unread := by
  unfold Channel.send
  split <;> exact List.mem_append_right _ List.mem_cons_self

/-- What the schedule call of the worker has in hand comes to the pending set. -/
theorem step_inHand {l : ListChanged.Label} {o : ListChanged.Output}
    (he : ListChanged.Step s.listChanged (l, o) t.listChanged) (hsame : t.received = s.received)
    (hon : s.listChanged.enabled feature = true) (h : InHand s feature) :
    InHand t feature ∨ feature ∈ t.listChanged.pending := by
  rcases h with h | h
  · exact .inl (.inl (hsame ▸ h))
  · obtain ⟨call, hcall, rfl⟩ := Option.map_eq_some_iff.mp h
    by_cases hown : l.call = some workerCall
    · cases call with
      | started feature =>
        have hnext := (ListChanged.step_started he hown hcall).2
        have hon' : s.listChanged.enabled feature = true := hon
        rw [if_pos hon'] at hnext
        exact .inl (.inr (by rw [hnext]; rfl))
      | enabled feature => exact .inr (ListChanged.step_enabled he hown hcall).2.1
    · have hkept := ListChanged.step_call_other he hown hcall
      exact .inl (.inr (by rw [hkept]; rfl))

theorem scheduled_inHand {event : RegistryEvent} {o : ListChanged.Output}
    {u : ListChanged.State} (holding : s.received = some event)
    (inner : ListChanged.Step s.listChanged (.schedule workerCall (featureOf event), o) u)
    (h : InHand s feature) : InHand { s with listChanged := u, received := none } feature := by
  obtain ⟨hfree, hcall, _⟩ := ListChanged.step_schedules inner
  rcases h with h | h
  · rw [holding] at h
    cases h
    refine .inr ?_
    rw [hcall]
    rfl
  · rw [hfree] at h
    cases h

/-- A feature that is owed stays so until a timer removes it. -/
theorem step_owed (he : Step s e t) (hkeeps : KeepsOwed s e) (halive : s.listChanged.alive = true)
    (hon : s.listChanged.enabled feature = true) (h : Owed s feature) :
    Owed t feature ∨ ∃ i, e = (.listChanged (.remove i), .listChanged (.removed feature)) := by
  cases step_change he with
  | listChanged l o shown inner other after =>
    have hchannel : t.channel = s.channel := by rw [after]
    have hreceived : t.received = s.received := by rw [after]
    rcases h with h | h | h
    · refine .inl (.inl ?_)
      unfold Unread
      rwa [hchannel]
    · exact .inl (.inr (step_inHand inner hreceived hon h))
    · rcases ListChanged.step_pending inner h with h | ⟨i, h⟩
      · exact .inl (.inr (.inr h))
      · cases h
        exact .inr ⟨i, shown⟩
  | unsent _ _ _ _ after =>
    rw [after]
    exact .inl h
  | sent event shown after =>
    rw [after]
    rcases h with ⟨other, hmem, rfl⟩ | h
    · rcases unread_send (e := event) hmem with hin | hlost
      · exact .inl (.inl ⟨other, hin, rfl⟩)
      · exact .inl (hkeeps event other shown hlost)
    · exact .inl (.inr h)
  | lagged _ _ _ _ after =>
    rw [after]
    exact .inl h
  | received _ event rest waiting free _ first after =>
    rw [after]
    rcases h with ⟨other, hmem, rfl⟩ | h | h
    · rw [first] at hmem
      rcases List.mem_cons.mp hmem with rfl | hmem
      · exact .inl (.inr (.inl (.inl rfl)))
      · exact .inl (.inl ⟨other, hmem, rfl⟩)
    · rcases h with h | h
      · rw [waiting] at h
        cases h
      · rw [free] at h
        cases h
    · exact .inl (.inr (.inr h))
  | scheduled event shown holding inner after =>
    rw [after]
    rcases h with h | h | h
    · exact .inl (.inl h)
    · exact .inl (.inr (.inl (scheduled_inHand holding inner h)))
    · rcases ListChanged.step_pending inner h with h | ⟨i, h⟩
      · exact .inl (.inr (.inr h))
      · cases h
  | stopped _ _ _ dead _ =>
    rw [halive] at dead
    cases dead

/-! ## The worker gets there -/

def WorkerEvent (e : Event) : Prop :=
  e.1 = .recv ∨ (∃ upgraded, e.1 = .upgrade upgraded) ∨
    ∃ l, e.1 = .listChanged l ∧ l.call = some workerCall

/-- How many steps the worker has to go before it receives again. -/
def stage (s : State) : ℕ :=
  match s.received, s.listChanged.calls workerCall with
  | some _, _ => 3
  | none, some (.started _) => 2
  | none, some (.enabled _) => 1
  | none, none => 0

def position (feature : ListFeature) (channel : Channel) : ℕ :=
  channel.unread.findIdx fun event => featureOf event = feature

def lag (channel : Channel) : ℕ := if channel.skipped = 0 then 0 else 1

instance (s : State) (feature : ListFeature) : Decidable (InHand s feature) :=
  inferInstanceAs (Decidable (_ ∨ _))

def rank (feature : ListFeature) (s : State) : ℕ :=
  if InHand s feature then 2 * stage s
  else 10 * (position feature s.channel + 1) + 2 * stage s + lag s.channel

theorem stage_le (s : State) : stage s ≤ 3 := by
  unfold stage
  split <;> omega

theorem stage_inner {l : ListChanged.Label} {o : ListChanged.Output} (hs : Sound s)
    (he : ListChanged.Step s.listChanged (l, o) t.listChanged) (hsame : t.received = s.received)
    (hnew : ∀ c feature, l ≠ .schedule c feature) :
    stage t ≤ stage s ∧ (l.call = some workerCall → stage t < stage s) := by
  by_cases hown : l.call = some workerCall
  · suffices hlt : stage t < stage s from ⟨hlt.le, fun _ => hlt⟩
    cases hcall : s.listChanged.calls workerCall with
    | none => exact absurd ⟨_, _, he, hown⟩ (ListChanged.call_stopped hcall)
    | some call =>
      have hwaiting : s.received = none := by
        by_contra h
        rw [hs.waiting h] at hcall
        cases hcall
      cases call with
      | started feature =>
        have hnext := (ListChanged.step_started he hown hcall).2
        unfold stage
        rw [hsame, hwaiting, hcall, hnext]
        by_cases hon : s.listChanged.enabled feature = true
        · rw [if_pos hon]
          exact Nat.one_lt_two
        · rw [if_neg hon]
          exact Nat.zero_lt_two
      | enabled feature =>
        have hnext := (ListChanged.step_enabled he hown hcall).2.2
        unfold stage
        rw [hsame, hwaiting, hcall, hnext]
        exact Nat.zero_lt_one
  · have hkept := ListChanged.step_calls_other he hown (hnew workerCall)
    unfold stage
    rw [hsame, hkept]
    exact ⟨le_rfl, fun h => absurd h hown⟩

/-- A feature that is in hand ranks by the stage alone, so coming into hand never
makes up for a stage that goes up. -/
theorem rank_add_stage (h : InHand s feature → InHand t feature)
    (hposition : position feature t.channel = position feature s.channel)
    (hlag : lag t.channel = lag s.channel) :
    rank feature t + 2 * stage s ≤ rank feature s + 2 * stage t := by
  unfold rank
  rw [hposition, hlag]
  by_cases hs : InHand s feature
  · rw [if_pos hs, if_pos (h hs)]
    omega
  · rw [if_neg hs]
    split <;> omega

theorem rank_lt_of_inHand (hstage : stage t < stage s) (h : InHand s feature → InHand t feature)
    (hposition : position feature t.channel = position feature s.channel)
    (hlag : lag t.channel = lag s.channel) : rank feature t < rank feature s := by
  have hsum := rank_add_stage h hposition hlag
  omega

theorem rank_le_of_inHand (hstage : stage t ≤ stage s) (h : InHand s feature → InHand t feature)
    (hposition : position feature t.channel = position feature s.channel)
    (hlag : lag t.channel = lag s.channel) : rank feature t ≤ rank feature s := by
  have hsum := rank_add_stage h hposition hlag
  omega

theorem position_send {channel : Channel} {e : RegistryEvent}
    (hfree : channel.overwritten = none)
    (h : ∃ event ∈ channel.unread, featureOf event = feature) :
    position feature (channel.send e) = position feature channel ∧
      lag (channel.send e) = lag channel := by
  unfold Channel.overwritten at hfree
  unfold Channel.send
  split
  · refine ⟨?_, rfl⟩
    obtain ⟨event, hmem, hfeature⟩ := h
    have hlt : channel.unread.findIdx (fun event => featureOf event = feature) <
        channel.unread.length := List.findIdx_lt_length_of_exists ⟨event, hmem, by simp [hfeature]⟩
    unfold position
    rw [List.findIdx_append, if_pos hlt]
  · rename_i hfull
    rw [if_neg hfull, List.head?_eq_none_iff] at hfree
    rw [hfree] at hfull
    exact absurd (by decide) hfull

theorem not_inHand (hwaiting : s.received = none)
    (hfree : s.listChanged.calls workerCall = none) (feature : ListFeature) :
    ¬ InHand s feature := by
  unfold InHand
  rw [hwaiting, hfree]
  simp

theorem sends_worker (he : WorkerEvent e) : sends e = none := by
  obtain ⟨l, o⟩ := e
  rcases he with h | ⟨_, h⟩ | ⟨_, h, _⟩ <;> cases h <;> rfl

/-- The event that is received is the one that is waited for, or one before it. -/
theorem rank_received {event : RegistryEvent} (hwaiting : s.received = none)
    (hfree : s.listChanged.calls workerCall = none)
    (hfirst : s.channel.unread = event :: t.channel.unread)
    (hskipped : t.channel.skipped = s.channel.skipped) (hreceived : t.received = some event) :
    rank feature t < rank feature s := by
  have hstage : stage s = 0 := by
    unfold stage
    rw [hwaiting, hfree]
  have ht := stage_le t
  have hlag : lag t.channel = lag s.channel := by
    unfold lag
    rw [hskipped]
  unfold rank
  rw [if_neg (not_inHand hwaiting hfree feature), hstage, hlag]
  by_cases hhand : InHand t feature
  · rw [if_pos hhand]
    omega
  · have hne : featureOf event ≠ feature := by
      rintro rfl
      exact hhand (.inl (by rw [hreceived]; rfl))
    have hposition : position feature s.channel = position feature t.channel + 1 := by
      unfold position
      rw [hfirst, List.findIdx_cons]
      simp [hne]
    rw [if_neg hhand, hposition]
    omega

/-- With nothing overwritten, a step brings a feature that the worker owes to the
pending set, or brings it no further away, and a step of the worker brings it nearer. -/
theorem step_rank (hs : Sound s) (he : Step s e t) (halive : s.listChanged.alive = true)
    (hon : s.listChanged.enabled feature = true) (hcalm : ¬ Overwrites s e)
    (h : InHand s feature ∨ Unread s feature) : feature ∈ t.listChanged.pending ∨
      ((InHand t feature ∨ Unread t feature) ∧ rank feature t ≤ rank feature s ∧
        (WorkerEvent e → rank feature t < rank feature s)) := by
  cases step_change he with
  | listChanged l o shown inner other after =>
    have hreceived : t.received = s.received := by rw [after]
    have hchannel : t.channel = s.channel := by rw [after]
    by_cases hpending : feature ∈ t.listChanged.pending
    · exact .inl hpending
    · have hhand : InHand s feature → InHand t feature := fun h =>
        (step_inHand inner hreceived hon h).resolve_right hpending
      obtain ⟨hle, hlt⟩ := stage_inner hs inner hreceived other
      refine .inr ⟨h.imp hhand fun h => ?_, rank_le_of_inHand hle hhand (by rw [hchannel])
        (by rw [hchannel]), fun hw => ?_⟩
      · unfold Unread
        rwa [hchannel]
      · rw [shown] at hw
        rcases hw with hw | ⟨_, hw⟩ | ⟨l', hl, hown⟩
        · cases hw
        · cases hw
        · cases hl
          exact rank_lt_of_inHand (hlt hown) hhand (by rw [hchannel]) (by rw [hchannel])
  | unsent registry operation call silent after =>
    rw [after]
    refine .inr ⟨h, le_rfl, fun hw => ?_⟩
    unfold WorkerEvent at hw
    rw [call] at hw
    rcases hw with hw | ⟨_, hw⟩ | ⟨_, hw, _⟩ <;> cases hw
  | sent event shown after =>
    have hfree : s.channel.overwritten = none := by
      by_contra hfull
      exact hcalm ⟨by rw [shown]; rfl, Option.isSome_iff_ne_none.mpr hfull⟩
    refine .inr ⟨?_, ?_, fun hw => absurd shown (sends_worker hw ▸ by simp)⟩
    · rw [after]
      refine h.imp id ?_
      rintro ⟨other, hmem, hfeature⟩
      rcases unread_send (e := event) hmem with hin | hlost
      · exact ⟨other, hin, hfeature⟩
      · rw [hfree] at hlost
        cases hlost
    · have hstage : stage t = stage s := by rw [after]; rfl
      have hsame : InHand t feature ↔ InHand s feature := by rw [after]; exact Iff.rfl
      by_cases hhand : InHand s feature
      · unfold rank
        rw [if_pos hhand, if_pos (hsame.mpr hhand), hstage]
      · obtain ⟨hposition, hlag⟩ := position_send (e := event) hfree (h.resolve_left hhand)
        exact rank_le_of_inHand hstage.le hsame.mpr (by rw [after, hposition]) (by rw [after, hlag])
  | lagged call waiting free behind after =>
    have hhand := not_inHand waiting free feature
    have hhand' : ¬ InHand t feature := by rw [after]; exact hhand
    have hstage : stage t = stage s := by rw [after]; rfl
    have hposition : position feature t.channel = position feature s.channel := by rw [after]; rfl
    have hlag : lag s.channel = 1 := if_neg behind.ne'
    have hlag' : lag t.channel = 0 := by rw [after]; rfl
    have hlt : rank feature t < rank feature s := by
      unfold rank
      rw [if_neg hhand, if_neg hhand', hstage, hposition, hlag, hlag']
      omega
    rw [after] at hlt ⊢
    exact .inr ⟨h, hlt.le, fun _ => hlt⟩
  | received call event rest waiting free level first after =>
    obtain ⟨other, hmem, hfeature⟩ := h.resolve_left (not_inHand waiting free feature)
    have hlt : rank feature t < rank feature s :=
      rank_received waiting free (by rw [after]; exact first) (by rw [after]) (by rw [after])
    rw [after] at hlt ⊢
    refine .inr ⟨?_, hlt.le, fun _ => hlt⟩
    rw [first] at hmem
    rcases List.mem_cons.mp hmem with rfl | hmem
    · exact .inl (.inl (congrArg some hfeature))
    · exact .inr ⟨other, hmem, hfeature⟩
  | scheduled event shown holding inner after =>
    obtain ⟨_, hcall, _⟩ := ListChanged.step_schedules inner
    have hstage : stage t < stage s := by
      rw [after]
      unfold stage
      rw [holding, hcall]
      exact Nat.lt_succ_self 2
    have hhand : InHand s feature → InHand t feature := fun h => by
      rw [after]
      exact scheduled_inHand holding inner h
    have hlt := rank_lt_of_inHand hstage hhand (by rw [after]) (by rw [after])
    refine .inr ⟨h.imp hhand fun h => ?_, hlt.le, fun _ => hlt⟩
    rw [after]
    exact h
  | stopped _ _ _ dead _ =>
    rw [halive] at dead
    cases dead

theorem worker_enabled (hs : Sound s) (halive : s.listChanged.alive = true)
    (h : InHand s feature ∨ Unread s feature) : Enabled Step WorkerEvent s := by
  cases hreceived : s.received with
  | some event =>
    have hfree := hs.waiting (by rw [hreceived]; exact Option.some_ne_none _)
    exact ⟨(.upgrade true, .scheduling event), _,
      by simp only [Step, next, hreceived, ListChanged.next, hfree]; rfl, .inr (.inl ⟨true, rfl⟩)⟩
  | none =>
    cases hcall : s.listChanged.calls workerCall with
    | some call =>
      cases call with
      | started other =>
        exact ⟨(.listChanged (.readEnabled workerCall), _), _,
          by simp only [Step, next, ListChanged.next, hcall]; rfl, .inr (.inr ⟨_, rfl, rfl⟩)⟩
      | enabled other =>
        exact ⟨(.listChanged (.insert workerCall), _), _,
          by simp only [Step, next, ListChanged.next, hcall]; rfl, .inr (.inr ⟨_, rfl, rfl⟩)⟩
    | none =>
      obtain ⟨event, hmem, _⟩ := h.resolve_left (not_inHand hreceived hcall feature)
      have hidle : (s.stopped || s.received.isSome ||
          (s.listChanged.calls workerCall).isSome) = false := by
        rw [hs.running halive, hreceived, hcall]
        rfl
      by_cases hbehind : 0 < s.channel.skipped
      · exact ⟨(.recv, .lagged s.channel.skipped), _,
          by simp only [Step, next, hidle, if_pos hbehind]; rfl, .inl rfl⟩
      · cases hunread : s.channel.unread with
        | nil =>
          rw [hunread] at hmem
          cases hmem
        | cons first rest =>
          exact ⟨(.recv, .received first), _,
            by simp only [Step, next, hidle, if_neg hbehind, hunread]; rfl, .inl rfl⟩

/-- A worker and timers that can go on do so. -/
structure Fair (x : Execution Step) : Prop where
  worker : x.WeaklyFair WorkerEvent
  timers : ∀ i, x.WeaklyFair fun e => ∃ l, e.1 = .listChanged l ∧ l.timer = some i

section Executions
variable {x : Execution Step} {n i : ℕ}

theorem execution_sound (hinit : Sound (x.state 0)) (n : ℕ) : Sound (x.state n) := by
  refine Execution.always (I := Sound) hinit ?_ n (Nat.zero_le n)
  exact fun m e _ he hs => step_sound hs (x.step m e he)

/-- What an execution is for the pending set and the timers. -/
def innerEvent (e : Event) : Option ListChanged.Event :=
  match e with
  | (.listChanged l, .listChanged o) => some (l, o)
  | (.upgrade true, .scheduling event) => some (.schedule workerCall (featureOf event), .silent)
  | _ => none

theorem step_inner (he : Step s e t) :
    (∀ f, innerEvent e = some f → ListChanged.Step s.listChanged f t.listChanged) ∧
      (innerEvent e = none → t.listChanged = s.listChanged) := by
  have silent : innerEvent e = none → t.listChanged = s.listChanged →
      (∀ f, innerEvent e = some f → ListChanged.Step s.listChanged f t.listChanged) ∧
        (innerEvent e = none → t.listChanged = s.listChanged) := by
    intro hnone hsame
    refine ⟨fun f hf => ?_, fun _ => hsame⟩
    rw [hnone] at hf
    cases hf
  obtain ⟨l, o⟩ := e
  cases step_change he with
  | listChanged l o shown inner other after =>
    cases shown
    exact ⟨fun f hf => by cases hf; exact inner, fun h => by cases h⟩
  | scheduled event shown holding inner after =>
    cases shown
    exact ⟨fun f hf => by cases hf; exact inner, fun h => by cases h⟩
  | unsent registry operation call _ after =>
    cases call
    exact silent rfl (by rw [after])
  | sent event shown after =>
    refine silent ?_ (by rw [after])
    cases l with
    | operate registry operation => rfl
    | listChanged | recv | upgrade => cases shown
  | lagged call waiting free behind after =>
    cases call
    exact silent rfl (by rw [after])
  | received call event rest waiting free level first after =>
    cases call
    exact silent rfl (by rw [after])
  | stopped call _ _ dead after =>
    cases call
    exact silent rfl (by rw [after])

theorem step_listChanged {l : ListChanged.Label} {o : ListChanged.Output} {u : ListChanged.State}
    (he : ListChanged.Step s.listChanged (l, o) u) (hl : ∀ c feature, l ≠ .schedule c feature) :
    Step s (.listChanged l, .listChanged o) { s with listChanged := u } := by
  cases l with
  | schedule c feature => exact absurd rfl (hl c feature)
  | _ =>
    exact congrArg (Option.map fun r => ({ s with listChanged := r.1 }, Output.listChanged r.2)) he

theorem step_sends {event : RegistryEvent} (he : Step s e t) (h : sends e = some event) :
    event ∈ t.channel.unread := by
  cases step_change he with
  | sent other shown after =>
    rw [h] at shown
    cases shown
    rw [after]
    exact mem_send _ _
  | unsent _ _ _ silent =>
    rw [h] at silent
    cases silent
  | listChanged _ _ shown | scheduled _ shown =>
    rw [shown] at h
    cases h
  | lagged call | received call | stopped call =>
    obtain ⟨l, o⟩ := e
    cases call
    cases h

def inner (x : Execution Step) : Execution ListChanged.Step :=
  x.map (·.listChanged) innerEvent (fun n e f he hf => (step_inner (x.step n e he)).1 f hf)
    (fun n e he h => (step_inner (x.step n e he)).2 h)

theorem inner_event {l : ListChanged.Label} {o : ListChanged.Output}
    (h : (inner x).event n = some (l, o)) (hl : ∀ c feature, l ≠ .schedule c feature) :
    x.event n = some (.listChanged l, .listChanged o) := by
  obtain ⟨e, he, hf⟩ := Option.bind_eq_some_iff.mp h
  unfold innerEvent at hf
  split at hf <;> cases hf
  · exact he
  · exact absurd rfl (hl _ _)

theorem inner_fair (hfair : Fair x) (i : ℕ) :
    (inner x).WeaklyFair fun e => e.1.timer = some i := by
  refine (hfair.timers i).map ?_ ?_
  · rintro n ⟨⟨l, o⟩, u, he, hl⟩
    have hother : ∀ c feature, l ≠ .schedule c feature := by
      rintro c feature rfl
      cases hl
    exact ⟨_, _, step_listChanged he hother, l, rfl, hl⟩
  · rintro n ⟨l', o⟩ he ⟨l, rfl, hl⟩
    cases step_change (x.step n _ he) with
    | listChanged l o shown =>
      cases shown
      exact ⟨_, rfl, hl⟩
    | sent _ shown => cases shown
    | unsent _ _ call | lagged call | received call | stopped call => cases call
    | scheduled _ shown => cases shown

/-- From a position at which a feature is owed, a timer comes to remove it. -/
theorem owed_removed (hfair : Fair x) (hinit : Sound (x.state 0))
    (halive : ∀ n, (x.state n).listChanged.alive = true)
    (hcalm : ∀ m e, n ≤ m → x.event m = some e → ¬ Overwrites (x.state m) e)
    (hon : ∀ m, n ≤ m → (x.state m).listChanged.enabled feature = true)
    (hn : Owed (x.state n) feature) : ∃ m i, n ≤ m ∧
      x.event m = some (.listChanged (.remove i), .listChanged (.removed feature)) := by
  have hpending : ∃ m, n ≤ m ∧ feature ∈ (x.state m).listChanged.pending := by
    rcases or_assoc.mpr hn with h | h
    · obtain ⟨m, e, hm, _, _, hin⟩ := Execution.leadsTo hfair.worker
        (fun s => InHand s feature ∨ Unread s feature) (rank feature)
        (fun m _ => feature ∈ (x.state (m + 1)).listChanged.pending) h.symm
        (fun m _ hP => worker_enabled (execution_sound hinit m) (halive m) hP)
        (fun m e hm he hP => step_rank (execution_sound hinit m) (x.step m e he) (halive m)
          (hon m hm) (hcalm m e hm he) hP)
      exact ⟨m + 1, Nat.le_succ_of_le hm, hin⟩
    · exact ⟨n, le_rfl, h⟩
  obtain ⟨m, hm, hin⟩ := hpending
  obtain ⟨i, hi⟩ := (execution_sound hinit m).timers.owed (halive m) feature hin
  obtain ⟨k, hk, he⟩ := ListChanged.removed_follows (x := inner x) (inner_fair hfair i)
    hinit.timers halive hi
  exact ⟨k, i, hm.trans hk, inner_event he (by simp)⟩

/-- Up to any later position a feature that is owed has been removed, or it still is owed. -/
theorem owed_until (halive : ∀ n, (x.state n).listChanged.alive = true)
    (hkeeps : ∀ m e, x.event m = some e → KeepsOwed (x.state m) e)
    (hon : ∀ m, n ≤ m → (x.state m).listChanged.enabled feature = true)
    (hn : Owed (x.state n) feature) {m : ℕ} (hm : n ≤ m) : Owed (x.state m) feature ∨
      ∃ k i, n ≤ k ∧
        x.event k = some (.listChanged (.remove i), .listChanged (.removed feature)) := by
  induction m, hm using Nat.le_induction with
  | base => exact .inl hn
  | succ m hm ih =>
    rcases ih with h | h
    · cases he : x.event m with
      | none => exact .inl (x.idle m he ▸ h)
      | some e =>
        rcases step_owed (x.step m e he) (hkeeps m e he) (halive m) (hon m hm) h with h | ⟨i, h⟩
        · exact .inl h
        · exact .inr ⟨m, i, hm, h ▸ he⟩
    · exact .inr h

/-- In every execution in which an overwritten event leaves its feature owed and the
overwriting comes to an end, every operation that sends an event is followed by a flush
of its feature, which notifies. -/
theorem changes_announced (hinit : x.state 0 = init reloadState) (hfair : Fair x)
    (halive : ∀ n, (x.state n).listChanged.alive = true)
    (hkeeps : ∀ m e, x.event m = some e → KeepsOwed (x.state m) e)
    (hcalm : ∃ calm, ∀ m e, calm ≤ m → x.event m = some e → ¬ Overwrites (x.state m) e)
    {event : RegistryEvent} (hn : (x.event n).bind sends = some event)
    (hon : ∀ m, n ≤ m → (x.state m).listChanged.enabled (featureOf event) = true) :
    ∃ m k i, n < m ∧ m < k ∧
      x.event m = some (.listChanged (.remove i), .listChanged (.removed (featureOf event))) ∧
      x.event k = some (.listChanged (.notify i), .listChanged (.notified (featureOf event))) := by
  have hsound : Sound (x.state 0) := hinit ▸ init_sound
  have hon' : ∀ m, n + 1 ≤ m → (x.state m).listChanged.enabled (featureOf event) = true :=
    fun m hm => hon m (Nat.le_of_succ_le hm)
  have howed : Owed (x.state (n + 1)) (featureOf event) := by
    obtain ⟨e, he, hsends⟩ := Option.bind_eq_some_iff.mp hn
    exact .inl ⟨event, step_sends (x.step n e he) hsends, rfl⟩
  obtain ⟨calm, hcalm⟩ := hcalm
  have hremoved : ∃ m i, n + 1 ≤ m ∧
      x.event m = some (.listChanged (.remove i), .listChanged (.removed (featureOf event))) := by
    rcases owed_until halive hkeeps hon' howed (le_max_left (n + 1) calm) with h | ⟨k, i, hk⟩
    · obtain ⟨m, i, hm, he⟩ := owed_removed hfair hsound halive
        (fun m e hm => hcalm m e ((le_max_right _ _).trans hm))
        (fun m hm => hon' m ((le_max_left _ _).trans hm)) h
      exact ⟨m, i, (le_max_left _ _).trans hm, he⟩
    · exact ⟨k, i, hk⟩
  obtain ⟨m, i, hm, he⟩ := hremoved
  have hinner : (inner x).event m = some (.remove i, .removed (featureOf event)) :=
    Option.bind_eq_some_iff.mpr ⟨_, he, rfl⟩
  obtain ⟨k, hk, hnotify⟩ := ListChanged.notified_follows (inner_fair hfair i) hsound.timers hinner
    (fun k hk => hon k ((Nat.le_of_succ_le hm).trans hk))
  exact ⟨m, k, i, hm, hk, he, inner_event hnotify (by simp)⟩

end Executions

theorem worker_stopped (hreceived : s.received = none)
    (hcall : s.listChanged.calls workerCall = none) (hchannel : s.channel = ⟨[], 0⟩) :
    ¬ Enabled Step WorkerEvent s := by
  rintro ⟨e, t, he, hw⟩
  cases step_change he with
  | listChanged l o shown inner =>
    cases shown
    rcases hw with hw | ⟨_, hw⟩ | ⟨l', hw, hown⟩ <;> cases hw
    exact ListChanged.call_stopped hcall ⟨_, _, inner, hown⟩
  | unsent _ _ call =>
    unfold WorkerEvent at hw
    rw [call] at hw
    rcases hw with hw | ⟨_, hw⟩ | ⟨_, hw, _⟩ <;> cases hw
  | sent _ shown =>
    rw [sends_worker hw] at shown
    cases shown
  | lagged _ _ _ behind =>
    rw [hchannel] at behind
    cases behind
  | received _ _ _ _ _ _ first =>
    rw [hchannel] at first
    cases first
  | scheduled _ _ holding =>
    rw [hreceived] at holding
    cases holding
  | stopped _ _ holding =>
    rw [hreceived] at holding
    cases holding

/-- An execution of the listed labels, in which nothing is left to do at the end. -/
theorem exists_execution {labels : List Label} {os : List Output}
    (h : (machine reloadState).execute (init reloadState) labels = some (t, os))
    (hreceived : t.received = none) (hcall : t.listChanged.calls workerCall = none)
    (hchannel : t.channel = ⟨[], 0⟩) (htimers : ∀ i, t.listChanged.timers i = none)
    (hdrop : .listChanged .dropRuntime ∉ labels)
    (hreload : ∀ state, .listChanged (.reload state) ∉ labels) :
    ∃ x : Execution Step, x.state 0 = init reloadState ∧ Fair x ∧
      (∀ n, (x.state n).listChanged.alive = true) ∧
      (∀ n, (x.state n).listChanged.runtime.reloadState = some reloadState) ∧
      ∀ n, x.event n = (labels.zip os)[n]? := by
  obtain ⟨x, hx, hevent, hend⟩ := Execution.exists_of_runs (Machine.runs_of_execute h)
  have hlabels : ∀ n e, x.event n = some e → e.1 ∈ labels := by
    intro n e he
    rw [hevent] at he
    exact (List.of_mem_zip (List.mem_of_getElem? he)).1
  have hinner : ∀ n e, (inner x).event n = some e → (∀ c feature, e.1 ≠ .schedule c feature) →
      .listChanged e.1 ∈ labels := by
    intro n e he hl
    exact hlabels n _ (inner_event he hl)
  have hinit : (inner x).state 0 = ListChanged.init reloadState := congrArg State.listChanged hx
  refine ⟨x, hx, ⟨?_, fun i => ?_⟩, ?_, ?_, hevent⟩
  · refine Execution.weaklyFair_of_stopped (n := (labels.zip os).length) fun m hm => ?_
    rw [hend m hm]
    exact worker_stopped hreceived hcall hchannel
  · refine Execution.weaklyFair_of_stopped (n := (labels.zip os).length) fun m hm => ?_
    rw [hend m hm]
    rintro ⟨e, u, he, l, hl, hi⟩
    cases step_change he with
    | listChanged l o shown step =>
      cases shown
      cases hl
      exact ListChanged.timer_stopped (htimers i) ⟨_, _, step, hi⟩
    | sent _ shown =>
      obtain ⟨_, o⟩ := e
      cases hl
      cases shown
    | unsent _ _ call | lagged call | received call | stopped call =>
      rw [hl] at call
      cases call
    | scheduled _ shown =>
      rw [shown] at hl
      cases hl
  · refine ListChanged.execution_alive (x := inner x) (by rw [hinit]; rfl) ?_
    intro m e he hl
    exact hdrop (hl ▸ hinner m e he (by simp [hl]))
  · refine ListChanged.execution_reloadState (x := inner x) (by rw [hinit]; rfl) ?_
    intro m e state he hl
    exact hreload state (hl ▸ hinner m e he (by simp [hl]))

/-- A clone with a prompt plugin and a tool plugin. -/
def clone : PluginRegistry where
  plugins
    | .prompt => (∅ : HashMap String Plugin).insert "prompt" ⟨"prompt", 0⟩
    | .tool => (∅ : HashMap String Plugin).insert "tool" ⟨"tool", 0⟩
    | _ => ∅
  allNames := {"prompt", "tool"}

def changePrompt : Label := .operate clone (.replacePrompt ⟨"prompt", 0⟩)

def announcedChange : List Label :=
  [changePrompt, .recv, .upgrade true, .listChanged (.readEnabled workerCall),
    .listChanged (.insert workerCall), .listChanged (.wake 0 true), .listChanged (.remove 0),
    .listChanged (.readEngine 0), .listChanged (.notify 0)]

theorem changes_announced_prompt : ∃ (x : Execution Step) (m k i : ℕ), Fair x ∧
    (x.event 0).bind sends = some .promptChanged ∧ 0 < m ∧ m < k ∧
    x.event m = some (.listChanged (.remove i), .listChanged (.removed .prompts)) ∧
    x.event k = some (.listChanged (.notify i), .listChanged (.notified .prompts)) := by
  obtain ⟨x, hx, hfair, halive, hstate, hevent⟩ :=
    @exists_execution _ ListChanged.promptsAnnounced announcedChange _ rfl rfl rfl rfl
      (fun i => by cases i <;> rfl) (by simp [announcedChange, changePrompt])
      (by simp [announcedChange, changePrompt])
  have hfirst : (x.event 0).bind sends = some .promptChanged := by
    rw [hevent]
    rfl
  have hcalm : ∀ m e, x.event m = some e → (x.state m).channel.overwritten = none ∨
      sends e = none := by
    intro m e he
    rcases m with _ | m
    · rw [hx]
      exact .inl rfl
    · rw [hevent] at he
      obtain ⟨hl, _⟩ := List.getElem?_zip_eq_some.mp he
      have hmem := List.mem_of_getElem? (l := announcedChange.tail) hl
      obtain ⟨l, o⟩ := e
      right
      cases l with
      | operate registry operation => simp [announcedChange] at hmem
      | listChanged | recv | upgrade => rfl
  have hon : ∀ m, 0 ≤ m → (x.state m).listChanged.enabled .prompts = true := by
    intro m _
    unfold ListChanged.State.enabled
    rw [hstate]
    rfl
  have hkeeps : ∀ m e, x.event m = some e → KeepsOwed (x.state m) e := by
    intro m e he event lost hsends hlost
    rcases hcalm m e he with h | h
    · rw [h] at hlost
      cases hlost
    · rw [h] at hsends
      cases hsends
  have hquiet : ∀ m e, 0 ≤ m → x.event m = some e → ¬ Overwrites (x.state m) e := by
    rintro m e _ he ⟨hsends, hfull⟩
    rcases hcalm m e he with h | h
    · rw [h] at hfull
      cases hfull
    · rw [h] at hsends
      cases hsends
  obtain ⟨m, k, i, h⟩ := changes_announced hx hfair halive hkeeps ⟨0, hquiet⟩ hfirst hon
  exact ⟨x, m, k, i, hfair, hfirst, h⟩

/-- One change of a prompt, and so many of a tool that the channel overwrites it. -/
def burst : List Label :=
  changePrompt :: List.replicate 64 (.operate clone (.replaceTool ⟨"tool", 0⟩))

/-- The worker is told that it lags, and goes on with what is left. -/
def catchUp : List Label :=
  .recv :: (List.replicate 64
    [.recv, .upgrade true, .listChanged (.readEnabled workerCall)]).flatten

set_option maxRecDepth 10000 in
/-- Prompts are enabled all the time, and no flush follows. -/
theorem change_unannounced : ∃ x : Execution Step,
    x.state 0 = init ListChanged.promptsAnnounced ∧ Fair x ∧
    (∀ n, (x.state n).listChanged.alive = true) ∧
    (∀ n, (x.state n).listChanged.enabled .prompts = true) ∧
    (x.event 0).bind sends = some .promptChanged ∧
    ∀ m i o, x.event m ≠ some (.listChanged (.remove i), o) := by
  obtain ⟨x, hx, hfair, halive, hstate, hevent⟩ :=
    @exists_execution _ ListChanged.promptsAnnounced (burst ++ catchUp) _ rfl rfl rfl rfl
      (fun i => rfl) (by simp [burst, catchUp, changePrompt])
      (by simp [burst, catchUp, changePrompt])
  refine ⟨x, hx, hfair, halive, ?_, ?_, ?_⟩
  · intro m
    unfold ListChanged.State.enabled
    rw [hstate]
    rfl
  · rw [hevent]
    rfl
  · intro m i o he
    rw [hevent] at he
    obtain ⟨hl, _⟩ := List.getElem?_zip_eq_some.mp he
    have hmem := List.mem_of_getElem? hl
    simp [burst, catchUp, changePrompt] at hmem

end RustMcpCore.RegistryEvents