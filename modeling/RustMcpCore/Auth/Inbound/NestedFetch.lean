import RustMcpCore.Auth.Inbound.CachedFetch
import RustMcpCore.Auth.Inbound.KeySource

/-! # One cache waiting for the other

Each of the two caches by itself runs as a cache of its own. A call that fetches keys has the lock
of the keys while it waits for the lock of the documents, and nobody waits the other way round.
-/
namespace RustMcpCore.Inbound
open Library Outbound

namespace CachedFetch
variable {V : Type*} {ttl : Int} {cache cache' : FetchCache V} {task task' : Option (Phase V)}
  {phase : Phase V} {action : Action V} {shown : Shown V} {i : ℕ}

/-- The same stretch, as one computes it. -/
theorem CallerStep.act_eq (h : CallerStep ttl cache task action cache' task' shown) :
    act ttl cache task action = some (cache', task', shown) := by
  cases h with
  | called | failed | answered | stored => rfl
  | hit _ _ found | missed _ found | hitInside _ _ found | missedInside _ found =>
    simp only [act, found]
  | acquired _ free =>
    simp only [act, free]
    rfl
  | dropped phase => cases phase <;> rfl

theorem CallerStep.alone (h : CallerStep ttl cache task action cache' task' shown) (i : ℕ) :
    Runs ((program ttl).Alone i) (cache, task) [(action, shown)] (cache', task') :=
  .single h.act_eq

/-- A lock that is taken has a holder. -/
theorem CallerStep.owned (h : CallerStep ttl cache task action cache' task' shown)
    (hlocked : cache'.locked = true) :
    task'.bind Phase.held = some () ∨ cache.locked = true ∧ task.bind Phase.held = none := by
  cases h with
  | called | hit | missed => exact .inr ⟨hlocked, rfl⟩
  | acquired | missedInside | answered => exact .inl rfl
  | hitInside | failed | stored => cases hlocked
  | dropped phase =>
    cases hheld : phase.held with
    | none =>
      rw [hheld] at hlocked
      exact .inr ⟨hlocked, hheld⟩
    | some =>
      rw [hheld] at hlocked
      cases hlocked

theorem reachable_owned {s : State V} (hs : (machine ttl).Reachable s)
    (hlocked : s.shared.locked = true) : ∃ i, (s.tasks i).bind Phase.held = some () := by
  obtain ⟨es, hr⟩ := hs
  refine hr.invariant (fun s => s.shared.locked = true → ∃ i, (s.tasks i).bind Phase.held = some ())
    ?_ ?_ hlocked
  · intro s e t hs he hlocked
    rcases (caller_step he).owned hlocked with hheld | ⟨hbefore, hfree⟩
    · exact ⟨e.1.1, hheld⟩
    · obtain ⟨i, hi⟩ := hs hbefore
      exact ⟨i, Program.step_bind_kept he hfree hi⟩
  · rintro ⟨⟩

end CachedFetch

/-! ## Each cache by itself -/

def Progress.phase {V F : Type*} : Progress (Call V F) V → Option (CachedFetch.Phase V)
  | .awaits call _ => some call.phase
  | .returned _ => none

/-- The call of `discovery` that the task is in. -/
def Task.discovery {K : Type*} : Task K → Option DiscoveryCall
  | .issuer call => some call
  | .jwks (.fetching (.resolving call)) => some call
  | .jwks (.fetching (.requesting _)) | .jwks (.cached _) => none

def Task.documentPhase {K : Type*} (task : Task K) :
    Option (CachedFetch.Phase DiscoveryDocument) :=
  task.discovery.map Call.phase

def Task.keyPhase {K : Type*} : Task K → Option (CachedFetch.Phase K)
  | .issuer _ => none
  | .jwks call => some call.phase

theorem fetched_alone {V F : Type*} {ttl : Int} (cache : FetchCache V) (value : Option V) (i : ℕ) :
    ∃ as, Runs ((CachedFetch.program ttl).Alone i) (cache, some .fetching) as
      ((fetched (F := F) cache value).1, (fetched (F := F) cache value).2.phase) := by
  cases value with
  | none => exact ⟨_, CachedFetch.CallerStep.failed.alone i⟩
  | some value => exact ⟨_, (CachedFetch.CallerStep.answered value).alone i⟩

namespace DiscoveringProvider
variable {K : Type*} {provider : DiscoveringProvider K} {now : DateTime} {action : Action}
  {caches caches' : Caches K} {task task' : Option (Task K)} {shown : Shown K}

theorem fetchDiscovery_alone (cache : FetchCache DiscoveryDocument) (urls : List String) (i : ℕ) :
    ∃ as, Runs ((CachedFetch.program DISCOVERY_TTL).Alone i) (cache, some .fetching) as
      ((provider.fetchDiscovery cache urls).1, (provider.fetchDiscovery cache urls).2.phase) := by
  cases urls with
  | nil => exact fetched_alone cache none i
  | cons => exact ⟨[], .refl _⟩

theorem DiscoveryStep.alone {cache : FetchCache DiscoveryDocument} {call : DiscoveryCall}
    {after : FetchCache DiscoveryDocument × Progress DiscoveryCall DiscoveryDocument}
    (h : provider.DiscoveryStep cache now call action after) (i : ℕ) :
    ∃ as, Runs ((CachedFetch.program DISCOVERY_TTL).Alone i) (cache, some call.phase) as
      (after.1, after.2.phase) := by
  cases h with
  | ends _ step | waits _ step => exact ⟨_, step.alone i⟩
  | begins _ step =>
    obtain ⟨as, hr⟩ := fetchDiscovery_alone _ provider.discoveryCandidates i
    exact ⟨_, (step.alone i).append hr⟩
  | refused => exact fetchDiscovery_alone cache _ i
  | found good => exact fetched_alone cache (some _) i

/-- What is left of a call of `jwks`. -/
def jwksTask : Progress (JwksCall K) K → Option (Task K)
  | .awaits call _ => some (.jwks call)
  | .returned _ => none

theorem JwksStep.documents_alone {call : JwksCall K} {after : Caches K × Progress (JwksCall K) K}
    (h : provider.JwksStep caches now call action after) (i : ℕ) :
    ∃ as, Runs ((CachedFetch.program DISCOVERY_TTL).Alone i)
      (caches.discovery, (Task.jwks call).documentPhase) as
      (after.1.discovery, (jwksTask after.2).bind Task.documentPhase) := by
  cases h with
  | ends | waits => exact ⟨[], .refl _⟩
  | begins =>
    unfold jwksUrl
    cases provider.config.jwksUrl with
    | some url => exact ⟨[], .refl _⟩
    | none => exact ⟨_, (CachedFetch.CallerStep.called now).alone i⟩
  | inside step => exact step.alone i
  | @resolved _ _ _ document step =>
    cases document.bind (·.jwksUri) with
    | none => exact step.alone i
    | some url => exact step.alone i
  | @answered _ answer =>
    cases successful provider.jwkSetFromSlice answer with
    | none => exact ⟨[], .refl _⟩
    | some keys => exact ⟨[], .refl _⟩

theorem JwksStep.keys_alone {call : JwksCall K} {after : Caches K × Progress (JwksCall K) K}
    (h : provider.JwksStep caches now call action after) (i : ℕ) :
    ∃ as, Runs ((CachedFetch.program JWKS_TTL).Alone i) (caches.jwks, some call.phase) as
      (after.1.jwks, (jwksTask after.2).bind Task.keyPhase) := by
  cases h with
  | ends _ step | waits _ step => exact ⟨_, step.alone i⟩
  | begins _ step =>
    unfold jwksUrl
    cases provider.config.jwksUrl with
    | some url => exact ⟨_, step.alone i⟩
    | none => exact ⟨_, step.alone i⟩
  | inside => exact ⟨[], .refl _⟩
  | @resolved _ _ _ document =>
    cases document.bind (·.jwksUri) with
    | none => exact fetched_alone (F := JwksFetch) caches.jwks none i
    | some url => exact ⟨[], .refl _⟩
  | @answered _ answer =>
    obtain ⟨as, hr⟩ := fetched_alone (F := JwksFetch) caches.jwks
      (successful provider.jwkSetFromSlice answer) i
    cases hgood : successful provider.jwkSetFromSlice answer with
    | none =>
      rw [hgood] at hr
      exact ⟨as, hr⟩
    | some keys =>
      rw [hgood] at hr
      exact ⟨as, hr⟩

theorem release_alone {V : Type*} {ttl : Int} (cache : FetchCache V)
    (phase : CachedFetch.Phase V) (i : ℕ) :
    ∃ as, Runs ((CachedFetch.program ttl).Alone i) (cache, some phase) as
      (CachedFetch.release cache phase, none) :=
  ⟨_, (CachedFetch.CallerStep.dropped phase).alone i⟩

theorem TaskStep.documents_alone (h : provider.TaskStep caches now task action caches' task' shown)
    (i : ℕ) :
    ∃ as, Runs ((CachedFetch.program DISCOVERY_TTL).Alone i)
      (caches.discovery, task.bind Task.documentPhase) as
      (caches'.discovery, task'.bind Task.documentPhase) := by
  cases h with
  | configured | jwksCalled => exact ⟨[], .refl _⟩
  | issuerCalled => exact ⟨_, (CachedFetch.CallerStep.called now).alone i⟩
  | dropped task =>
    cases task with
    | issuer call => exact release_alone _ call.phase i
    | jwks call =>
      cases call with
      | cached => exact ⟨[], .refl _⟩
      | fetching fetch =>
        cases fetch with
        | resolving call => exact release_alone _ call.phase i
        | requesting => exact ⟨[], .refl _⟩
  | issuerGoes step | issuerReturns step => exact step.alone i
  | jwksGoes step | jwksReturns step => exact step.documents_alone i

theorem TaskStep.keys_alone (h : provider.TaskStep caches now task action caches' task' shown)
    (i : ℕ) :
    ∃ as, Runs ((CachedFetch.program JWKS_TTL).Alone i)
      (caches.jwks, task.bind Task.keyPhase) as (caches'.jwks, task'.bind Task.keyPhase) := by
  cases h with
  | configured | issuerCalled | issuerGoes | issuerReturns => exact ⟨[], .refl _⟩
  | jwksCalled => exact ⟨_, (CachedFetch.CallerStep.called now).alone i⟩
  | dropped task =>
    cases task with
    | issuer call => exact ⟨[], .refl _⟩
    | jwks call => exact release_alone _ call.phase i
  | jwksGoes step | jwksReturns step => exact step.keys_alone i

/-! ## Runs of both -/

/-- The part of a state that is about one of the caches. -/
def view {V : Type*} (cache : Caches K → FetchCache V)
    (phase : Task K → Option (CachedFetch.Phase V)) (s : World (Caches K) (Task K)) :
    CachedFetch.State V :=
  ⟨cache s.shared, fun i => (s.tasks i).bind phase⟩

section View
variable {V : Type*} {ttl : Int} {cache : Caches K → FetchCache V}
  {phase : Task K → Option (CachedFetch.Phase V)} {s t : World (Caches K) (Task K)}
  {e : Event (DateTime × Action) (Shown K)}

theorem step_view (he : provider.machine.Step s e t)
    (halone : ∃ as, Runs ((CachedFetch.program ttl).Alone e.1.1)
      (cache s.shared, (s.tasks e.1.1).bind phase) as
      (cache t.shared, (t.tasks e.1.1).bind phase)) :
    ∃ es, Runs (CachedFetch.machine ttl).Step (view cache phase s) es (view cache phase t) := by
  obtain ⟨as, hr⟩ := halone
  have hworld := Program.runs_alone hr (view cache phase s).tasks
  have hbefore : Function.update (view cache phase s).tasks e.1.1 ((s.tasks e.1.1).bind phase) =
      (view cache phase s).tasks := Function.update_eq_self e.1.1 _
  have hafter : Function.update (view cache phase s).tasks e.1.1 ((t.tasks e.1.1).bind phase) =
      (view cache phase t).tasks := by
    funext i
    by_cases hi : i = e.1.1
    · subst hi
      exact Function.update_self _ _ _
    · rw [Function.update_of_ne hi]
      exact congrArg (·.bind phase) (Program.step_other he hi).symm
  rw [hbefore, hafter] at hworld
  exact ⟨_, hworld⟩

theorem reachable_view (hs : provider.machine.Reachable s)
    (hinit : cache ⟨⟨none, false⟩, ⟨none, false⟩⟩ = ⟨none, false⟩)
    (halone : ∀ s e t, provider.machine.Step s e t → ∃ as,
      Runs ((CachedFetch.program ttl).Alone e.1.1) (cache s.shared, (s.tasks e.1.1).bind phase) as
        (cache t.shared, (t.tasks e.1.1).bind phase)) :
    (CachedFetch.machine ttl).Reachable (view cache phase s) := by
  obtain ⟨es, hr⟩ := hs
  refine hr.invariant (fun s => (CachedFetch.machine ttl).Reachable (view cache phase s)) ?_ ?_
  · rintro s e t ⟨past, hpast⟩ he
    obtain ⟨more, hmore⟩ := step_view he (halone s e t he)
    exact ⟨_, hpast.append hmore⟩
  · refine ⟨[], ?_⟩
    have hstart : view cache phase provider.machine.init = (CachedFetch.machine ttl).init :=
      congrArg (fun c => World.mk c fun _ => none) hinit
    rw [hstart]
    exact .refl _

end View

variable {s : World (Caches K) (Task K)}

/-- The cache of documents runs by itself. -/
theorem reachable_documents (hs : provider.machine.Reachable s) :
    (AuthProvider.discovery DiscoveryDocument).Reachable
      (view Caches.discovery Task.documentPhase s) :=
  reachable_view hs rfl fun _ _ _ he => (act_step (Program.step_self he)).documents_alone _

/-- The cache of keys runs by itself. -/
theorem reachable_keys (hs : provider.machine.Reachable s) :
    (AuthProvider.jwks K).Reachable (view Caches.jwks Task.keyPhase s) :=
  reachable_view hs rfl fun _ _ _ he => (act_step (Program.step_self he)).keys_alone _

end DiscoveringProvider

/-! ## Who waits for whom -/

inductive Lock
  | documents
  | keys

namespace Task
variable {K : Type*}

def holds (task : Task K) : Lock → Prop
  | .documents => task.documentPhase.bind CachedFetch.Phase.held = some ()
  | .keys => task.keyPhase.bind CachedFetch.Phase.held = some ()

def waits (task : Task K) : Option Lock :=
  match task.documentPhase, task.keyPhase with
  | some .waiting, _ => some .documents
  | _, some .waiting => some .keys
  | _, _ => none

theorem waits_documents {task : Task K} :
    task.waits = some .documents ↔ task.documentPhase = some .waiting := by
  unfold waits
  split
  · rename_i hphase
    exact iff_of_true rfl hphase
  · rename_i hother
    exact iff_of_false (fun h => by cases h) hother
  · rename_i hother _
    exact iff_of_false (fun h => by cases h) hother

/-- A call that waits for the lock of the keys is in no call of `discovery`. -/
theorem waits_keys {task : Task K} (h : task.waits = some .keys) :
    task = .jwks (.cached .waiting) := by
  unfold waits at h
  split at h
  · cases h
  · rename_i hphase _
    cases task with
    | issuer => cases hphase
    | jwks call =>
      cases call with
      | cached phase =>
        cases hphase
        rfl
      | fetching => cases hphase
  · cases h

end Task

def Lock.rank : Lock → ℕ
  | .documents => 0
  | .keys => 1

theorem lock_ranked {K : Type*} {task : Task K} {v w : Lock} (hwaits : task.waits = some v)
    (hholds : task.holds w) : v.rank < w.rank := by
  cases v with
  | documents =>
    cases w with
    | keys => exact Nat.zero_lt_one
    | documents =>
      unfold Task.holds at hholds
      rw [Task.waits_documents.mp hwaits] at hholds
      cases hholds
  | keys =>
    rw [Task.waits_keys hwaits] at hholds
    cases w <;> cases hholds

def Caches.free {K : Type*} (caches : Caches K) : Lock → Prop
  | .documents => caches.discovery.locked = false
  | .keys => caches.jwks.locked = false

namespace DiscoveringProvider
variable {K : Type*} {provider : DiscoveringProvider K} {now : DateTime} {action : Action}
  {caches caches' : Caches K} {task task' : Option (Task K)} {shown : Shown K}
  {s t : World (Caches K) (Task K)} {e : Event (DateTime × Action) (Shown K)}

/-- A lock that nobody has is free. -/
theorem reachable_free (hs : provider.machine.Reachable s) {lock : Lock}
    (hnobody : ∀ i task, s.tasks i = some task → ¬ task.holds lock) : s.shared.free lock := by
  cases lock with
  | documents =>
    refine Bool.eq_false_of_not_eq_true fun hlocked => ?_
    obtain ⟨i, hheld⟩ := CachedFetch.reachable_owned (reachable_documents hs) hlocked
    obtain ⟨phase, hphase, hheld⟩ := Option.bind_eq_some_iff.mp hheld
    obtain ⟨task, htask, hphase⟩ := Option.bind_eq_some_iff.mp hphase
    refine hnobody i task htask ?_
    unfold Task.holds
    rw [hphase]
    exact hheld
  | keys =>
    refine Bool.eq_false_of_not_eq_true fun hlocked => ?_
    obtain ⟨i, hheld⟩ := CachedFetch.reachable_owned (reachable_keys hs) hlocked
    obtain ⟨phase, hphase, hheld⟩ := Option.bind_eq_some_iff.mp hheld
    obtain ⟨task, htask, hphase⟩ := Option.bind_eq_some_iff.mp hphase
    refine hnobody i task htask ?_
    unfold Task.holds
    rw [hphase]
    exact hheld

/-! ## Going on -/

/-- A call that fetches says what it fetches. -/
def Proper : Task K → Prop
  | .issuer call | .jwks (.fetching (.resolving call)) => call ≠ .cached .fetching
  | .jwks (.cached phase) => phase ≠ .fetching
  | .jwks (.fetching (.requesting _)) => True

theorem DiscoveryStep.proper {cache cache' : FetchCache DiscoveryDocument}
    {call call' : DiscoveryCall} {request : Option OutboundHttpRequest}
    (h : provider.DiscoveryStep cache now call action (cache', .awaits call' request)) :
    call' ≠ .cached .fetching := by
  have hfetch : ∀ cache urls, provider.fetchDiscovery cache urls = (cache', .awaits call' request) →
      call' ≠ .cached .fetching := by
    intro cache urls hafter
    cases urls with
    | nil => cases hafter
    | cons asked rest =>
      cases hafter
      intro hcall
      cases hcall
  generalize hafter : (cache', Progress.awaits call' request) = after at h
  cases h with
  | ends => cases hafter
  | begins => exact hfetch _ _ hafter.symm
  | waits _ _ other =>
    cases hafter
    intro hcall
    cases hcall
    exact other rfl
  | refused => exact hfetch _ _ hafter.symm
  | found =>
    cases hafter
    intro hcall
    cases hcall

theorem fetchJwks_proper {url : Option String} {call : JwksCall K}
    {request : Option OutboundHttpRequest}
    (h : (provider.fetchJwks caches url).2 = .awaits call request) : Proper (.jwks call) := by
  cases url with
  | none => cases h
  | some url =>
    cases h
    trivial

theorem JwksStep.proper {call call' : JwksCall K} {after : Caches K × Progress (JwksCall K) K}
    {request : Option OutboundHttpRequest} (h : provider.JwksStep caches now call action after)
    (hafter : after.2 = .awaits call' request) : Proper (.jwks call') := by
  cases h with
  | ends => cases hafter
  | begins =>
    unfold jwksUrl at hafter
    cases hurl : provider.config.jwksUrl with
    | some url =>
      rw [hurl] at hafter
      exact fetchJwks_proper hafter
    | none =>
      rw [hurl] at hafter
      cases hafter
      intro hcall
      cases hcall
  | waits _ _ other =>
    cases hafter
    exact other
  | inside step =>
    cases hafter
    exact step.proper
  | resolved => exact fetchJwks_proper hafter
  | @answered _ answer =>
    cases hgood : successful provider.jwkSetFromSlice answer with
    | none =>
      rw [hgood] at hafter
      cases hafter
    | some keys =>
      rw [hgood] at hafter
      cases hafter
      intro hphase
      cases hphase

theorem TaskStep.proper (h : provider.TaskStep caches now task action caches' task' shown) :
    ∀ next ∈ task', Proper next := by
  cases h with
  | configured | dropped | issuerReturns | jwksReturns => rintro _ ⟨⟩
  | issuerCalled | jwksCalled =>
    rintro _ ⟨⟩ hcall
    cases hcall
  | issuerGoes step =>
    rintro _ ⟨⟩
    exact step.proper
  | jwksGoes step =>
    rintro _ ⟨⟩
    exact step.proper rfl

theorem reachable_proper (hs : provider.machine.Reachable s) :
    ∀ i, ∀ task ∈ s.tasks i, Proper task := by
  obtain ⟨es, hr⟩ := hs
  refine hr.invariant (fun s => ∀ i, ∀ task ∈ s.tasks i, Proper task) ?_ ?_
  · intro s e t hs he i task htask
    by_cases hi : i = e.1.1
    · subst hi
      exact (act_step (Program.step_self he)).proper task htask
    · rw [Program.step_other he hi] at htask
      exact hs i task htask
  · rintro _ _ ⟨⟩

/-- Outside a fetch a call of `cached_fetch` is held up by the lock alone. -/
theorem resume_goes_on {V : Type*} {ttl : Int} {cache : FetchCache V} {phase : CachedFetch.Phase V}
    (hphase : phase ≠ .fetching) (hfree : phase = .waiting → cache.locked = false) (now : DateTime) :
    ∃ action : Action, action ≠ .drop ∧
      ((action.cached now).bind (CachedFetch.resume ttl cache phase)).isSome = true := by
  have hread : ∀ at', phase = .probing at' ∨ phase = .reprobing at' →
      (CachedFetch.resume ttl cache phase .read).isSome = true := by
    rintro at' (rfl | rfl)
    · cases hprobe : CachedFetch.probe ttl cache at' with
      | none => simp only [CachedFetch.resume, CachedFetch.act, hprobe, Option.isSome_some]
      | some value => simp only [CachedFetch.resume, CachedFetch.act, hprobe, Option.isSome_some]
    · cases hprobe : CachedFetch.probe ttl cache at' with
      | none => simp only [CachedFetch.resume, CachedFetch.act, hprobe, Option.isSome_some]
      | some value => simp only [CachedFetch.resume, CachedFetch.act, hprobe, Option.isSome_some]
  cases phase with
  | probing at' => exact ⟨.read, (fun h => by cases h), hread at' (.inl rfl)⟩
  | reprobing at' => exact ⟨.read, (fun h => by cases h), hread at' (.inr rfl)⟩
  | waiting =>
    refine ⟨.acquire, (fun h => by cases h), ?_⟩
    simp only [Action.cached, Option.bind_some, CachedFetch.resume, CachedFetch.act, hfree rfl,
      Bool.false_eq_true, if_false, Option.isSome_some]
  | fetching => exact absurd rfl hphase
  | storing fetched => exact ⟨.write, (fun h => by cases h), rfl⟩

theorem discovery_goes_on {cache : FetchCache DiscoveryDocument} {call : DiscoveryCall}
    (hproper : call ≠ .cached .fetching) (hfree : call.phase = .waiting → cache.locked = false)
    (now : DateTime) :
    ∃ action, action ≠ .drop ∧ (provider.discovery cache call now action).isSome = true := by
  cases call with
  | cached phase =>
    have hphase : phase ≠ .fetching := fun h => hproper (congrArg Call.cached h)
    obtain ⟨action, hdrop, hgoes⟩ := resume_goes_on hphase hfree now
    refine ⟨action, hdrop, ?_⟩
    obtain ⟨⟨cache', outcome⟩, houtcome⟩ := Option.isSome_iff_exists.mp hgoes
    simp only [discovery]
    rw [houtcome]
    rcases outcome with phase' | document
    · cases phase' <;> rfl
    · rfl
  | fetching fetch =>
    refine ⟨.respond (.ok ⟨404, []⟩), (fun h => by cases h), ?_⟩
    simp only [discovery]
    split
    · rfl
    · rfl

theorem jwks_goes_on {call : JwksCall K} (hproper : Proper (.jwks call))
    (hfree : ∀ lock, (Task.jwks call).waits = some lock → caches.free lock) (now : DateTime) :
    ∃ action, action ≠ .drop ∧ (provider.jwks caches call now action).isSome = true := by
  cases call with
  | cached phase =>
    obtain ⟨action, hdrop, hgoes⟩ := resume_goes_on hproper
      (fun hwaiting => hfree .keys (by rw [hwaiting]; rfl)) now
    refine ⟨action, hdrop, ?_⟩
    obtain ⟨⟨cache', outcome⟩, houtcome⟩ := Option.isSome_iff_exists.mp hgoes
    simp only [jwks]
    rw [houtcome]
    rcases outcome with phase' | keys
    · cases phase' <;> rfl
    · rfl
  | fetching fetch =>
    cases fetch with
    | resolving call =>
      obtain ⟨action, hdrop, hgoes⟩ := discovery_goes_on hproper
        (fun hwaiting => hfree .documents (Task.waits_documents.mpr (congrArg some hwaiting))) now
      refine ⟨action, hdrop, ?_⟩
      obtain ⟨⟨cache', progress⟩, hprogress⟩ := Option.isSome_iff_exists.mp hgoes
      simp only [jwks]
      rw [hprogress]
      cases progress <;> rfl
    | requesting url => exact ⟨.respond (.ok ⟨404, []⟩), (fun h => by cases h), rfl⟩

/-- A call that no lock holds up goes on, whatever the clock reads. -/
theorem task_goes_on {task : Task K} (hproper : Proper task)
    (hfree : ∀ lock, task.waits = some lock → caches.free lock) (now : DateTime) :
    ∃ action, action ≠ .drop ∧ (provider.act caches (some task) (now, action)).isSome = true := by
  cases task with
  | issuer call =>
    obtain ⟨action, hdrop, hgoes⟩ := discovery_goes_on hproper
      (fun hwaiting => hfree .documents (Task.waits_documents.mpr (congrArg some hwaiting))) now
    refine ⟨action, hdrop, ?_⟩
    obtain ⟨⟨cache', progress⟩, hprogress⟩ := Option.isSome_iff_exists.mp hgoes
    simp only [act]
    rw [hprogress]
    cases progress <;> rfl
  | jwks call =>
    obtain ⟨action, hdrop, hgoes⟩ := jwks_goes_on hproper hfree now
    refine ⟨action, hdrop, ?_⟩
    obtain ⟨⟨caches', progress⟩, hprogress⟩ := Option.isSome_iff_exists.mp hgoes
    simp only [act]
    rw [hprogress]
    cases progress <;> rfl

end DiscoveringProvider

/-! ## How long a call is -/

/-- A bound on the steps that the call has left, where there are `n` candidates. -/
def DiscoveryCall.remaining (n : ℕ) : DiscoveryCall → ℕ
  | .cached (.probing _) => n + 4
  | .cached .waiting => n + 3
  | .cached (.reprobing _) => n + 2
  | .fetching fetch => fetch.rest.length + 2
  | .cached .fetching | .cached (.storing _) => 1

def JwksCall.remaining {K : Type*} (n : ℕ) : JwksCall K → ℕ
  | .cached (.probing _) => n + 9
  | .cached .waiting => n + 8
  | .cached (.reprobing _) => n + 7
  | .fetching (.resolving call) => call.remaining n + 2
  | .fetching (.requesting _) => 2
  | .cached .fetching | .cached (.storing _) => 1

def Task.remaining {K : Type*} (n : ℕ) : Task K → ℕ
  | .issuer call => call.remaining n
  | .jwks call => call.remaining n

theorem DiscoveryCall.remaining_pos (n : ℕ) (call : DiscoveryCall) : 0 < call.remaining n := by
  cases call with
  | cached phase =>
    cases phase with
    | probing | waiting | reprobing => exact Nat.succ_pos _
    | fetching | storing => exact Nat.one_pos
  | fetching => exact Nat.succ_pos _

theorem Task.remaining_pos {K : Type*} (n : ℕ) (task : Task K) : 0 < task.remaining n := by
  cases task with
  | issuer call => exact call.remaining_pos n
  | jwks call =>
    cases call with
    | cached phase =>
      cases phase with
      | probing | waiting | reprobing => exact Nat.succ_pos _
      | fetching | storing => exact Nat.one_pos
    | fetching fetch =>
      cases fetch with
      | resolving | requesting => exact Nat.succ_pos _

namespace DiscoveringProvider
variable {K : Type*} {provider : DiscoveringProvider K} {now : DateTime} {action : Action}
  {caches caches' : Caches K} {task task' : Option (Task K)} {shown : Shown K}
  {s t : World (Caches K) (Task K)} {e : Event (DateTime × Action) (Shown K)}
  {es : List (Event (DateTime × Action) (Shown K))}

theorem fetchDiscovery_remaining {cache cache' : FetchCache DiscoveryDocument} {urls : List String}
    {call : DiscoveryCall} {request : Option OutboundHttpRequest} (n : ℕ)
    (h : provider.fetchDiscovery cache urls = (cache', .awaits call request)) :
    call.remaining n < urls.length + 2 := by
  cases urls with
  | nil => cases h
  | cons asked rest =>
    cases h
    exact Nat.lt_succ_self _

theorem DiscoveryStep.remaining_lt {cache cache' : FetchCache DiscoveryDocument}
    {call call' : DiscoveryCall} {request : Option OutboundHttpRequest}
    (h : provider.DiscoveryStep cache now call action (cache', .awaits call' request)) :
    call'.remaining provider.discoveryCandidates.length <
      call.remaining provider.discoveryCandidates.length := by
  generalize hafter : (cache', Progress.awaits call' request) = after at h
  cases h with
  | ends => cases hafter
  | begins acts step =>
    have hlt := fetchDiscovery_remaining provider.discoveryCandidates.length hafter.symm
    cases step with
    | missedInside => exact hlt
  | waits acts step other =>
    cases hafter
    cases step with
    | missed | acquired => exact Nat.lt_succ_self _
    | missedInside => exact absurd rfl other
    | answered => exact absurd rfl (Action.cached_ne_respond acts _)
  | refused => exact fetchDiscovery_remaining _ hafter.symm
  | found =>
    cases hafter
    exact Nat.lt_add_left _ Nat.one_lt_two

theorem JwksStep.remaining_lt {call call' : JwksCall K} {after : Caches K × Progress (JwksCall K) K}
    {request : Option OutboundHttpRequest} (h : provider.JwksStep caches now call action after)
    (hafter : after.2 = .awaits call' request) :
    call'.remaining provider.discoveryCandidates.length <
      call.remaining provider.discoveryCandidates.length := by
  have hfetch : ∀ {caches : Caches K} {url},
      (provider.fetchJwks caches url).2 = .awaits call' request →
        call'.remaining provider.discoveryCandidates.length = 2 := by
    intro caches url hurl
    cases url with
    | none => cases hurl
    | some url =>
      cases hurl
      rfl
  cases h with
  | ends => cases hafter
  | begins acts step =>
    cases step with
    | missedInside =>
      unfold jwksUrl at hafter
      cases hurl : provider.config.jwksUrl with
      | some url =>
        rw [hurl] at hafter
        rw [hfetch hafter]
        exact Nat.lt_add_left _ (by decide)
      | none =>
        rw [hurl] at hafter
        cases hafter
        exact Nat.lt_succ_self _
  | waits acts step other =>
    cases hafter
    cases step with
    | missed | acquired => exact Nat.lt_succ_self _
    | missedInside => exact absurd rfl other
    | answered => exact absurd rfl (Action.cached_ne_respond acts _)
  | inside step =>
    cases hafter
    exact Nat.add_lt_add_right step.remaining_lt 2
  | @resolved call =>
    rw [hfetch hafter]
    exact Nat.lt_add_of_pos_left (call.remaining_pos _)
  | @answered _ answer =>
    cases hgood : successful provider.jwkSetFromSlice answer with
    | none =>
      rw [hgood] at hafter
      cases hafter
    | some keys =>
      rw [hgood] at hafter
      cases hafter
      exact Nat.one_lt_two

/-- Every step that a call takes is one of those it has left. -/
theorem TaskStep.remaining_lt {task : Task K}
    (h : provider.TaskStep caches now (some task) action caches' task' shown)
    (hended : shown.ended = none) : ∃ next, task' = some next ∧
      next.remaining provider.discoveryCandidates.length <
        task.remaining provider.discoveryCandidates.length := by
  cases h with
  | dropped | issuerReturns | jwksReturns => cases hended
  | issuerGoes step => exact ⟨_, rfl, step.remaining_lt⟩
  | jwksGoes step => exact ⟨_, rfl, step.remaining_lt rfl⟩

theorem TaskStep.started (h : provider.TaskStep caches now none action caches' task' shown)
    (hended : shown.ended = none) : ∃ first, task' = some first ∧
      first.remaining provider.discoveryCandidates.length ≤
        provider.discoveryCandidates.length + 9 := by
  cases h with
  | configured => cases hended
  | issuerCalled => exact ⟨_, rfl, Nat.add_le_add_left (by decide) _⟩
  | jwksCalled => exact ⟨_, rfl, le_rfl⟩

theorem runs_remaining {i : ℕ} {task : Task K} (hi : s.tasks i = some task)
    (hr : Runs provider.machine.Step s es t)
    (hgoing : ∀ e ∈ es, e.1.1 = i → e.2.ended = none) :
    ∃ next, t.tasks i = some next ∧
      es.countP (fun e => e.1.1 = i) + next.remaining provider.discoveryCandidates.length ≤
        task.remaining provider.discoveryCandidates.length := by
  induction hr generalizing task with
  | refl => exact ⟨task, hi, (Nat.zero_add _).le⟩
  | @cons s u t e es he hr ih =>
    have hrest : ∀ f ∈ es, f.1.1 = i → f.2.ended = none :=
      fun f hf => hgoing f (List.mem_cons_of_mem _ hf)
    by_cases hactor : e.1.1 = i
    · subst hactor
      have hstep := act_step (Program.step_self he)
      rw [hi] at hstep
      obtain ⟨between, hbetween, hlt⟩ := hstep.remaining_lt (hgoing e List.mem_cons_self rfl)
      obtain ⟨next, hnext, hle⟩ := ih hbetween hrest
      refine ⟨next, hnext, ?_⟩
      simp only [List.countP_cons, decide_true, if_true]
      omega
    · obtain ⟨next, hnext, hle⟩ := ih ((Program.step_other he (Ne.symm hactor)).trans hi) hrest
      refine ⟨next, hnext, ?_⟩
      rwa [List.countP_cons_of_neg (by simpa using hactor)]

/-- A call that has not ended has taken a bounded number of steps. -/
theorem runs_from_start {i : ℕ} (hi : s.tasks i = none) (hr : Runs provider.machine.Step s es t)
    (hgoing : ∀ e ∈ es, e.1.1 = i → e.2.ended = none) :
    es.countP (fun e => e.1.1 = i) ≤ provider.discoveryCandidates.length + 9 := by
  induction hr with
  | refl => exact Nat.zero_le _
  | @cons s u t e es he hr ih =>
    have hrest : ∀ f ∈ es, f.1.1 = i → f.2.ended = none :=
      fun f hf => hgoing f (List.mem_cons_of_mem _ hf)
    by_cases hactor : e.1.1 = i
    · subst hactor
      have hstep := act_step (Program.step_self he)
      rw [hi] at hstep
      obtain ⟨first, hfirst, hbound⟩ := hstep.started (hgoing e List.mem_cons_self rfl)
      obtain ⟨last, _, hle⟩ := runs_remaining hfirst hr hrest
      have hpos := last.remaining_pos provider.discoveryCandidates.length
      simp only [List.countP_cons, decide_true, if_true]
      omega
    · rw [List.countP_cons_of_neg (by simpa using hactor)]
      exact ih ((Program.step_other he (Ne.symm hactor)).trans hi) hrest

/-! ## All calls of a provider -/

/-- The calls that wait for the answer to a request for a document, or for keys. -/
def AsksDocument (s : World (Caches K) (Task K)) (i : ℕ) : Prop :=
  ∃ task fetch, s.tasks i = some task ∧ task.discovery = some (.fetching fetch)

def AsksKeys (s : World (Caches K) (Task K)) (i : ℕ) : Prop :=
  ∃ url, s.tasks i = some (.jwks (.fetching (.requesting url)))

variable (provider) in
/-- However many calls there are, they ask once and do not hold each other up. -/
structure Unobstructed (s : World (Caches K) (Task K)) : Prop where
  oneDocument : ∀ i j, AsksDocument s i → AsksDocument s j → i = j
  oneKeys : ∀ i j, AsksKeys s i → AsksKeys s j → i = j
  /-- A call waits, in the end, for one that goes on without being dropped. -/
  goesOn : ∀ i task, s.tasks i = some task →
    ∃ j, Relation.ReflTransGen (Program.WaitsFor Task.holds Task.waits s) i j ∧
      ∀ now, ∃ action shown t, action ≠ .drop ∧
        provider.machine.Step s ((j, (now, action)), shown) t
  /-- The steps of a call up to its end are bounded. -/
  bounded : ∀ i es t, s.tasks i = none → Runs provider.machine.Step s es t →
    (∀ e ∈ es, e.1.1 = i → e.2.ended = none) →
    es.countP (fun e => e.1.1 = i) ≤ provider.discoveryCandidates.length + 9

theorem calls_unobstructed (hs : provider.machine.Reachable s) : provider.Unobstructed s where
  oneDocument := by
    have hflight : ∀ {i}, AsksDocument s i →
        CachedFetch.InFlight (view Caches.discovery Task.documentPhase s) i := by
      rintro i ⟨task, fetch, htask, hcall⟩
      have hphase : task.documentPhase = some .fetching := congrArg (Option.map Call.phase) hcall
      exact Option.bind_eq_some_iff.mpr ⟨task, htask, hphase⟩
    exact fun i j hi hj =>
      CachedFetch.reachable_inFlight (reachable_documents hs) (hflight hi) (hflight hj)
  oneKeys := by
    have hflight : ∀ {i}, AsksKeys s i →
        CachedFetch.InFlight (view Caches.jwks Task.keyPhase s) i := by
      rintro i ⟨url, htask⟩
      exact Option.bind_eq_some_iff.mpr ⟨_, htask, rfl⟩
    exact fun i j hi hj =>
      CachedFetch.reachable_inFlight (reachable_keys hs) (hflight hi) (hflight hj)
  goesOn := by
    intro i task hi
    obtain ⟨j, hchain, hj, hfirst⟩ := Program.exists_not_waiting Lock.rank
      (fun _ _ _ _ _ hwaits hholds => lock_ranked hwaits hholds) hi
    obtain ⟨other, hother⟩ := Option.isSome_iff_exists.mp hj
    refine ⟨j, hchain, fun now => ?_⟩
    obtain ⟨action, hdrop, hgoes⟩ := @task_goes_on K provider _ other
      (reachable_proper hs j other hother)
      (fun lock hwaits => reachable_free hs fun k holder hholder hholds =>
        hfirst k ⟨other, holder, lock, hother, hwaits, hholder, hholds⟩) now
    obtain ⟨⟨caches, next, shown⟩, hact⟩ := Option.isSome_iff_exists.mp hgoes
    refine ⟨action, shown, ⟨caches, Function.update s.tasks j next⟩, hdrop,
      Program.step_iff.mpr ⟨next, ?_, rfl⟩⟩
    rw [hother]
    exact hact
  bounded _ _ _ hi hr hgoing := runs_from_start hi hr hgoing

/-- The same provider with a discovery URL in place of its issuer. -/
def tenantByDiscovery : DiscoveringProvider (List Unit) :=
  { tenant with
    config := .jwks ⟨"tenant", none,
      some "https://auth.example.com/.well-known/openid-configuration", none, [], [], ∅, [], none⟩ }

/-- A call for keys has the lock of the keys and waits for the lock of the documents, which a call
for the issuer has. -/
def crossing : List (ℕ × (DateTime × Action)) :=
  [(0, 0, .callIssuer), (0, 1, .read), (0, 2, .acquire), (1, 3, .callJwks), (1, 4, .read),
    (1, 5, .acquire), (1, 6, .read), (1, 7, .read), (0, 8, .read)]

theorem calls_unobstructed_crossing : ∃ es s, es.map Prod.fst = crossing ∧
    Runs tenantByDiscovery.machine.Step tenantByDiscovery.machine.init es s ∧
    tenantByDiscovery.Unobstructed s ∧ AsksDocument s 0 ∧
    Program.WaitsFor Task.holds Task.waits s 1 0 := by
  have hr := @Machine.runs_of_execute _ _ _ tenantByDiscovery.machine
    tenantByDiscovery.machine.init _ crossing _ rfl
  exact ⟨_, _, rfl, hr, calls_unobstructed ⟨_, hr⟩, ⟨_, _, rfl, rfl⟩,
    ⟨_, _, .documents, rfl, rfl, rfl, rfl⟩⟩

end DiscoveringProvider
end RustMcpCore.Inbound
