import RustMcpCore.Auth.Outbound.TokenManager

/-! # One exchange at a time

The lock of a key is taken by one caller at a time, and no two keys share a lock,
so the critical sections of a key exclude each other. The exchange is inside.
-/
namespace RustMcpCore.Outbound
open Library

namespace Critical

def exchanging : Critical → Bool
  | .loading | .inFlight => true
  | .reprobing _ | .received _ _ | .storing _ => false

/-- The exchange has been started. -/
def exchanged : Critical → Bool
  | .reprobing _ | .loading => false
  | .inFlight | .received _ _ | .storing _ => true

end Critical

namespace Stage

def exchanging : Stage → Bool
  | .outside _ => false
  | .inside _ critical => critical.exchanging

def exchanged : Stage → Bool
  | .outside _ => false
  | .inside _ critical => critical.exchanged

/-- The reading of the clock that the cached token is compared with. -/
def now : Stage → Option DateTime
  | .outside (.probing now) | .inside _ (.reprobing now) => some now
  | _ => none

/-- The lock that the caller has or waits for. -/
def lock : Stage → Option Lock
  | .outside (.waiting lock) | .inside lock _ => some lock
  | _ => none

def held : Stage → Option Lock
  | .outside _ => none
  | .inside lock _ => some lock

theorem held_of_exchanging {stage : Stage} (h : stage.exchanging = true) :
    ∃ lock, stage.held = some lock := by
  cases stage with
  | outside => cases h
  | inside lock => exact ⟨lock, rfl⟩

theorem lock_of_held {stage : Stage} {lock : Lock} (h : stage.held = some lock) :
    stage.lock = some lock := by
  cases stage with
  | outside => cases h
  | inside => exact h

end Stage

/-- The reading of the clock that a caller makes. -/
def Action.clock : Action → Option DateTime
  | .call _ _ _ _ now | .acquire now | .respond (.ok _) now => some now
  | _ => none

def Action.isCall : Action → Bool
  | .call .. => true
  | _ => false

namespace OutboundOauth2ResolvedConfig
variable {resolved : OutboundOauth2ResolvedConfig} {entries entries' : Entries}
  {critical : Critical} {critical' : Option Critical} {action : Action} {shown : Shown}

theorem exchangeToken_exchanged :
    resolved.exchangeToken.1.exchanged = false ↔ resolved.exchangeToken.2.exchange = none := by
  unfold exchangeToken
  cases resolved.grant <;> simp [Critical.exchanged]

theorem exchangeToken_ended : resolved.exchangeToken.2.ended = none := by
  unfold exchangeToken
  cases resolved.grant <;> rfl

theorem exchangeToken_now (lock : Lock) :
    (Stage.inside lock resolved.exchangeToken.1).now = none := by
  unfold exchangeToken
  cases resolved.grant <;> rfl

/-- Once it has the lock a caller compares at most the last reading of the clock,
and an exchange starts at once only with client credentials. -/
theorem start_spec {forceRefresh : Bool} {now : DateTime}
    (h : (critical, shown) =
      if forceRefresh then resolved.exchangeToken else (.reprobing now, {})) :
    shown.ended = none ∧ (critical.exchanged = false ↔ shown.exchange = none) ∧
      ∀ lock now', (Stage.inside lock critical).now = some now' → now' = now := by
  cases forceRefresh with
  | false =>
    cases h
    refine ⟨rfl, by simp [Critical.exchanged], ?_⟩
    intro lock now' hnow
    cases hnow
    rfl
  | true =>
    have hcritical : critical = resolved.exchangeToken.1 := congrArg Prod.fst h
    have hshown : shown = resolved.exchangeToken.2 := congrArg Prod.snd h
    rw [hcritical, hshown]
    refine ⟨exchangeToken_ended, exchangeToken_exchanged, ?_⟩
    intro lock now' hnow
    rw [exchangeToken_now] at hnow
    cases hnow

/-- Going on inside, a caller starts at most one exchange, and it compares nothing
with the clock any more. -/
theorem actInside_exchanged {next : Critical}
    (h : resolved.actInside entries critical action = some (entries', some next, shown)) :
    action.isCall = false ∧ (∀ lock, (Stage.inside lock next).now = none) ∧
      (next.exchanged = false ↔ critical.exchanged = false ∧ shown.exchange = none) := by
  cases actInside_step h with
  | stale => exact ⟨rfl, exchangeToken_now, exchangeToken_exchanged.trans (and_iff_right rfl).symm⟩
  | loaded => exact ⟨rfl, fun _ => rfl, by simp [Critical.exchanged]⟩
  | answered => exact ⟨rfl, fun _ => rfl, by simp [Critical.exchanged]⟩
  | merged => exact ⟨rfl, fun _ => rfl, by simp [Critical.exchanged]⟩

/-- Without an exchange of its own a caller returns a token only from the cache. -/
theorem actInside_returned {token : String}
    (h : resolved.actInside entries critical action = some (entries', critical', shown))
    (htoken : shown.ended = some (.returned (.ok token))) (hexchanged : critical.exchanged = false) :
    ∃ now entry, critical = .reprobing now ∧ entry.accessToken = token ∧
      entries.getFresh resolved.cacheKey now resolved.refreshPolicy.skewSec =
        some (some entry) := by
  cases actInside_step h with
  | cached now entry fresh =>
    cases htoken
    exact ⟨now, entry, rfl, rfl, fresh⟩
  | stale now =>
    rw [exchangeToken_ended] at htoken
    cases htoken
  | overflowed | tokenless | loaded | dropped => cases htoken
  | refused | unreadable | answered | merged | stored => cases hexchanged

theorem actInside_reprobing {now : DateTime} {entry : CachedOutboundToken}
    (hentry : entries.lookup resolved.cacheKey = some entry)
    (hfresh : entry.isFresh now resolved.refreshPolicy.skewSec = some true) :
    resolved.actInside entries (.reprobing now) .read =
      some (entries, none, { ended := some (.returned (.ok entry.accessToken)) }) := by
  have hget := Entries.getFresh_eq_some.mpr ⟨hentry, hfresh⟩
  simp only [actInside, hget]

end OutboundOauth2ResolvedConfig

namespace OutboundTokenManager

/-! ## Mutual exclusion -/

def heldLock (caller : Caller) : Option Lock := caller.stage.held

def Locked (cache : OutboundTokenCache) (lock : Lock) : Prop := lock ∈ cache.locked

theorem locks_program : Program.Locks heldLock Locked program where
  kept := by
    intro _ cache task action cache' task' shown lock hact hlocked hkept
    rcases act_cases hact with ⟨_, _, _, _, _, _, _, rfl, _⟩ | ⟨_, _, _, _, _, houtside, _⟩ |
      ⟨_, _, own, _, _, critical', rfl, _, rfl, rfl⟩
    · exact hlocked
    · rcases OutboundOauth2ResolvedConfig.actOutside_cases houtside with
        ⟨rfl, _⟩ | ⟨rfl, _⟩ | ⟨rfl, _⟩ | ⟨_, _, _, _, _, _, rfl, _⟩
      · exact hlocked
      · exact hlocked
      · exact hlocked
      · exact Finset.mem_insert_of_mem hlocked
    · cases critical' with
      | none =>
        refine Finset.mem_erase.mpr ⟨?_, hlocked⟩
        rintro rfl
        cases hkept rfl
      | some => exact hlocked
  taken := by
    intro _ cache task action cache' task' shown lock hact hheld
    rcases act_cases hact with ⟨_, _, _, _, _, _, _, _, _, _, _, hcall⟩ |
      ⟨_, _, _, _, _, houtside, rfl⟩ | ⟨_, _, own, _, _, critical', rfl, _, rfl, rfl⟩
    · obtain ⟨caller, htask, hheld⟩ := Option.bind_eq_some_iff.mp hheld
      rw [heldLock, (hcall caller htask).2] at hheld
      cases hheld
    · rcases OutboundOauth2ResolvedConfig.actOutside_cases houtside with
        ⟨_, rfl, _⟩ | ⟨_, rfl, _⟩ | ⟨_, rfl, _⟩ | ⟨_, _, _, _, _, hfree, rfl, rfl, _⟩
      · cases hheld
      · cases hheld
      · cases hheld
      · cases hheld
        exact .inr ⟨hfree, Finset.mem_insert_self _ _⟩
    · cases critical' with
      | none => cases hheld
      | some => exact .inl hheld

/-- What a caller waits for or has is the lock of its key. -/
def LocksMatch (s : State) : Prop :=
  ∀ i caller lock, s.tasks i = some caller → caller.stage.lock = some lock →
    s.shared.refreshLocks.locks.lookup caller.resolved.cacheKey = some lock

theorem act_locks {cache cache' : OutboundTokenCache} {task task' : Option Caller}
    {action : Action} {shown : Shown} (h : act cache task action = some (cache', task', shown)) :
    (∀ key lock, cache.refreshLocks.locks.lookup key = some lock →
      cache'.refreshLocks.locks.lookup key = some lock) ∧
    ∀ caller lock, task' = some caller → caller.stage.lock = some lock →
      cache'.refreshLocks.locks.lookup caller.resolved.cacheKey = some lock ∨
        ∃ earlier, task = some earlier ∧ earlier.resolved = caller.resolved ∧
          earlier.stage.lock = some lock := by
  rcases act_cases h with ⟨_, _, _, forceRefresh, _, _, _, rfl, _, _, _, hcall⟩ |
    ⟨_, _, _, _, rfl, houtside, rfl⟩ | ⟨_, _, own, _, _, critical', rfl, _, rfl, rfl⟩
  · refine ⟨fun _ _ hlock => hlock, ?_⟩
    intro caller lock htask hlock
    rw [(hcall caller htask).2] at hlock
    cases forceRefresh <;> cases hlock
  · rcases OutboundOauth2ResolvedConfig.actOutside_cases houtside with
      ⟨rfl, rfl, _⟩ | ⟨rfl, rfl, _⟩ | ⟨rfl, rfl, _⟩ | ⟨_, _, _, rfl, _, _, rfl, rfl, _⟩
    · exact ⟨fun _ _ hlock => hlock, fun _ _ htask _ => by cases htask⟩
    · refine ⟨fun _ _ hlock => hlock, ?_⟩
      intro caller lock htask hlock
      cases htask
      cases hlock
    · refine ⟨fun _ _ => RefreshLockMap.lookup_orInsert_of_some, ?_⟩
      intro caller lock htask hlock
      cases htask
      cases hlock
      exact .inl (RefreshLockMap.lookup_orInsert _ _)
    · refine ⟨fun _ _ hlock => hlock, ?_⟩
      intro caller lock htask hlock
      cases htask
      exact .inr ⟨_, rfl, rfl, hlock⟩
  · refine ⟨?_, ?_⟩
    · cases critical' with
      | none => exact fun _ _ hlock => hlock
      | some => exact fun _ _ hlock => hlock
    · intro caller lock htask hlock
      obtain ⟨critical, rfl, rfl⟩ := Option.map_eq_some_iff.mp htask
      exact .inr ⟨_, rfl, rfl, hlock⟩

variable {s t : State} {e : (ℕ × Action) × Shown}

theorem step_locksMatch (hs : LocksMatch s) (he : machine.Step s e t) : LocksMatch t := by
  obtain ⟨hkept, hown⟩ := act_locks (Program.step_self he)
  intro i caller lock htask hlock
  by_cases hi : i = e.1.1
  · subst hi
    rcases hown caller lock htask hlock with hnew | ⟨earlier, hearlier, hresolved, hlock⟩
    · exact hnew
    · rw [← hresolved]
      exact hkept _ _ (hs _ earlier lock hearlier hlock)
  · rw [Program.step_other he hi] at htask
    exact hkept _ _ (hs i caller lock htask hlock)

structure Excluded (s : State) : Prop where
  locks : LocksMatch s
  exclusive : Program.Exclusive heldLock Locked s

theorem excluded_init : Excluded machine.init where
  locks _ _ _ h := by cases h
  exclusive := Program.exclusive_init

theorem step_excluded (hs : Excluded s) (he : machine.Step s e t) : Excluded t where
  locks := step_locksMatch hs.locks he
  exclusive := Program.step_exclusive locks_program hs.exclusive he

/-- Two callers inside the critical section of one key are one caller. -/
theorem Excluded.unique (hs : Excluded s) {i j : ℕ} {caller caller' : Caller} {lock lock' : Lock}
    (hi : s.tasks i = some caller) (hj : s.tasks j = some caller')
    (hlock : caller.stage.held = some lock) (hlock' : caller'.stage.held = some lock')
    (hkey : caller.resolved.cacheKey = caller'.resolved.cacheKey) : i = j := by
  have hmatch := hs.locks i caller lock hi (Stage.lock_of_held hlock)
  have hmatch' := hs.locks j caller' lock' hj (Stage.lock_of_held hlock')
  rw [hkey, hmatch'] at hmatch
  obtain rfl := Option.some.inj hmatch
  refine hs.exclusive.unique i j lock' ?_ ?_
  · rw [hi]
    exact hlock
  · rw [hj]
    exact hlock'

/-! ## What a caller has done in its call -/

def Calls (i : ℕ) (e : Event Action Shown) : Prop := e.1.1 = i ∧ e.1.2.isCall = true

def Exchanges (i : ℕ) (e : Event Action Shown) : Prop :=
  e.1.1 = i ∧ e.2.exchange.isSome = true

def ReadsClock (i : ℕ) (now : DateTime) (e : Event Action Shown) : Prop :=
  e.1.1 = i ∧ e.1.2.clock = some now

theorem act_trace {cache cache' : OutboundTokenCache} {task : Option Caller} {caller : Caller}
    {action : Action} {shown : Shown}
    (h : act cache task action = some (cache', some caller, shown)) :
    (∀ now, caller.stage.now = some now → action.clock = some now) ∧
    (action.isCall = true ∧ caller.stage.exchanged = false ∨
      action.isCall = false ∧ ∃ earlier, task = some earlier ∧
        (caller.stage.exchanged = false ↔
          earlier.stage.exchanged = false ∧ shown.exchange = none)) := by
  rcases act_cases h with ⟨_, _, _, forceRefresh, now, _, rfl, _, _, _, _, hcall⟩ |
    ⟨resolved, _, _, _, rfl, houtside, htask⟩ | ⟨_, _, own, _, _, critical', rfl, hinside, _, htask⟩
  · have hstage := (hcall caller rfl).2
    refine ⟨?_, .inl ⟨rfl, by rw [hstage]; rfl⟩⟩
    intro now' hnow
    rw [hstage] at hnow
    cases forceRefresh <;> cases hnow
    rfl
  · rcases OutboundOauth2ResolvedConfig.actOutside_cases houtside with
      ⟨_, rfl, _⟩ | ⟨_, rfl, rfl, rfl⟩ | ⟨_, rfl, rfl, rfl⟩ |
        ⟨_, _, _, rfl, rfl, _, _, rfl, hstart⟩
    · cases htask
    · cases htask
      refine ⟨?_, .inr ⟨rfl, _, rfl, iff_of_true rfl ⟨rfl, rfl⟩⟩⟩
      intro _ hnow
      cases hnow
    · cases htask
      refine ⟨?_, .inr ⟨rfl, _, rfl, iff_of_true rfl ⟨rfl, rfl⟩⟩⟩
      intro _ hnow
      cases hnow
    · cases htask
      obtain ⟨_, hexchanged, hnow⟩ := OutboundOauth2ResolvedConfig.start_spec hstart
      refine ⟨?_, .inr ⟨rfl, _, rfl, hexchanged.trans (and_iff_right rfl).symm⟩⟩
      intro now' h
      rw [hnow _ now' h]
      rfl
  · obtain ⟨next, rfl, rfl⟩ := Option.map_eq_some_iff.mp htask.symm
    obtain ⟨hcall, hnow, hexchanged⟩ :=
      OutboundOauth2ResolvedConfig.actInside_exchanged hinside
    refine ⟨?_, .inr ⟨hcall, _, rfl, hexchanged⟩⟩
    intro now h
    rw [hnow] at h
    cases h

theorem act_returned {cache cache' : OutboundTokenCache} {task task' : Option Caller}
    {action : Action} {shown : Shown} {token : String}
    (h : act cache task action = some (cache', task', shown))
    (htoken : shown.ended = some (.returned (.ok token))) :
    ∃ caller, task = some caller ∧ (caller.stage.exchanged = false →
      ∃ now entry, caller.stage.now = some now ∧ entry.accessToken = token ∧
        cache.entries.getFresh caller.resolved.cacheKey now
          caller.resolved.refreshPolicy.skewSec = some (some entry)) := by
  rcases act_cases h with ⟨_, _, _, _, _, _, _, _, _, _, hcall, _⟩ |
    ⟨_, _, _, _, rfl, houtside, _⟩ | ⟨_, _, _, _, _, _, rfl, hinside, _⟩
  · exact absurd htoken (hcall token)
  · refine ⟨_, rfl, fun _ => ?_⟩
    rcases OutboundOauth2ResolvedConfig.actOutside_cases houtside with
      ⟨_, _, _, _, hcached⟩ | ⟨_, _, rfl, _⟩ | ⟨_, _, rfl, _⟩ | ⟨_, _, _, _, _, _, _, _, hstart⟩
    · obtain ⟨now, entry, rfl, hentry⟩ := hcached token htoken
      exact ⟨now, entry, rfl, hentry⟩
    · cases htoken
    · cases htoken
    · rw [(OutboundOauth2ResolvedConfig.start_spec hstart).1] at htoken
      cases htoken
  · refine ⟨_, rfl, fun hexchanged => ?_⟩
    obtain ⟨now, entry, rfl, hentry⟩ :=
      OutboundOauth2ResolvedConfig.actInside_returned hinside htoken hexchanged
    exact ⟨now, entry, rfl, hentry⟩

/-- Where a caller is in its call shows whether its exchange has been started, and
what it compares with the clock is its last reading. -/
structure Tracked (es : List (Event Action Shown)) (s : State) : Prop where
  exchanged : ∀ i caller, s.tasks i = some caller →
    (caller.stage.exchanged = false ↔ Since (Calls i) (Exchanges i) es)
  clock : ∀ i caller now, s.tasks i = some caller → caller.stage.now = some now →
    Since (ReadsClock i now) (fun e => ∃ later, ReadsClock i later e) es

theorem step_tracked {es : List (Event Action Shown)} (hs : Tracked es s)
    (he : machine.Step s e t) : Tracked (es ++ [e]) t := by
  have hact : act s.shared (s.tasks e.1.1) e.1.2 = some (t.shared, t.tasks e.1.1, e.2) :=
    Program.step_self he
  constructor
  · intro i caller htask
    rw [since_append]
    by_cases hi : i = e.1.1
    · subst hi
      rw [htask] at hact
      obtain ⟨_, ⟨hcall, hstage⟩ | ⟨hcall, earlier, hearlier, hstage⟩⟩ := act_trace hact
      · exact iff_of_true hstage (.inl ⟨rfl, hcall⟩)
      · rw [hstage, hs.exchanged _ earlier hearlier]
        simp [Calls, Exchanges, hcall]
    · rw [Program.step_other he hi] at htask
      rw [hs.exchanged i caller htask]
      simp [Calls, Exchanges, Ne.symm hi]
  · intro i caller now htask hnow
    rw [since_append]
    by_cases hi : i = e.1.1
    · subst hi
      rw [htask] at hact
      exact .inl ⟨rfl, (act_trace hact).1 now hnow⟩
    · rw [Program.step_other he hi] at htask
      refine .inr ⟨hs.clock i caller now htask hnow, ?_⟩
      rintro ⟨later, hself, _⟩
      exact hi hself.symm

theorem runs_tracked {es : List (Event Action Shown)}
    (hr : Runs machine.Step machine.init es s) : Tracked es s := by
  refine hr.history Tracked (fun _ _ _ _ hs he => step_tracked hs he) ⟨?_, ?_⟩
  · intro i caller h
    cases h
  · intro i caller now h
    cases h

/-! ## Callers that find a fresh token -/

theorem act_acquire {cache cache' : OutboundTokenCache} {caller : Caller} {task' : Option Caller}
    {now : DateTime} {shown : Shown} (hforce : caller.forceRefresh = false)
    (h : act cache (some caller) (.acquire now) = some (cache', task', shown)) :
    shown = {} ∧ ∃ lock, task' = some { caller with stage := .inside lock (.reprobing now) } := by
  obtain ⟨resolved, forceRefresh, stage⟩ := caller
  obtain rfl : forceRefresh = false := hforce
  cases stage with
  | outside phase =>
    obtain ⟨_, hact, heq⟩ := Option.map_eq_some_iff.mp h
    cases heq
    cases phase with
    | waiting lock =>
      simp only [OutboundOauth2ResolvedConfig.actOutside] at hact
      split at hact
      · cases hact
      · cases hact
        exact ⟨rfl, lock, rfl⟩
    | _ => cases hact
  | inside lock critical =>
    obtain ⟨_, hact, _⟩ := Option.map_eq_some_iff.mp h
    cases critical <;> cases hact

theorem act_reprobing {cache cache' : OutboundTokenCache} {caller : Caller} {task' : Option Caller}
    {action : Action} {shown : Shown} {lock : Lock} {now : DateTime} {entry : CachedOutboundToken}
    (h : act cache (some caller) action = some (cache', task', shown))
    (hstage : caller.stage = .inside lock (.reprobing now)) (haction : action ≠ .drop)
    (hentry : cache.entries.lookup caller.resolved.cacheKey = some entry)
    (hfresh : entry.isFresh now caller.resolved.refreshPolicy.skewSec = some true) :
    task' = none ∧ shown = { ended := some (.returned (.ok entry.accessToken)) } := by
  obtain ⟨resolved, forceRefresh, stage⟩ := caller
  obtain rfl : stage = .inside lock (.reprobing now) := hstage
  obtain ⟨⟨entries, critical', _⟩, hact, heq⟩ := Option.map_eq_some_iff.mp h
  cases heq
  cases action with
  | read =>
    rw [OutboundOauth2ResolvedConfig.actInside_reprobing hentry hfresh] at hact
    cases hact
    exact ⟨rfl, rfl⟩
  | drop => exact absurd rfl haction
  | _ => cases hact

structure SingleFlight (es : List (Event Action Shown)) (s : State) : Prop where
  /-- Two callers that exchange a token for one key are one caller. -/
  oneExchange : ∀ i j caller caller', s.tasks i = some caller → s.tasks j = some caller' →
    caller.stage.exchanging = true → caller'.stage.exchanging = true →
    caller.resolved.cacheKey = caller'.resolved.cacheKey → i = j
  /-- With the lock a caller that does not force a refresh looks into the cache again. -/
  rechecks : ∀ i caller now shown t, s.tasks i = some caller → caller.forceRefresh = false →
    machine.Step s ((i, .acquire now), shown) t →
      shown.exchange = none ∧
        ∃ lock, t.tasks i = some { caller with stage := .inside lock (.reprobing now) }
  /-- If it finds a fresh token and is not dropped, its call ends with this token
  and without an exchange. -/
  reuses : ∀ e caller lock now entry t, s.tasks e.1.1 = some caller →
    caller.stage = .inside lock (.reprobing now) →
    s.shared.entries.lookup caller.resolved.cacheKey = some entry →
    entry.isFresh now caller.resolved.refreshPolicy.skewSec = some true →
    machine.Step s e t → e.1.2 ≠ .drop →
      t.tasks e.1.1 = none ∧ e.2.ended = some (.returned (.ok entry.accessToken)) ∧
        e.2.exchange = none ∧ Since (Calls e.1.1) (Exchanges e.1.1) es
  /-- A token that a call returns without an exchange is cached, and does not expire or
  is fresh for the last reading of the clock. -/
  fresh : ∀ e t token, machine.Step s e t → e.2.ended = some (.returned (.ok token)) →
    Since (Calls e.1.1) (Exchanges e.1.1) es →
      ∃ caller entry now, s.tasks e.1.1 = some caller ∧
        s.shared.entries.lookup caller.resolved.cacheKey = some entry ∧
        entry.accessToken = token ∧
        Since (ReadsClock e.1.1 now) (fun f => ∃ later, ReadsClock e.1.1 later f) es ∧
        (entry.expiresAt = none ∨ ∃ expiresAt, entry.expiresAt = some expiresAt ∧
          now + Clock.fromSecs caller.resolved.refreshPolicy.skewSec < expiresAt)

/-- In every run, with any number of callers for any keys, exchanges for one key
exclude each other and cached tokens are returned only while they are fresh. -/
theorem single_flight {es : List (Event Action Shown)}
    (hr : Runs machine.Step machine.init es s) : SingleFlight es s where
  oneExchange := by
    intro i j caller caller' hi hj hexchanging hexchanging' hkey
    have hexcluded := hr.invariant Excluded (fun _ _ _ hs he => step_excluded hs he) excluded_init
    obtain ⟨lock, hlock⟩ := Stage.held_of_exchanging hexchanging
    obtain ⟨lock', hlock'⟩ := Stage.held_of_exchanging hexchanging'
    exact hexcluded.unique hi hj hlock hlock' hkey
  rechecks := by
    intro i caller now shown t htask hforce hstep
    have hact := Program.step_self hstep
    rw [htask] at hact
    obtain ⟨rfl, hlock⟩ := act_acquire hforce hact
    exact ⟨rfl, hlock⟩
  reuses := by
    intro e caller lock now entry t htask hstage hentry hfresh hstep hdrop
    have hact := Program.step_self hstep
    rw [htask] at hact
    obtain ⟨hend, hshown⟩ := act_reprobing hact hstage hdrop hentry hfresh
    refine ⟨hend, by rw [hshown], by rw [hshown], ?_⟩
    rw [← (runs_tracked hr).exchanged _ caller htask, hstage]
    rfl
  fresh := by
    intro e t token hstep htoken hsince
    obtain ⟨caller, htask, hcached⟩ := act_returned (Program.step_self hstep) htoken
    have htracked := runs_tracked hr
    have hexchanged := (htracked.exchanged _ caller htask).mpr hsince
    obtain ⟨now, entry, hnow, htoken, hget⟩ := hcached hexchanged
    obtain ⟨hentry, hfresh⟩ := Entries.getFresh_eq_some.mp hget
    exact ⟨caller, entry, now, htask, hentry, htoken, htracked.clock _ caller now htask hnow,
      CachedOutboundToken.isFresh_sound hfresh⟩

/-- An upstream whose secrets stand in the settings. -/
def reports : UpstreamOauth2AuthConfig where
  grant := .refreshToken
  tokenUrl := "https://auth.example.com/oauth/token"
  clientId := "client-a"
  clientSecret := ⟨.inline, "secret"⟩
  authMethod := none
  scopes := []
  audience := none
  extraTokenParams := ∅
  refresh := none
  refreshToken := some ⟨.inline, "boot"⟩
  mtls := none

def nowhere : Surroundings where
  envVar _ := .error "environment variable not found"
  readToString _ := .error "No such file or directory (os error 2)"

def getReports (now : DateTime) : Action := .call nowhere "reports" reports false now

/-- Two calls find nothing, one of them exchanges a token and the other one reuses it. -/
def coalesced : List (ℕ × Action) :=
  [(0, getReports 0), (0, .read), (0, .findLock), (1, getReports 0), (1, .read), (1, .findLock),
    (0, .acquire 0), (0, .read), (0, .read),
    (0, .respond (.ok ⟨"first", some "rotated", some (Clock.fromSecs 3600)⟩) 0), (0, .read),
    (0, .write), (1, .acquire 0), (1, .read)]

theorem single_flight_coalesced : ∃ es s, es.map Prod.fst = coalesced ∧
    Runs machine.Step machine.init es s ∧ SingleFlight es s ∧
    es.getLast?.map (·.2.ended) = some (some (.returned (.ok "first"))) := by
  have hr := @Machine.runs_of_execute _ _ _ machine machine.init _ coalesced _ rfl
  exact ⟨_, _, rfl, hr, @single_flight _ _ hr, rfl⟩

end OutboundTokenManager
end RustMcpCore.Outbound
