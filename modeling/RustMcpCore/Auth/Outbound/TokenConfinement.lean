import RustMcpCore.Auth.Outbound.SingleFlight

/-! # Whose tokens a caller gets

One cache holds the tokens for every upstream, grant, scope and audience. A token that was
issued for one cache key is never given to a caller with another one, and a refresh token is
never presented for another one, however the callers are interleaved or dropped.
-/
namespace RustMcpCore.Outbound
open Library

namespace OutboundTokenManager

section Origins
variable (es : List (Event Action Shown)) (key : OutboundOauth2CacheKey)

/-- A token response that has come for the key. -/
def Answered (result : TokenExchangeResult) : Prop :=
  ∃ i now shown, ((i, .respond (.ok result) now), shown) ∈ es ∧
    shown.response = some (key, result.refreshToken)

def Issued (token : String) : Prop := ∃ result, Answered es key result ∧ result.accessToken = token

/-- The call with these settings. -/
def Starts (i : ℕ) (resolved : OutboundOauth2ResolvedConfig) (e : Event Action Shown) : Prop :=
  e.1.1 = i ∧ ∃ surroundings upstreamName auth forceRefresh now,
    e.1.2 = .call surroundings upstreamName auth forceRefresh now ∧
    OutboundOauth2ResolvedConfig.fromAuth surroundings upstreamName auth = .ok resolved

/-- A refresh token for the key, from its token endpoint or from the settings. -/
def Granted (token : String) : Prop :=
  (∃ result, Answered es key result ∧ result.refreshToken = some token) ∨
    ∃ i resolved, (∃ e ∈ es, Starts i resolved e) ∧ resolved.cacheKey = key ∧
      resolved.bootstrapRefreshToken = some token

/-- What a caller may do with its call after such a past. -/
structure ForOwnKey (e : Event Action Shown) : Prop where
  returned : ∀ token, e.2.ended = some (.returned (.ok token)) → ∃ resolved,
    Since (Starts e.1.1 resolved) (Calls e.1.1) es ∧ Issued es resolved.cacheKey token
  presented : ∀ key presented, e.2.exchange = some (key, presented) → ∃ resolved,
    Since (Starts e.1.1 resolved) (Calls e.1.1) es ∧ resolved.cacheKey = key ∧
      ∀ token, presented = some token → Granted es key token

/-- An entry of the cache. -/
structure Sourced (entry : CachedOutboundToken) : Prop where
  access : Issued es key entry.accessToken
  refresh : ∀ token, entry.refreshToken = some token → Granted es key token

/-- What a caller carries through its critical section. -/
def Carries : Critical → Prop
  | .received result _ => Answered es key result
  | .storing entry => Sourced es key entry
  | .reprobing _ | .loading | .inFlight => True

def Holds : Stage → Prop
  | .outside _ => True
  | .inside _ critical => Carries es key critical

end Origins

/-- The cache and the callers have only what was meant for their keys. -/
structure Confined (es : List (Event Action Shown)) (s : State) : Prop where
  entries : ∀ key entry, s.shared.entries.lookup key = some entry → Sourced es key entry
  started : ∀ i caller, s.tasks i = some caller → Since (Starts i caller.resolved) (Calls i) es
  carried : ∀ i caller, s.tasks i = some caller → Holds es caller.resolved.cacheKey caller.stage

section Longer
variable {es es' : List (Event Action Shown)} {key : OutboundOauth2CacheKey}

theorem Answered.mono (hsub : es ⊆ es') {result : TokenExchangeResult} (h : Answered es key result) :
    Answered es' key result := by
  obtain ⟨i, now, shown, hmem, hresponse⟩ := h
  exact ⟨i, now, shown, hsub hmem, hresponse⟩

theorem Issued.mono (hsub : es ⊆ es') {token : String} (h : Issued es key token) :
    Issued es' key token := by
  obtain ⟨result, hanswered, htoken⟩ := h
  exact ⟨result, hanswered.mono hsub, htoken⟩

theorem Granted.mono (hsub : es ⊆ es') {token : String} (h : Granted es key token) :
    Granted es' key token := by
  rcases h with ⟨result, hanswered, htoken⟩ | ⟨i, resolved, ⟨e, he, hstarts⟩, hkey, htoken⟩
  · exact .inl ⟨result, hanswered.mono hsub, htoken⟩
  · exact .inr ⟨i, resolved, ⟨e, hsub he, hstarts⟩, hkey, htoken⟩

theorem Sourced.mono (hsub : es ⊆ es') {entry : CachedOutboundToken} (h : Sourced es key entry) :
    Sourced es' key entry where
  access := h.access.mono hsub
  refresh := fun token htoken => (h.refresh token htoken).mono hsub

theorem Holds.mono (hsub : es ⊆ es') {stage : Stage} (h : Holds es key stage) :
    Holds es' key stage := by
  cases stage with
  | outside phase => trivial
  | inside lock critical =>
    cases critical with
    | received result expiresAt => exact Answered.mono hsub h
    | storing entry => exact Sourced.mono hsub h
    | reprobing now | loading | inFlight => trivial

end Longer

section Steps
variable {es : List (Event Action Shown)} {s t : State} {e : Event Action Shown}

/-- A refresh token that a caller finds for its key. -/
theorem refreshTokenOf_granted (hs : Confined es s) {i : ℕ} {caller : Caller}
    (hcaller : s.tasks i = some caller) {token : String}
    (h : caller.resolved.refreshTokenOf s.shared.entries = some token) :
    Granted es caller.resolved.cacheKey token := by
  rcases Option.or_eq_some_iff.mp h with hcached | ⟨-, hbootstrap⟩
  · obtain ⟨entry, hentry, htoken⟩ := Option.bind_eq_some_iff.mp hcached
    exact (hs.entries _ entry hentry).refresh token htoken
  · obtain ⟨past, start, rest, rfl, hstart, -⟩ := hs.started i caller hcaller
    refine .inr ⟨i, caller.resolved, ⟨start, ?_, hstart⟩, rfl, hbootstrap⟩
    exact List.mem_append_right past List.mem_cons_self

theorem exchangeToken_carries (resolved : OutboundOauth2ResolvedConfig) (key : OutboundOauth2CacheKey) :
    Carries es key resolved.exchangeToken.1 := by
  unfold OutboundOauth2ResolvedConfig.exchangeToken
  cases resolved.grant with
  | clientCredentials => trivial
  | refreshToken => trivial

theorem exchangeToken_presents_own {resolved : OutboundOauth2ResolvedConfig}
    {key : OutboundOauth2CacheKey} {presented : Option String}
    (h : resolved.exchangeToken.2.exchange = some (key, presented)) :
    key = resolved.cacheKey ∧ presented = none := by
  unfold OutboundOauth2ResolvedConfig.exchangeToken at h
  cases hgrant : resolved.grant with
  | clientCredentials =>
    rw [hgrant] at h
    cases h
    exact ⟨rfl, rfl⟩
  | refreshToken =>
    rw [hgrant] at h
    cases h

theorem forOwnKey_of_quiet (hended : ∀ token, e.2.ended ≠ some (.returned (.ok token)))
    (hexchange : e.2.exchange = none) : ForOwnKey es e where
  returned := fun token htoken => absurd htoken (hended token)
  presented := fun key presented hpresents => by
    rw [hexchange] at hpresents
    cases hpresents

theorem forOwnKey_exchange {resolved : OutboundOauth2ResolvedConfig}
    (hstarted : Since (Starts e.1.1 resolved) (Calls e.1.1) es)
    (hshown : e.2 = resolved.exchangeToken.2) : ForOwnKey es e where
  returned := fun token htoken => by
    rw [hshown, OutboundOauth2ResolvedConfig.exchangeToken_ended] at htoken
    cases htoken
  presented := fun key presented hpresents => by
    rw [hshown] at hpresents
    obtain ⟨rfl, rfl⟩ := exchangeToken_presents_own hpresents
    refine ⟨resolved, hstarted, rfl, fun token htoken => ?_⟩
    cases htoken

theorem actInside_respond_ended {resolved : OutboundOauth2ResolvedConfig} {entries entries' : Entries}
    {answer : Except McpError TokenExchangeResult} {now : DateTime} {critical' : Option Critical}
    {shown : Shown}
    (h : resolved.actInside entries .inFlight (.respond answer now) = some (entries', critical', shown))
    (token : String) : shown.ended ≠ some (.returned (.ok token)) := by
  unfold OutboundOauth2ResolvedConfig.actInside at h
  cases answer with
  | error error =>
    cases h
    intro heq
    cases heq
  | ok result =>
    dsimp only at h
    split at h
    all_goals
      cases h
      intro heq
      cases heq

/-- The step of a caller is about its own key. -/
theorem step_forOwnKey (hs : Confined es s) (he : machine.Step s e t) : ForOwnKey es e := by
  have hact : act s.shared (s.tasks e.1.1) e.1.2 = some (t.shared, t.tasks e.1.1, e.2) :=
    Program.step_self he
  obtain ⟨⟨i, action⟩, shown⟩ := e
  rcases act_cases hact with ⟨_, _, _, _, _, -, -, -, hexchange, -, hended, -⟩ |
    ⟨resolved, forceRefresh, phase, stage, htask, houtside, -⟩ |
    ⟨resolved, forceRefresh, lock, critical, entries, critical', htask, hinside, -, -⟩
  · exact forOwnKey_of_quiet hended hexchange
  · have hstarted := hs.started _ _ htask
    rcases OutboundOauth2ResolvedConfig.actOutside_cases houtside with
      ⟨-, -, hexchange, -, hended⟩ | ⟨-, -, rfl, -⟩ | ⟨-, -, rfl, -⟩ |
      ⟨_, now, critical, -, -, -, -, -, hstart⟩
    · refine ⟨fun token htoken => ?_, fun key presented hpresents => ?_⟩
      · obtain ⟨now, entry, -, hentry, hfresh⟩ := hended token htoken
        have hlookup := (Entries.getFresh_eq_some.mp hfresh).1
        exact ⟨resolved, hstarted, hentry ▸ (hs.entries _ entry hlookup).access⟩
      · rw [hexchange] at hpresents
        cases hpresents
    · exact forOwnKey_of_quiet (fun _ htoken => by cases htoken) rfl
    · exact forOwnKey_of_quiet (fun _ htoken => by cases htoken) rfl
    · cases forceRefresh with
      | true => exact forOwnKey_exchange hstarted (congrArg Prod.snd hstart)
      | false =>
        cases hstart
        exact forOwnKey_of_quiet (fun _ htoken => by cases htoken) rfl
  · have hstarted := hs.started _ _ htask
    have hcarried := hs.carried _ _ htask
    cases OutboundOauth2ResolvedConfig.actInside_step hinside with
    | overflowed now fresh => exact forOwnKey_of_quiet (fun _ htoken => by cases htoken) rfl
    | tokenless error found => exact forOwnKey_of_quiet (fun _ htoken => by cases htoken) rfl
    | refused error now => exact forOwnKey_of_quiet (fun _ htoken => by cases htoken) rfl
    | answered result now time expiry =>
      exact forOwnKey_of_quiet (fun _ htoken => by cases htoken) rfl
    | merged result time => exact forOwnKey_of_quiet (fun _ htoken => by cases htoken) rfl
    | dropped critical => exact forOwnKey_of_quiet (fun _ htoken => by cases htoken) rfl
    | unreadable result now ended expiry =>
      exact forOwnKey_of_quiet (actInside_respond_ended hinside) rfl
    | stale now fresh => exact forOwnKey_exchange hstarted rfl
    | cached now entry fresh =>
      refine ⟨fun token htoken => ?_, fun key presented hpresents => by cases hpresents⟩
      cases htoken
      have hlookup := (Entries.getFresh_eq_some.mp fresh).1
      exact ⟨resolved, hstarted, (hs.entries _ entry hlookup).access⟩
    | loaded token found =>
      refine ⟨fun token htoken => (by cases htoken), fun key presented hpresents => ?_⟩
      cases hpresents
      refine ⟨resolved, hstarted, rfl, fun found' hfound => ?_⟩
      cases hfound
      exact refreshTokenOf_granted hs htask found
    | stored entry =>
      refine ⟨fun token htoken => ?_, fun key presented hpresents => by cases hpresents⟩
      cases htoken
      exact ⟨resolved, hstarted, hcarried.access⟩

/-- A step leaves the entries as they are, or puts in what its caller carries. -/
theorem step_entries (he : machine.Step s e t) : t.shared.entries = s.shared.entries ∨
    ∃ caller lock entry, s.tasks e.1.1 = some caller ∧ caller.stage = .inside lock (.storing entry) ∧
      t.shared.entries = s.shared.entries.insert caller.resolved.cacheKey entry := by
  have hact : act s.shared (s.tasks e.1.1) e.1.2 = some (t.shared, t.tasks e.1.1, e.2) :=
    Program.step_self he
  obtain ⟨⟨i, action⟩, shown⟩ := e
  rcases act_cases hact with ⟨_, _, _, _, _, -, -, hcache, -⟩ |
    ⟨resolved, forceRefresh, phase, stage, htask, houtside, -⟩ |
    ⟨resolved, forceRefresh, lock, critical, entries, critical', htask, hinside, hcache, -⟩
  · exact .inl (congrArg OutboundTokenCache.entries hcache)
  · left
    rcases OutboundOauth2ResolvedConfig.actOutside_cases houtside with
      ⟨hcache, -⟩ | ⟨hcache, -⟩ | ⟨hcache, -⟩ | ⟨_, _, _, -, -, -, hcache, -⟩
    all_goals rw [hcache]
  · have hentries : t.shared.entries = entries := by
      rw [hcache]
      cases critical' with
      | none => rfl
      | some next => rfl
    rw [hentries]
    cases OutboundOauth2ResolvedConfig.actInside_step hinside with
    | stored entry => exact .inr ⟨_, lock, entry, htask, rfl, rfl⟩
    | _ => exact .inl rfl

theorem act_isCall {cache : OutboundTokenCache} {caller : Caller} {action : Action}
    {out : OutboundTokenCache × Option Caller × Shown} (h : act cache (some caller) action = some out) :
    action.isCall = false := by
  obtain ⟨cache', task', shown⟩ := out
  cases action with
  | call surroundings upstreamName auth forceRefresh now =>
    obtain ⟨resolved, forced, stage⟩ := caller
    cases stage with
    | outside phase =>
      cases phase with
      | probing now | finding | waiting lock => cases h
    | inside lock critical =>
      cases critical with
      | reprobing now | loading | inFlight | received result expiresAt | storing entry => cases h
  | _ => rfl

/-- What the caller of a step has and carries afterwards. -/
theorem step_caller (hs : Confined es s) (he : machine.Step s e t) {caller : Caller}
    (hcaller : t.tasks e.1.1 = some caller) :
    Since (Starts e.1.1 caller.resolved) (Calls e.1.1) (es ++ [e]) ∧
      Holds (es ++ [e]) caller.resolved.cacheKey caller.stage := by
  have hact : act s.shared (s.tasks e.1.1) e.1.2 = some (t.shared, t.tasks e.1.1, e.2) :=
    Program.step_self he
  have hsub : es ⊆ es ++ [e] := List.subset_append_left es [e]
  rw [hcaller] at hact
  have hstays : ∀ earlier, s.tasks e.1.1 = some earlier → earlier.resolved = caller.resolved →
      Since (Starts e.1.1 caller.resolved) (Calls e.1.1) (es ++ [e]) := by
    intro earlier hearlier hresolved
    rw [hearlier] at hact
    have hcall := act_isCall hact
    refine since_append.mpr (.inr ⟨hresolved ▸ hs.started _ earlier hearlier, fun hcalls => ?_⟩)
    exact Bool.false_ne_true (hcall.symm.trans hcalls.2)
  obtain ⟨⟨i, action⟩, shown⟩ := e
  rcases act_cases hact with
    ⟨surroundings, upstreamName, auth, forceRefresh, now, -, haction, -, -, -, -, hnew⟩ |
    ⟨resolved, forceRefresh, phase, stage, htask, houtside, hsome⟩ |
    ⟨resolved, forceRefresh, lock, critical, entries, critical', htask, hinside, -, hsome⟩
  · obtain ⟨hresolved, hstage⟩ := hnew caller rfl
    refine ⟨since_append.mpr (.inl ⟨rfl, _, _, _, _, _, haction, hresolved⟩), ?_⟩
    rw [hstage]
    trivial
  · obtain ⟨next, rfl, rfl⟩ := Option.map_eq_some_iff.mp hsome.symm
    refine ⟨hstays _ htask rfl, ?_⟩
    rcases OutboundOauth2ResolvedConfig.actOutside_cases houtside with
      ⟨-, hstage, -⟩ | ⟨-, hstage, -⟩ | ⟨-, hstage, -⟩ | ⟨_, now, critical, -, -, -, -, hstage, hstart⟩
    · cases hstage
    · cases hstage
      trivial
    · cases hstage
      trivial
    · cases hstage
      cases forceRefresh with
      | true =>
        have hcritical : critical = resolved.exchangeToken.1 := congrArg Prod.fst hstart
        rw [hcritical]
        exact exchangeToken_carries resolved _
      | false =>
        cases hstart
        trivial
  · obtain ⟨next, rfl, rfl⟩ := Option.map_eq_some_iff.mp hsome.symm
    refine ⟨hstays _ htask rfl, ?_⟩
    have hcarried := hs.carried _ _ htask
    generalize hnext : some next = after at hinside
    cases OutboundOauth2ResolvedConfig.actInside_step hinside with
    | stale now fresh =>
      cases hnext
      exact exchangeToken_carries resolved _
    | loaded token found =>
      cases hnext
      trivial
    | answered result now time expiry =>
      cases hnext
      exact ⟨i, now, _, List.mem_append_right es List.mem_cons_self, rfl⟩
    | merged result time =>
      cases hnext
      have hanswered : Answered es resolved.cacheKey result := hcarried
      refine ⟨⟨result, hanswered.mono hsub, rfl⟩, fun token htoken => ?_⟩
      rcases Option.or_eq_some_iff.mp htoken with hnew | ⟨-, hfound⟩
      · exact .inl ⟨result, hanswered.mono hsub, hnew⟩
      · exact (refreshTokenOf_granted hs htask hfound).mono hsub
    | _ => cases hnext

theorem step_confined (hs : Confined es s) (he : machine.Step s e t) : Confined (es ++ [e]) t := by
  have hsub : es ⊆ es ++ [e] := List.subset_append_left es [e]
  constructor
  case entries =>
    intro key entry hentry
    rcases step_entries he with hsame | ⟨caller, lock, stored, hcaller, hstage, hinsert⟩
    · rw [hsame] at hentry
      exact (hs.entries key entry hentry).mono hsub
    · rw [hinsert] at hentry
      by_cases hkey : key = caller.resolved.cacheKey
      · subst hkey
        rw [AList.lookup_insert] at hentry
        cases hentry
        have hcarried := hs.carried _ caller hcaller
        rw [hstage] at hcarried
        exact Sourced.mono hsub hcarried
      · rw [AList.lookup_insert_ne hkey] at hentry
        exact (hs.entries key entry hentry).mono hsub
  case started =>
    intro i caller hcaller
    by_cases hi : i = e.1.1
    · subst hi
      exact (step_caller hs he hcaller).1
    · rw [Program.step_other he hi] at hcaller
      exact since_append.mpr (.inr ⟨hs.started i caller hcaller, fun hcalls => hi hcalls.1.symm⟩)
  case carried =>
    intro i caller hcaller
    by_cases hi : i = e.1.1
    · subst hi
      exact (step_caller hs he hcaller).2
    · rw [Program.step_other he hi] at hcaller
      exact (hs.carried i caller hcaller).mono hsub

theorem runs_confined (hr : Runs machine.Step machine.init es s) : Confined es s := by
  refine hr.history Confined (fun _ _ _ _ hs he => step_confined hs he) ⟨?_, ?_, ?_⟩
  · intro key entry hentry
    cases hentry
  · intro i caller hcaller
    cases hcaller
  · intro i caller hcaller
    cases hcaller

/-- In every run each caller gets and presents only what was issued or configured for the cache
key of its own call, and two calls have one key only for one upstream, grant and audience, the same
scopes and the same further parameters. -/
theorem tokens_stay_with_their_key (hr : Runs machine.Step machine.init es s) :
    Each ForOwnKey es ∧
      ∀ surroundings upstreamName auth resolved surroundings' upstreamName' auth' resolved',
        OutboundOauth2ResolvedConfig.fromAuth surroundings upstreamName auth = .ok resolved →
        OutboundOauth2ResolvedConfig.fromAuth surroundings' upstreamName' auth' = .ok resolved' →
        (resolved.cacheKey = resolved'.cacheKey ↔
          SameTarget upstreamName auth upstreamName' auth') := by
  refine ⟨?_, fun surroundings upstreamName auth resolved surroundings' upstreamName' auth' resolved'
    hresolved hresolved' => ?_⟩
  · rintro past e rest rfl
    obtain ⟨before, hpast, hrest⟩ := hr.split
    cases hrest with
    | cons hstep _ => exact step_forOwnKey (runs_confined hpast) hstep
  · rw [OutboundOauth2ResolvedConfig.fromAuth_cacheKey hresolved,
      OutboundOauth2ResolvedConfig.fromAuth_cacheKey hresolved']
    exact OutboundOauth2CacheKey.fromAuth_eq_iff

/-- The same settings for another upstream, when the first one has a token already. -/
def another : List (ℕ × Action) :=
  [(0, getReports 0), (0, .read), (0, .findLock), (0, .acquire 0), (0, .read), (0, .read),
    (0, .respond (.ok ⟨"first", some "rotated", none⟩) 0), (0, .read), (0, .write),
    (1, .call nowhere "audits" reports false 0), (1, .read),
    (1, .findLock), (1, .acquire 0), (1, .read), (1, .read)]

theorem tokens_stay_with_their_key_another : ∃ es s, es.map Prod.fst = another ∧
    Runs machine.Step machine.init es s ∧ Each ForOwnKey es ∧
    es.getLast?.map (fun e => e.2.exchange.map fun exchange => (exchange.1.upstreamName, exchange.2)) =
      some (some ("audits", some "boot")) := by
  have hr := @Machine.runs_of_execute _ _ _ machine machine.init _ another _ rfl
  exact ⟨_, _, rfl, hr, (@tokens_stay_with_their_key _ _ hr).1, rfl⟩

end Steps

end OutboundTokenManager
end RustMcpCore.Outbound
