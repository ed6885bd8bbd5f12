import RustMcpCore.Auth.Outbound.SingleFlight

/-! # The refresh token that the next exchange presents

A token response may carry a new refresh token, and the cache gets it only when its
caller has come to the end of its critical section. Until then the caller is the only
one that has it.
-/
namespace RustMcpCore.Outbound
open Library

namespace Critical

/-- The refresh token that the cache has after the section, if it is gone through to
the end. -/
def promised (cached : Option String) : Critical → Option String
  | .reprobing _ | .loading | .inFlight => cached
  | .received result _ => result.refreshToken.or cached
  | .storing entry => entry.refreshToken

/-- The refresh token that is lost with the step: the caller has received it, and the
step ends the caller before it is stored. -/
def loses : Critical → Action → Option String
  | .inFlight, .respond (.ok result) now =>
    match expiresAt now result.expiresIn with
    | some (.ok _) => none
    | _ => result.refreshToken
  | .received result _, .drop => result.refreshToken
  | .storing entry, .drop => entry.refreshToken
  | _, _ => none

end Critical

namespace OutboundOauth2ResolvedConfig
variable {resolved : OutboundOauth2ResolvedConfig} {entries entries' : Entries}
  {critical : Critical} {critical' : Option Critical} {action : Action} {shown : Shown}

theorem exchangeToken_promised (cached : Option String) :
    resolved.exchangeToken.1.promised cached = cached ∧
      resolved.exchangeToken.2.response = none := by
  unfold exchangeToken
  cases resolved.grant <;> exact ⟨rfl, rfl⟩

theorem exchangeToken_presents {key : OutboundOauth2CacheKey} {presented : Option String}
    (h : resolved.exchangeToken.2.exchange = some (key, presented)) :
    key = resolved.cacheKey ∧ resolved.grant = .clientCredentials := by
  unfold exchangeToken at h
  cases hgrant : resolved.grant with
  | clientCredentials =>
    rw [hgrant] at h
    cases h
    exact ⟨rfl, rfl⟩
  | refreshToken =>
    rw [hgrant] at h
    cases h

theorem actInside_presents {key : OutboundOauth2CacheKey} {presented : Option String}
    (h : resolved.actInside entries critical action = some (entries', critical', shown))
    (hexchange : shown.exchange = some (key, presented)) :
    key = resolved.cacheKey ∧ (resolved.grant = .clientCredentials ∨
      critical = .loading ∧ presented = resolved.refreshTokenOf entries) := by
  cases actInside_step h with
  | stale =>
    obtain ⟨hkey, hgrant⟩ := exchangeToken_presents hexchange
    exact ⟨hkey, .inl hgrant⟩
  | loaded token found =>
    cases hexchange
    exact ⟨rfl, .inr ⟨rfl, found.symm⟩⟩
  | _ => cases hexchange

theorem start_promised {forceRefresh : Bool} {now : DateTime} (cached : Option String)
    (h : (critical, shown) =
      if forceRefresh then resolved.exchangeToken else (.reprobing now, {})) :
    critical.promised cached = cached ∧ shown.response = none := by
  cases forceRefresh with
  | false =>
    cases h
    exact ⟨rfl, rfl⟩
  | true =>
    have hcritical : critical = resolved.exchangeToken.1 := congrArg Prod.fst h
    have hshown : shown = resolved.exchangeToken.2 := congrArg Prod.snd h
    rw [hcritical, hshown]
    exact exchangeToken_promised cached

theorem refreshTokenOf_congr (h : entries'.lookup resolved.cacheKey = entries.lookup resolved.cacheKey) :
    resolved.refreshTokenOf entries' = resolved.refreshTokenOf entries := by
  rw [refreshTokenOf, Entries.refreshToken, h]
  rfl

/-- A stretch of the section concerns its own key. -/
theorem actInside_other (h : resolved.actInside entries critical action =
      some (entries', critical', shown)) :
    (∀ key, key ≠ resolved.cacheKey → entries'.lookup key = entries.lookup key) ∧
      ∀ key token, shown.response = some (key, token) → key = resolved.cacheKey := by
  cases actInside_step h with
  | stale =>
    refine ⟨fun _ _ => rfl, ?_⟩
    rw [(exchangeToken_promised none).2]
    exact nofun
  | unreadable | answered => exact ⟨fun _ _ => rfl, fun _ _ hresponse => by cases hresponse; rfl⟩
  | stored => exact ⟨fun _ => AList.lookup_insert_ne, nofun⟩
  | _ => exact ⟨fun _ _ => rfl, nofun⟩

/-- A stretch of the section keeps what it has promised, up to the refresh token that
it receives, if it loses no other token than the one that the cache has. -/
theorem actInside_promised {current : Option String} (hcurrent : current.isSome = true)
    (h : resolved.actInside entries critical action = some (entries', critical', shown))
    (hpromised : critical.promised (resolved.refreshTokenOf entries) = current)
    (hloses : ∀ token, critical.loses action = some token →
      resolved.refreshTokenOf entries = some token) :
    (critical'.elim (resolved.refreshTokenOf entries') fun next =>
        next.promised (resolved.refreshTokenOf entries')) =
      (shown.response.bind Prod.snd).or current := by
  cases actInside_step h with
  | stale =>
    obtain ⟨hkept, hquiet⟩ := exchangeToken_promised (resolved.refreshTokenOf entries)
    rw [hquiet, Option.elim_some, hkept]
    exact hpromised
  | overflowed | cached | tokenless | loaded | refused | merged => exact hpromised
  | unreadable result now ended expiry =>
    cases htoken : result.refreshToken with
    | none => exact hpromised
    | some token =>
      have hlost : Critical.inFlight.loses (.respond (.ok result) now) = some token := by
        simpa only [Critical.loses] using htoken
      simpa [htoken] using hloses token hlost
  | answered result => exact congrArg result.refreshToken.or hpromised
  | stored entry =>
    obtain ⟨token, rfl⟩ := Option.isSome_iff_exists.mp hcurrent
    have htoken : entry.refreshToken = some token := hpromised
    simp [refreshTokenOf, Entries.refreshToken, htoken]
  | dropped =>
    change resolved.refreshTokenOf entries = current
    cases critical with
    | reprobing | loading | inFlight => exact hpromised
    | received result time =>
      rw [← hpromised]
      cases htoken : result.refreshToken with
      | none => simp [Critical.promised, htoken]
      | some token => simpa [Critical.promised, htoken] using hloses token htoken
    | storing entry =>
      obtain ⟨token, rfl⟩ := Option.isSome_iff_exists.mp hcurrent
      exact hloses token hpromised

end OutboundOauth2ResolvedConfig

namespace OutboundTokenManager

/-! ## Refresh tokens of a key -/

/-- The refresh token that a token response for the key carries. -/
def issued (key : OutboundOauth2CacheKey) (e : Event Action Shown) : Option String :=
  match e.2.response with
  | some (key', refreshToken) => if key' = key then refreshToken else none
  | none => none

def lastIssued (key : OutboundOauth2CacheKey) (es : List (Event Action Shown)) : Option String :=
  (es.filterMap (issued key)).getLast?

theorem lastIssued_append (key : OutboundOauth2CacheKey) (es : List (Event Action Shown))
    (e : Event Action Shown) : lastIssued key (es ++ [e]) = (issued key e).or (lastIssued key es) := by
  unfold lastIssued
  rw [List.filterMap_append, List.getLast?_append]
  cases hissued : issued key e with
  | none => simp [hissued]
  | some token => simp [hissued]

section Bootstrap
variable (bootstrap : OutboundOauth2CacheKey → Option String)

/-- The most recently issued refresh token, or else the configured one. -/
def current (key : OutboundOauth2CacheKey) (es : List (Event Action Shown)) : Option String :=
  (lastIssued key es).or (bootstrap key)

/-- The calls for a key read one configured token, and no caller is ended between the
arrival of a token that the cache does not have and its storing. -/
structure Keeps (s : State) (e : Event Action Shown) : Prop where
  configured : ∀ surroundings upstreamName auth forceRefresh now resolved,
    e.1.2 = .call surroundings upstreamName auth forceRefresh now →
    OutboundOauth2ResolvedConfig.fromAuth surroundings upstreamName auth = .ok resolved →
    resolved.grant = .refreshToken → resolved.bootstrapRefreshToken = bootstrap resolved.cacheKey
  stored : ∀ resolved forceRefresh lock critical token,
    s.tasks e.1.1 = some ⟨resolved, forceRefresh, .inside lock critical⟩ →
    resolved.grant = .refreshToken → critical.loses e.1.2 = some token →
    resolved.refreshTokenOf s.shared.entries = some token

structure Rotated (es : List (Event Action Shown)) (s : State) : Prop where
  configured : ∀ i caller, s.tasks i = some caller →
    caller.resolved.cacheKey.grant = caller.resolved.grant ∧
      (caller.resolved.grant = .refreshToken →
        caller.resolved.bootstrapRefreshToken = bootstrap caller.resolved.cacheKey ∧
          caller.resolved.bootstrapRefreshToken.isSome = true)
  inside : ∀ i resolved forceRefresh lock critical,
    s.tasks i = some ⟨resolved, forceRefresh, .inside lock critical⟩ →
    resolved.grant = .refreshToken →
    critical.promised (resolved.refreshTokenOf s.shared.entries) =
      current bootstrap resolved.cacheKey es
  outside : ∀ key, key.grant = .refreshToken →
    (∀ i caller, s.tasks i = some caller → caller.resolved.cacheKey = key →
      caller.stage.held = none) →
    (s.shared.entries.refreshToken key).or (bootstrap key) = current bootstrap key es

variable {bootstrap} {s t : State} {e : Event Action Shown} {es : List (Event Action Shown)}

theorem current_append (key : OutboundOauth2CacheKey) :
    current bootstrap key (es ++ [e]) = (issued key e).or (current bootstrap key es) := by
  rw [current, lastIssued_append, Option.or_assoc]
  rfl

theorem issued_of_none {key : OutboundOauth2CacheKey} (h : e.2.response = none) :
    issued key e = none := by
  rw [issued, h]

/-- Nobody acts on the entry of a key but the caller inside its critical section. -/
theorem step_frame (hstep : machine.Step s e t) {key : OutboundOauth2CacheKey}
    (hout : ∀ caller, s.tasks e.1.1 = some caller → caller.resolved.cacheKey = key →
      caller.stage.held = none) :
    t.shared.entries.lookup key = s.shared.entries.lookup key ∧ issued key e = none := by
  have hact := Program.step_self hstep
  rcases act_cases hact with ⟨_, _, _, _, _, _, _, hcache, _, hresponse, _⟩ |
    ⟨_, _, _, _, _, houtside, _⟩ | ⟨resolved, _, _, _, _, critical', htask, hinside, hcache, _⟩
  · rw [hcache]
    exact ⟨rfl, issued_of_none hresponse⟩
  · rcases OutboundOauth2ResolvedConfig.actOutside_cases houtside with
      ⟨hcache, _, _, hresponse, _⟩ | ⟨hcache, _, hshown, _⟩ | ⟨hcache, _, hshown, _⟩ |
        ⟨_, _, _, _, _, _, hcache, _, hstart⟩
    · rw [hcache]
      exact ⟨rfl, issued_of_none hresponse⟩
    · rw [hcache]
      exact ⟨rfl, issued_of_none (by rw [hshown])⟩
    · rw [hcache]
      exact ⟨rfl, issued_of_none (by rw [hshown])⟩
    · rw [hcache]
      exact ⟨rfl, issued_of_none (OutboundOauth2ResolvedConfig.start_promised none hstart).2⟩
  · have hne : key ≠ resolved.cacheKey := by
      intro hkey
      cases hout _ htask hkey.symm
    obtain ⟨hlookup, hresponse⟩ := OutboundOauth2ResolvedConfig.actInside_other hinside
    rw [hcache]
    refine ⟨?_, ?_⟩
    · cases critical' <;> exact hlookup key hne
    · unfold issued
      split
      · rename_i key' token h
        rw [if_neg fun hkey => hne (hkey.symm.trans (hresponse key' token h))]
      · rfl

theorem step_configured (hs : Rotated bootstrap es s) (hstep : machine.Step s e t)
    (hguard : Keeps bootstrap s e) {i : ℕ} {caller : Caller} (htask : t.tasks i = some caller) :
    caller.resolved.cacheKey.grant = caller.resolved.grant ∧
      (caller.resolved.grant = .refreshToken →
        caller.resolved.bootstrapRefreshToken = bootstrap caller.resolved.cacheKey ∧
          caller.resolved.bootstrapRefreshToken.isSome = true) := by
  by_cases hi : i = e.1.1
  · subst hi
    have hact := Program.step_self hstep
    rcases act_cases hact with ⟨_, _, _, _, _, _, haction, _, _, _, _, hcall⟩ |
      ⟨_, _, _, _, hbefore, _, hafter⟩ | ⟨_, _, _, _, _, _, hbefore, _, _, hafter⟩
    · obtain ⟨hresolved, _⟩ := hcall caller htask
      obtain ⟨hkey, hsome⟩ := OutboundOauth2ResolvedConfig.fromAuth_grant hresolved
      refine ⟨hkey, fun hgrant => ⟨?_, hsome hgrant⟩⟩
      exact hguard.configured _ _ _ _ _ _ haction hresolved hgrant
    · rw [htask] at hafter
      obtain ⟨_, _, rfl⟩ := Option.map_eq_some_iff.mp hafter.symm
      have hconfigured := hs.configured _ _ hbefore
      exact hconfigured
    · rw [htask] at hafter
      obtain ⟨_, _, rfl⟩ := Option.map_eq_some_iff.mp hafter.symm
      have hconfigured := hs.configured _ _ hbefore
      exact hconfigured
  · rw [Program.step_other hstep hi] at htask
    exact hs.configured i caller htask

/-- What a caller inside the section does next keeps its promise to the cache. -/
theorem step_promised (hs : Rotated bootstrap es s) (hstep : machine.Step s e t)
    (hguard : Keeps bootstrap s e) {resolved : OutboundOauth2ResolvedConfig} {forceRefresh : Bool}
    {lock : Lock} {critical : Critical}
    (htask : s.tasks e.1.1 = some ⟨resolved, forceRefresh, .inside lock critical⟩)
    (hgrant : resolved.grant = .refreshToken) :
    ∃ critical', (t.tasks e.1.1 = Option.map
        (fun next => ⟨resolved, forceRefresh, .inside lock next⟩) critical') ∧
      (critical'.elim (resolved.refreshTokenOf t.shared.entries) fun next =>
        next.promised (resolved.refreshTokenOf t.shared.entries)) =
          current bootstrap resolved.cacheKey (es ++ [e]) := by
  have hact := Program.step_self hstep
  rw [htask] at hact
  obtain ⟨⟨entries, critical', shown⟩, hinside, heq⟩ := Option.map_eq_some_iff.mp hact
  simp only [Prod.mk.injEq] at heq
  obtain ⟨hcache, hafter, rfl⟩ := heq
  have hentries : t.shared.entries = entries := by
    rw [← hcache]
    cases critical' <;> rfl
  have hconfigured := hs.configured _ _ htask
  obtain ⟨hboot, hsome⟩ := hconfigured.2 hgrant
  have hcurrent : (current bootstrap resolved.cacheKey es).isSome = true := by
    rw [current, ← hboot, Option.isSome_or, hsome, Bool.or_true]
  have hissued : issued resolved.cacheKey e = e.2.response.bind Prod.snd := by
    unfold issued
    cases hresponse : e.2.response with
    | none => rfl
    | some response =>
      obtain ⟨key, token⟩ := response
      obtain rfl := (OutboundOauth2ResolvedConfig.actInside_other hinside).2 key token hresponse
      simp
  refine ⟨critical', hafter.symm, ?_⟩
  rw [current_append, hissued, hentries]
  exact OutboundOauth2ResolvedConfig.actInside_promised hcurrent hinside
    (hs.inside _ _ _ _ _ htask hgrant) fun token hlost =>
      hguard.stored _ _ _ _ token htask hgrant hlost

/-- A caller that takes the lock of its key finds nobody else inside. -/
theorem step_enters (hex : Excluded s) (hstep : machine.Step s e t)
    {resolved : OutboundOauth2ResolvedConfig} {forceRefresh : Bool} {lock : Lock}
    {critical : Critical} (hout : ∀ caller, s.tasks e.1.1 = some caller →
      caller.resolved.cacheKey = resolved.cacheKey → caller.stage.held = none)
    (htask : t.tasks e.1.1 = some ⟨resolved, forceRefresh, .inside lock critical⟩) :
    (∀ cached, critical.promised cached = cached) ∧
      ∀ i caller, s.tasks i = some caller → caller.resolved.cacheKey = resolved.cacheKey →
        caller.stage.held = none := by
  have hact := Program.step_self hstep
  rcases act_cases hact with ⟨_, _, _, _, _, _, _, _, _, _, _, hcall⟩ |
    ⟨_, _, _, _, hbefore, houtside, hafter⟩ | ⟨_, _, _, _, _, _, hbefore, _, _, hafter⟩
  · cases (hcall _ htask).2
  · rw [htask] at hafter
    obtain ⟨_, hstage, heq⟩ := Option.map_eq_some_iff.mp hafter.symm
    cases heq
    rcases OutboundOauth2ResolvedConfig.actOutside_cases houtside with
      ⟨_, hnone, _⟩ | ⟨_, hfinding, _⟩ | ⟨_, hwaiting, _⟩ |
        ⟨_, _, _, rfl, _, hfree, _, hinside, hstart⟩
    · rw [hnone] at hstage
      cases hstage
    · rw [hfinding] at hstage
      cases hstage
    · rw [hwaiting] at hstage
      cases hstage
    · rw [hinside] at hstage
      cases hstage
      refine ⟨fun cached =>
        (OutboundOauth2ResolvedConfig.start_promised cached hstart).1, ?_⟩
      intro i caller hcaller hkey
      cases hheld : caller.stage.held with
      | none => rfl
      | some other =>
        have hother := hex.locks i caller other hcaller (Stage.lock_of_held hheld)
        have hlock := hex.locks _ _ _ hbefore rfl
        rw [hkey] at hother
        obtain rfl := Option.some.inj (hother.symm.trans hlock)
        refine absurd (hex.exclusive.locked i other ?_) hfree
        rw [hcaller]
        exact hheld
  · rw [htask] at hafter
    obtain ⟨_, _, heq⟩ := Option.map_eq_some_iff.mp hafter.symm
    cases heq
    cases hout _ hbefore rfl

/-- The one that acts is inside the critical section of the key. -/
def Inside (key : OutboundOauth2CacheKey) (i : ℕ) (s : State) : Prop :=
  ∃ resolved forceRefresh lock critical, resolved.cacheKey = key ∧
    s.tasks i = some ⟨resolved, forceRefresh, .inside lock critical⟩

theorem held_eq_none {key : OutboundOauth2CacheKey} {i : ℕ} (h : ¬ Inside key i s)
    {caller : Caller} (htask : s.tasks i = some caller) (hkey : caller.resolved.cacheKey = key) :
    caller.stage.held = none := by
  obtain ⟨resolved, forceRefresh, stage⟩ := caller
  cases stage with
  | outside => rfl
  | inside lock critical => exact absurd ⟨resolved, forceRefresh, lock, critical, hkey, htask⟩ h

theorem step_rotated (hex : Excluded s) (hs : Rotated bootstrap es s)
    (he : Guarded machine.Step (Keeps bootstrap) s e t) : Rotated bootstrap (es ++ [e]) t := by
  obtain ⟨hstep, hguard⟩ := he
  refine ⟨fun i caller htask => step_configured hs hstep hguard htask, ?_, ?_⟩
  · intro i resolved forceRefresh lock critical htask hgrant
    by_cases hin : Inside resolved.cacheKey e.1.1 s
    · obtain ⟨resolved', _, _, _, hkey, hbefore⟩ := hin
      have hgrant' : resolved'.grant = .refreshToken := by
        rw [← (hs.configured _ _ hbefore).1, hkey,
          (step_configured hs hstep hguard htask).1, hgrant]
      obtain ⟨critical', hafter, hpromised⟩ := step_promised hs hstep hguard hbefore hgrant'
      by_cases hi : i = e.1.1
      · subst hi
        rw [htask] at hafter
        obtain ⟨_, rfl, heq⟩ := Option.map_eq_some_iff.mp hafter.symm
        cases heq
        exact hpromised
      · rw [Program.step_other hstep hi] at htask
        exact absurd (hex.unique htask hbefore rfl rfl hkey.symm) hi
    · have hout : ∀ caller, s.tasks e.1.1 = some caller →
          caller.resolved.cacheKey = resolved.cacheKey → caller.stage.held = none :=
        fun _ htask hkey => held_eq_none hin htask hkey
      obtain ⟨hlookup, hquiet⟩ := step_frame hstep hout
      rw [current_append, hquiet, Option.none_or,
        OutboundOauth2ResolvedConfig.refreshTokenOf_congr hlookup]
      by_cases hi : i = e.1.1
      · subst hi
        obtain ⟨hpromised, hnobody⟩ := step_enters hex hstep hout htask
        obtain ⟨hkey, hboot⟩ := step_configured hs hstep hguard htask
        rw [hpromised, OutboundOauth2ResolvedConfig.refreshTokenOf, (hboot hgrant).1]
        exact hs.outside _ (hkey.trans hgrant) hnobody
      · rw [Program.step_other hstep hi] at htask
        exact hs.inside i _ _ _ _ htask hgrant
  · intro key hgrant hout
    by_cases hin : Inside key e.1.1 s
    · obtain ⟨resolved, _, _, _, rfl, hbefore⟩ := hin
      obtain ⟨hkey, hboot⟩ := hs.configured _ _ hbefore
      have hgrant' : resolved.grant = .refreshToken := hkey.symm.trans hgrant
      obtain ⟨critical', hafter, hpromised⟩ := step_promised hs hstep hguard hbefore hgrant'
      cases critical' with
      | none =>
        rw [← (hboot hgrant').1]
        exact hpromised
      | some next => cases hout _ _ hafter rfl
    · have hquiet := step_frame hstep fun _ htask hkey => held_eq_none hin htask hkey
      rw [current_append, hquiet.2, Option.none_or, Entries.refreshToken, hquiet.1]
      refine hs.outside key hgrant fun i caller htask hkey => ?_
      by_cases hi : i = e.1.1
      · rw [hi] at htask
        exact held_eq_none hin htask hkey
      · rw [← Program.step_other hstep hi] at htask
        exact hout i caller htask hkey

/-- An exchange is one of client credentials, or it presents the cached refresh token
or else the one of the settings. -/
theorem act_presents {cache cache' : OutboundTokenCache} {task task' : Option Caller}
    {action : Action} {shown : Shown} {key : OutboundOauth2CacheKey} {presented : Option String}
    (h : act cache task action = some (cache', task', shown))
    (hexchange : shown.exchange = some (key, presented)) :
    ∃ resolved forceRefresh stage, task = some ⟨resolved, forceRefresh, stage⟩ ∧
      key = resolved.cacheKey ∧ (resolved.grant = .clientCredentials ∨
        ∃ lock, stage = .inside lock .loading ∧
          presented = resolved.refreshTokenOf cache.entries) := by
  rcases act_cases h with ⟨_, _, _, _, _, _, _, _, hnone, _⟩ |
    ⟨resolved, forceRefresh, phase, _, rfl, houtside, _⟩ |
    ⟨resolved, forceRefresh, lock, critical, _, _, rfl, hinside, _⟩
  · rw [hnone] at hexchange
    cases hexchange
  · rcases OutboundOauth2ResolvedConfig.actOutside_cases houtside with
      ⟨_, _, hnone, _⟩ | ⟨_, _, rfl, _⟩ | ⟨_, _, rfl, _⟩ | ⟨_, _, _, _, _, _, _, _, hstart⟩
    · rw [hnone] at hexchange
      cases hexchange
    · cases hexchange
    · cases hexchange
    · cases forceRefresh with
      | false =>
        cases hstart
        cases hexchange
      | true =>
        have hshown : shown = resolved.exchangeToken.2 := congrArg Prod.snd hstart
        rw [hshown] at hexchange
        obtain ⟨hkey, hgrant⟩ := OutboundOauth2ResolvedConfig.exchangeToken_presents hexchange
        exact ⟨resolved, true, _, rfl, hkey, .inl hgrant⟩
  · obtain ⟨hkey, hclient | ⟨rfl, hloaded⟩⟩ :=
      OutboundOauth2ResolvedConfig.actInside_presents hinside hexchange
    · exact ⟨resolved, forceRefresh, _, rfl, hkey, .inl hclient⟩
    · exact ⟨resolved, forceRefresh, _, rfl, hkey, .inr ⟨lock, rfl, hloaded⟩⟩

/-- In every run in which no caller is ended with a refresh token that the cache does
not have, each exchange of a refresh token presents the one issued last. -/
theorem rotated_token_presented (hr : Runs (Guarded machine.Step (Keeps bootstrap)) machine.init es s) :
    ∀ e t key presented, machine.Step s e t → key.grant = .refreshToken →
      e.2.exchange = some (key, presented) → presented = current bootstrap key es := by
  have hinv : Excluded s ∧ Rotated bootstrap es s := by
    refine hr.history (fun es s => Excluded s ∧ Rotated bootstrap es s) ?_ ⟨excluded_init, ?_⟩
    · rintro es s e t ⟨hex, hs⟩ he
      exact ⟨step_excluded hex he.1, step_rotated hex hs he⟩
    · refine ⟨?_, ?_, fun _ _ _ => rfl⟩
      · intro i caller h
        cases h
      · intro i resolved forceRefresh lock critical h
        cases h
  intro e t key presented hstep hgrant hexchange
  obtain ⟨resolved, forceRefresh, stage, htask, rfl, hpresented⟩ :=
    act_presents (Program.step_self hstep) hexchange
  have hkey := (hinv.2.configured _ _ htask).1
  rcases hpresented with hclient | ⟨lock, rfl, rfl⟩
  · rw [hkey, hclient] at hgrant
    cases hgrant
  · exact hinv.2.inside _ _ _ _ _ htask (hkey.symm.trans hgrant)

end Bootstrap

def reportsKey : OutboundOauth2CacheKey := .fromAuth "reports" reports

/-- The first call stores a new refresh token, and the second one forces a refresh. -/
def rotated : List (ℕ × Action) :=
  [(0, getReports 0), (0, .read), (0, .findLock), (0, .acquire 0), (0, .read), (0, .read),
    (0, .respond (.ok ⟨"first", some "rotated", some (Clock.fromSecs 3600)⟩) 0), (0, .read),
    (0, .write), (0, .call nowhere "reports" reports true 1), (0, .findLock), (0, .acquire 1)]

theorem keeps_of_quiet {bootstrap : OutboundOauth2CacheKey → Option String} {s : State}
    {e : Event Action Shown} (hcall : e.1.2.isCall = false)
    (hquiet : ∀ critical : Critical, critical.loses e.1.2 = none) : Keeps bootstrap s e where
  configured := by
    intro _ _ _ _ _ _ haction
    rw [haction] at hcall
    cases hcall
  stored := by
    intro _ _ _ critical _ _ _ hlost
    rw [hquiet] at hlost
    cases hlost

theorem keeps_reports {s : State} {i : ℕ} {forceRefresh : Bool} {now : DateTime} {shown : Shown} :
    Keeps (fun _ => some "boot") s ((i, .call nowhere "reports" reports forceRefresh now), shown) where
  configured := by
    intro _ _ _ _ _ resolved haction hresolved _
    cases haction
    cases hresolved
    rfl
  stored := by
    intro _ _ _ critical _ _ _ hlost
    cases critical <;> cases hlost

theorem rotated_token_presented_forced : ∃ es s t shown, es.map Prod.fst = rotated ∧
    Runs (Guarded machine.Step (Keeps fun _ => some "boot")) machine.init es s ∧
    (∀ e t key presented, machine.Step s e t → key.grant = .refreshToken →
      e.2.exchange = some (key, presented) →
        presented = current (fun _ => some "boot") key es) ∧
    machine.next s (0, .read) = some (t, shown) ∧
    shown.exchange = some (reportsKey, some "rotated") := by
  have hm : machine.Meets (Keeps fun _ => some "boot") machine.init rotated := by
    refine ⟨keeps_reports, keeps_of_quiet rfl ?_, keeps_of_quiet rfl ?_, keeps_of_quiet rfl ?_,
      keeps_of_quiet rfl ?_, keeps_of_quiet rfl ?_, keeps_of_quiet rfl ?_, keeps_of_quiet rfl ?_,
      keeps_of_quiet rfl ?_, keeps_reports, keeps_of_quiet rfl ?_, keeps_of_quiet rfl ?_, trivial⟩
    all_goals intro critical; cases critical <;> rfl
  have hr := hm.runs rfl
  exact ⟨_, _, _, _, rfl, hr, @rotated_token_presented _ _ _ hr, rfl, rfl⟩

/-- The token response has a lifetime that no `TimeDelta` holds. -/
def overlong : List (ℕ × Action) :=
  [(0, getReports 0), (0, .read), (0, .findLock), (0, .acquire 0), (0, .read), (0, .read),
    (0, .respond (.ok ⟨"first", some "rotated", some (Clock.fromSecs 18446744073709551615)⟩) 0),
    (1, getReports 1), (1, .read), (1, .findLock), (1, .acquire 1), (1, .read)]

/-- The second call presents the configured token although a newer one has arrived. -/
theorem rotated_token_lost : ∃ es s t shown, es.map Prod.fst = overlong ∧
    Runs machine.Step machine.init es s ∧ machine.next s (1, .read) = some (t, shown) ∧
    reportsKey.grant = .refreshToken ∧ shown.exchange = some (reportsKey, some "boot") ∧
    current (fun _ => some "boot") reportsKey es = some "rotated" := by
  have hr := @Machine.runs_of_execute _ _ _ machine machine.init _ overlong _ rfl
  exact ⟨_, _, _, _, rfl, hr, rfl, rfl, rfl, rfl⟩

end OutboundTokenManager
end RustMcpCore.Outbound
