import RustMcpCore.Auth.Outbound.TokenCache
import RustMcpCore.Library.Interleaving

/-! # The callers of `access_token`

Every call is a task over the cache. It waits for the lock of its key, and what it
does while it has the lock is one critical section with several awaits. The
guard of the lock is dropped with the future of the caller, however it ends.
-/
namespace RustMcpCore.Outbound
open Library

structure TokenExchangeResult where
  accessToken : String
  refreshToken : Option String
  expiresIn : Option Clock.Duration

def OUT_OF_RANGE_ERROR : String :=
  "Source duration value is out of range for the target type"

/-- There is no answer where the sum of the times panics. -/
def expiresAt (now : DateTime) (expiresIn : Option Clock.Duration) :
    Option (Except McpError (Option DateTime)) :=
  match expiresIn with
  | none => some (.ok none)
  | some expiresIn =>
    match Clock.fromStd expiresIn with
    | none =>
      some (.error (.internalError s!"invalid oauth2 expiry: {OUT_OF_RANGE_ERROR}" none))
    | some delta => (Clock.add now delta).map fun time => .ok (some time)

/-- What a caller awaits while it has no lock. -/
inductive Phase
  /-- The entries, with the clock as it was before. -/
  | probing (now : DateTime)
  | finding
  | waiting (lock : Lock)

/-- What a caller awaits while it has the lock of its key. -/
inductive Critical
  | reprobing (now : DateTime)
  /-- The entries, for the refresh token to present. -/
  | loading
  | inFlight
  /-- The entries, for the refresh token to keep. -/
  | received (result : TokenExchangeResult) (expiresAt : Option DateTime)
  | storing (entry : CachedOutboundToken)

inductive Stage
  | outside (phase : Phase)
  | inside (lock : Lock) (critical : Critical)

structure Caller where
  resolved : OutboundOauth2ResolvedConfig
  forceRefresh : Bool
  stage : Stage

inductive Action
  | call (surroundings : Surroundings) (upstreamName : String) (auth : UpstreamOauth2AuthConfig)
      (forceRefresh : Bool) (now : DateTime)
  /-- The read lock of the entries is granted. -/
  | read
  | findLock
  | acquire (now : DateTime)
  | respond (result : Except McpError TokenExchangeResult) (now : DateTime)
  /-- The write lock of the entries is granted. -/
  | write
  /-- The future of the caller is dropped. -/
  | drop

inductive End
  | returned (result : Except McpError String)
  | panicked
  | dropped

/-- What the token endpoint and the caller see of a step. -/
structure Shown where
  /-- The exchange that starts, with the refresh token it presents. -/
  exchange : Option (OutboundOauth2CacheKey × Option String) := none
  /-- The token response that arrives, with the refresh token it carries. -/
  response : Option (OutboundOauth2CacheKey × Option String) := none
  ended : Option End := none

namespace OutboundOauth2ResolvedConfig
variable (resolved : OutboundOauth2ResolvedConfig)

def exchangeToken : Critical × Shown :=
  match resolved.grant with
  | .clientCredentials => (.inFlight, { exchange := some (resolved.cacheKey, none) })
  | .refreshToken => (.loading, {})

/-- The cached refresh token, or else the one of the settings. -/
def refreshTokenOf (entries : Entries) : Option String :=
  (entries.refreshToken resolved.cacheKey).or resolved.bootstrapRefreshToken

def actOutside (cache : OutboundTokenCache) (forceRefresh : Bool) :
    Phase → Action → Option (OutboundTokenCache × Option Stage × Shown)
  | .probing now, .read =>
    match cache.entries.getFresh resolved.cacheKey now resolved.refreshPolicy.skewSec with
    | none => some (cache, none, { ended := some .panicked })
    | some (some entry) =>
      some (cache, none, { ended := some (.returned (.ok entry.accessToken)) })
    | some none => some (cache, some (.outside .finding), {})
  | .finding, .findLock =>
    let (refreshLocks, lock) := cache.refreshLocks.orInsert resolved.cacheKey
    some ({ cache with refreshLocks }, some (.outside (.waiting lock)), {})
  | .waiting lock, .acquire now =>
    if lock ∈ cache.locked then none
    else
      let (critical, shown) := if forceRefresh then resolved.exchangeToken else (.reprobing now, {})
      some ({ cache with locked := insert lock cache.locked }, some (.inside lock critical), shown)
  | _, .drop => some (cache, none, { ended := some .dropped })
  | _, _ => none

/-- One stretch of the critical section. It is left when no stretch follows. -/
def actInside (entries : Entries) :
    Critical → Action → Option (Entries × Option Critical × Shown)
  | .reprobing now, .read =>
    match entries.getFresh resolved.cacheKey now resolved.refreshPolicy.skewSec with
    | none => some (entries, none, { ended := some .panicked })
    | some (some entry) =>
      some (entries, none, { ended := some (.returned (.ok entry.accessToken)) })
    | some none =>
      let (critical, shown) := resolved.exchangeToken
      some (entries, some critical, shown)
  | .loading, .read =>
    match resolved.refreshTokenOf entries with
    | none =>
      some (entries, none, { ended := some (.returned (.error (.invalidRequest
        "oauth2 refresh_token grant requires a refresh token" none))) })
    | some token => some (entries, some .inFlight, { exchange := some (resolved.cacheKey, token) })
  | .inFlight, .respond (.error error) _ =>
    some (entries, none, { ended := some (.returned (.error error)) })
  | .inFlight, .respond (.ok result) now =>
    let response := some (resolved.cacheKey, result.refreshToken)
    match expiresAt now result.expiresIn with
    | none => some (entries, none, { response, ended := some .panicked })
    | some (.error error) =>
      some (entries, none, { response, ended := some (.returned (.error error)) })
    | some (.ok time) => some (entries, some (.received result time), { response })
  | .received result expiresAt, .read =>
    let refreshToken := result.refreshToken.or (resolved.refreshTokenOf entries)
    some (entries, some (.storing ⟨result.accessToken, refreshToken, expiresAt⟩), {})
  | .storing entry, .write =>
    some (entries.insert resolved.cacheKey entry, none,
      { ended := some (.returned (.ok entry.accessToken)) })
  | _, .drop => some (entries, none, { ended := some .dropped })
  | _, _ => none

end OutboundOauth2ResolvedConfig

/-- The lock is free again when its critical section is left. -/
def OutboundTokenCache.afterInside (cache : OutboundTokenCache) (lock : Lock) (entries : Entries) :
    Option Critical → OutboundTokenCache
  | none => { cache with entries, locked := cache.locked.erase lock }
  | some _ => { cache with entries }

namespace OutboundTokenManager

def act (cache : OutboundTokenCache) :
    Option Caller → Action → Option (OutboundTokenCache × Option Caller × Shown)
  | none, .call surroundings upstreamName auth forceRefresh now =>
    match OutboundOauth2ResolvedConfig.fromAuth surroundings upstreamName auth with
    | .error error => some (cache, none, { ended := some (.returned (.error error)) })
    | .ok resolved =>
      let phase : Phase := if forceRefresh then .finding else .probing now
      some (cache, some ⟨resolved, forceRefresh, .outside phase⟩, {})
  | some ⟨resolved, forceRefresh, .outside phase⟩, action =>
    (resolved.actOutside cache forceRefresh phase action).map fun (cache, stage, shown) =>
      (cache, stage.map (Caller.mk resolved forceRefresh), shown)
  | some ⟨resolved, forceRefresh, .inside lock critical⟩, action =>
    (resolved.actInside cache.entries critical action).map fun (entries, critical, shown) =>
      (cache.afterInside lock entries critical,
        critical.map fun critical => ⟨resolved, forceRefresh, .inside lock critical⟩, shown)
  | none, _ => none

def program : Program OutboundTokenCache Caller Action Shown := ⟨.default, fun _ => act⟩

abbrev State := World OutboundTokenCache Caller

def machine : Machine State (ℕ × Action) Shown := program.machine

/-! ## What a step does -/

section Inversion
variable {cache cache' : OutboundTokenCache} {task task' : Option Caller}
  {action : Action} {shown : Shown}

/-- A step starts a call, or takes a caller further outside or inside its
critical section. -/
theorem act_cases (h : act cache task action = some (cache', task', shown)) :
    (∃ surroundings upstreamName auth forceRefresh now,
      task = none ∧ action = .call surroundings upstreamName auth forceRefresh now ∧
      cache' = cache ∧ shown.exchange = none ∧ shown.response = none ∧
      (∀ token, shown.ended ≠ some (.returned (.ok token))) ∧
      ∀ caller, task' = some caller →
        OutboundOauth2ResolvedConfig.fromAuth surroundings upstreamName auth = .ok caller.resolved ∧
        caller.stage = .outside (if forceRefresh then .finding else .probing now)) ∨
    (∃ resolved forceRefresh phase stage,
      task = some ⟨resolved, forceRefresh, .outside phase⟩ ∧
      resolved.actOutside cache forceRefresh phase action = some (cache', stage, shown) ∧
      task' = stage.map (Caller.mk resolved forceRefresh)) ∨
    ∃ resolved forceRefresh lock critical entries critical',
      task = some ⟨resolved, forceRefresh, .inside lock critical⟩ ∧
      resolved.actInside cache.entries critical action = some (entries, critical', shown) ∧
      cache' = cache.afterInside lock entries critical' ∧
      task' = critical'.map fun critical => ⟨resolved, forceRefresh, .inside lock critical⟩ := by
  unfold act at h
  split at h
  · refine .inl ⟨_, _, _, _, _, rfl, rfl, ?_⟩
    split at h
    · cases h
      refine ⟨rfl, rfl, rfl, ?_, ?_⟩
      · intro _ htoken
        cases htoken
      · intro _ hcaller
        cases hcaller
    · rename_i hresolved
      cases h
      refine ⟨rfl, rfl, rfl, ?_, ?_⟩
      · intro _ htoken
        cases htoken
      · intro _ hcaller
        cases hcaller
        exact ⟨hresolved, rfl⟩
  · obtain ⟨⟨_, stage, _⟩, hact, heq⟩ := Option.map_eq_some_iff.mp h
    cases heq
    exact .inr (.inl ⟨_, _, _, stage, rfl, hact, rfl⟩)
  · obtain ⟨⟨entries, critical', _⟩, hact, heq⟩ := Option.map_eq_some_iff.mp h
    cases heq
    exact .inr (.inr ⟨_, _, _, _, entries, critical', rfl, hact, rfl, rfl⟩)
  · cases h

end Inversion

end OutboundTokenManager

namespace OutboundOauth2ResolvedConfig
variable {resolved : OutboundOauth2ResolvedConfig} {cache cache' : OutboundTokenCache}
  {forceRefresh : Bool} {phase : Phase} {stage : Option Stage} {action : Action} {shown : Shown}

/-- Outside its critical section a caller leaves with or without a cached token, or
goes on to the next await. Only the last one, the lock, starts anything. -/
theorem actOutside_cases
    (h : resolved.actOutside cache forceRefresh phase action = some (cache', stage, shown)) :
    (cache' = cache ∧ stage = none ∧ shown.exchange = none ∧ shown.response = none ∧
      ∀ token, shown.ended = some (.returned (.ok token)) →
        ∃ now entry, phase = .probing now ∧ entry.accessToken = token ∧
          cache.entries.getFresh resolved.cacheKey now resolved.refreshPolicy.skewSec =
            some (some entry)) ∨
    (cache' = cache ∧ stage = some (.outside .finding) ∧ shown = {} ∧ action = .read) ∨
    (cache' = { cache with refreshLocks := (cache.refreshLocks.orInsert resolved.cacheKey).1 } ∧
      stage = some (.outside (.waiting (cache.refreshLocks.orInsert resolved.cacheKey).2)) ∧
      shown = {} ∧ action = .findLock) ∨
    ∃ lock now critical, phase = .waiting lock ∧ action = .acquire now ∧ lock ∉ cache.locked ∧
      cache' = { cache with locked := insert lock cache.locked } ∧
      stage = some (.inside lock critical) ∧
      (critical, shown) = if forceRefresh then resolved.exchangeToken else (.reprobing now, {}) := by
  unfold actOutside at h
  split at h
  · split at h
    · cases h
      refine .inl ⟨rfl, rfl, rfl, rfl, ?_⟩
      intro token htoken
      cases htoken
    · rename_i entry hfresh
      cases h
      refine .inl ⟨rfl, rfl, rfl, rfl, ?_⟩
      intro token htoken
      cases htoken
      exact ⟨_, entry, rfl, rfl, hfresh⟩
    · cases h
      exact .inr (.inl ⟨rfl, rfl, rfl, rfl⟩)
  · cases h
    exact .inr (.inr (.inl ⟨rfl, rfl, rfl, rfl⟩))
  · split at h
    · cases h
    · rename_i hfree
      cases h
      exact .inr (.inr (.inr ⟨_, _, _, rfl, rfl, hfree, rfl, rfl, rfl⟩))
  · cases h
    refine .inl ⟨rfl, rfl, rfl, rfl, ?_⟩
    intro token htoken
    cases htoken
  · cases h

/-- The stretches of the critical section, one by one. -/
inductive InsideStep (resolved : OutboundOauth2ResolvedConfig) (entries : Entries) :
    Critical → Action → Entries → Option Critical → Shown → Prop
  | overflowed (now : DateTime)
      (fresh : entries.getFresh resolved.cacheKey now resolved.refreshPolicy.skewSec = none) :
      InsideStep resolved entries (.reprobing now) .read entries none { ended := some .panicked }
  | cached (now : DateTime) (entry : CachedOutboundToken)
      (fresh : entries.getFresh resolved.cacheKey now resolved.refreshPolicy.skewSec =
        some (some entry)) :
      InsideStep resolved entries (.reprobing now) .read entries none
        { ended := some (.returned (.ok entry.accessToken)) }
  | stale (now : DateTime)
      (fresh : entries.getFresh resolved.cacheKey now resolved.refreshPolicy.skewSec =
        some none) :
      InsideStep resolved entries (.reprobing now) .read entries (some resolved.exchangeToken.1)
        resolved.exchangeToken.2
  | tokenless (error : McpError) (found : resolved.refreshTokenOf entries = none) :
      InsideStep resolved entries .loading .read entries none
        { ended := some (.returned (.error error)) }
  | loaded (token : String) (found : resolved.refreshTokenOf entries = some token) :
      InsideStep resolved entries .loading .read entries (some .inFlight)
        { exchange := some (resolved.cacheKey, some token) }
  | refused (error : McpError) (now : DateTime) :
      InsideStep resolved entries .inFlight (.respond (.error error) now) entries none
        { ended := some (.returned (.error error)) }
  | unreadable (result : TokenExchangeResult) (now : DateTime) (ended : End)
      (expiry : ∀ time, expiresAt now result.expiresIn ≠ some (.ok time)) :
      InsideStep resolved entries .inFlight (.respond (.ok result) now) entries none
        { response := some (resolved.cacheKey, result.refreshToken), ended := some ended }
  | answered (result : TokenExchangeResult) (now : DateTime) (time : Option DateTime)
      (expiry : expiresAt now result.expiresIn = some (.ok time)) :
      InsideStep resolved entries .inFlight (.respond (.ok result) now) entries
        (some (.received result time))
        { response := some (resolved.cacheKey, result.refreshToken) }
  | merged (result : TokenExchangeResult) (time : Option DateTime) :
      InsideStep resolved entries (.received result time) .read entries
        (some (.storing ⟨result.accessToken,
          result.refreshToken.or (resolved.refreshTokenOf entries), time⟩)) {}
  | stored (entry : CachedOutboundToken) :
      InsideStep resolved entries (.storing entry) .write
        (entries.insert resolved.cacheKey entry) none
        { ended := some (.returned (.ok entry.accessToken)) }
  | dropped (critical : Critical) :
      InsideStep resolved entries critical .drop entries none { ended := some .dropped }

theorem actInside_step {entries entries' : Entries} {critical : Critical}
    {critical' : Option Critical}
    (h : resolved.actInside entries critical action = some (entries', critical', shown)) :
    InsideStep resolved entries critical action entries' critical' shown := by
  unfold actInside at h
  split at h
  · split at h
    · rename_i hfresh
      cases h
      exact .overflowed _ hfresh
    · rename_i hfresh
      cases h
      exact .cached _ _ hfresh
    · rename_i hfresh
      cases h
      exact .stale _ hfresh
  · split at h
    · rename_i hfound
      cases h
      exact .tokenless _ hfound
    · rename_i hfound
      cases h
      exact .loaded _ hfound
  · cases h
    exact .refused _ _
  · split at h
    · rename_i hexpiry
      cases h
      exact .unreadable _ _ _ fun time hok => by rw [hok] at hexpiry; cases hexpiry
    · rename_i hexpiry
      cases h
      exact .unreadable _ _ _ fun time hok => by rw [hok] at hexpiry; cases hexpiry
    · rename_i hexpiry
      cases h
      exact .answered _ _ _ hexpiry
  · cases h
    exact .merged _ _
  · cases h
    exact .stored _
  · cases h
    exact .dropped _
  · cases h

end OutboundOauth2ResolvedConfig
end RustMcpCore.Outbound
