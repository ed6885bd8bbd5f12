import RustMcpCore.Auth.Inbound.Authorization
import RustMcpCore.Auth.Inbound.Provider
import RustMcpCore.Http.Client
import Mathlib.Data.List.Destutter

/-! # Where the keys of a provider come from

The keys are fetched from a configured URL or from the one that a discovery document names, and
the document is fetched from the first candidate that has one. Both are cached, and the fetch of
the keys waits for the cache of documents in the middle of its own.
-/
namespace RustMcpCore.Inbound
open Library Outbound

structure DiscoveryOptions where
  enableOidc : Bool
  allowFallback : Bool

/-- What `url::Url` gives of a URL. -/
structure ParsedUrl where
  path : String
  /-- The text once path, query and fragment are cleared. -/
  cleared : String

def buildDiscoveryCandidatesFromIssuer (parse : String → Option ParsedUrl) (issuer : String)
    (options : DiscoveryOptions) : List String :=
  match parse issuer with
  | none => []
  | some parsed =>
    let path := Text.trimMatches parsed.path '/'
    let origin := Text.trimEndMatches parsed.cleared '/'
    let fallback := options.enableOidc && options.allowFallback
    if path.isEmpty then
      (origin ++ "/.well-known/oauth-authorization-server") ::
        if fallback then [origin ++ "/.well-known/openid-configuration"] else []
    else
      (origin ++ "/.well-known/oauth-authorization-server/" ++ path) ::
        if fallback then
          [origin ++ "/.well-known/openid-configuration/" ++ path,
            origin ++ "/" ++ path ++ "/.well-known/openid-configuration"]
        else []

/-- An `AuthProvider` with the options of its discovery and the libraries it reads with. -/
structure DiscoveringProvider (K : Type*) extends RustMcpCore.AuthProvider where
  discoveryOptions : DiscoveryOptions
  parseUrl : String → Option ParsedUrl
  /-- `serde_json::from_slice`, for documents and for key sets. -/
  documentFromSlice : List UInt8 → Option DiscoveryDocument
  jwkSetFromSlice : List UInt8 → Option K

/-- What an answer is good for. -/
def successful {V : Type*} (fromSlice : List UInt8 → Option V) : Answer → Option V
  | .error _ => none
  | .ok response => if response.isSuccess then fromSlice response.body else none

namespace CachedFetch
variable {V : Type*}

/-- A caller that is not dropped goes on, to its next await or to its end. -/
def resume (ttl : Int) (cache : FetchCache V) (phase : Phase V) (action : Action V) :
    Option (FetchCache V × (Phase V ⊕ Option V)) :=
  match act ttl cache (some phase) action with
  | some (cache, some phase, _) => some (cache, .inl phase)
  | some (cache, none, ⟨_, some (.returned value)⟩) => some (cache, .inr value)
  | _ => none

/-- Going on is a step of the caller. -/
theorem resume_step {ttl : Int} {cache cache' : FetchCache V} {phase : Phase V} {action : Action V}
    {outcome : Phase V ⊕ Option V}
    (h : resume ttl cache phase action = some (cache', outcome)) :
    ∃ shown, CallerStep ttl cache (some phase) action cache' outcome.getLeft? shown ∧
      ∀ value, outcome = .inr value → shown.ended = some (.returned value) := by
  unfold resume at h
  split at h
  · rename_i hact
    cases h
    refine ⟨_, act_step hact, ?_⟩
    rintro _ ⟨⟩
  · rename_i hact
    cases h
    refine ⟨_, act_step hact, ?_⟩
    rintro _ ⟨⟩
    rfl
  · cases h

/-- The guard of the refresh lock goes with a caller that is dropped. -/
def release (cache : FetchCache V) (phase : Phase V) : FetchCache V :=
  if phase.held.isSome then cache.unlock else cache

end CachedFetch

/-- A call of `cached_fetch`, or one in the middle of its fetch. -/
inductive Call (V F : Type*)
  | cached (phase : CachedFetch.Phase V)
  | fetching (fetch : F)

def Call.phase {V F : Type*} : Call V F → CachedFetch.Phase V
  | .cached phase => phase
  | .fetching _ => .fetching

/-- How a call goes on, with the request it sends. -/
inductive Progress (C V : Type*)
  | awaits (call : C) (request : Option OutboundHttpRequest)
  | returned (value : Option V)

/-- The fetch is over. -/
def fetched {V F : Type*} (cache : FetchCache V) :
    Option V → FetchCache V × Progress (Call V F) V
  | none => (cache.unlock, .returned none)
  | some value => (cache, .awaits (.cached (.storing value)) none)

/-- A fetch of the document asks one candidate and has the others left. -/
structure Candidates where
  asked : String
  rest : List String

abbrev DiscoveryCall := Call DiscoveryDocument Candidates

inductive JwksFetch
  /-- `jwks_url` waits for the discovery document. -/
  | resolving (call : DiscoveryCall)
  | requesting (url : String)

abbrev JwksCall (K : Type*) := Call K JwksFetch

/-- What the calls of a provider share. -/
structure Caches (K : Type*) where
  discovery : FetchCache DiscoveryDocument
  jwks : FetchCache K

inductive Task (K : Type*)
  | issuer (call : DiscoveryCall)
  | jwks (call : JwksCall K)

inductive Action
  | callIssuer
  | callJwks
  | read
  | acquire
  | respond (answer : Answer)
  | write
  | drop

/-- The same for one cache, when the clock reads `now`. -/
def Action.cached {V : Type*} (now : DateTime) : Action → Option (CachedFetch.Action V)
  | .read => some .read
  | .acquire => some (.acquire now)
  | .write => some (.write now)
  | .callIssuer | .callJwks | .respond _ | .drop => none

inductive End (K : Type*)
  | issuer (issuer : Option String)
  | jwks (keys : Option K)
  | dropped

structure Shown (K : Type*) where
  request : Option OutboundHttpRequest := none
  ended : Option (End K) := none

namespace DiscoveringProvider
variable {K : Type*} (provider : DiscoveringProvider K)

def discoveryCandidates : List String :=
  match provider.config.discoveryUrl, provider.config.issuer with
  | some url, _ => [url]
  | none, none => []
  | none, some issuer =>
    (buildDiscoveryCandidatesFromIssuer provider.parseUrl issuer
      provider.discoveryOptions).destutter (· ≠ ·)

/-- The request for a document or for keys. -/
def get (url : String) : OutboundHttpRequest where
  method := "GET"
  url := url
  timeoutMs := provider.outboundTimeoutMs
  maxResponseBytes := provider.outboundMaxResponseBytes

/-- `fetch_discovery`, with the candidates it has left. -/
def fetchDiscovery (cache : FetchCache DiscoveryDocument) :
    List String → FetchCache DiscoveryDocument × Progress DiscoveryCall DiscoveryDocument
  | [] => fetched cache none
  | asked :: rest => (cache, .awaits (.fetching ⟨asked, rest⟩) (some (provider.get asked)))

/-- A call of `discovery`, from one await to the next. -/
def discovery (cache : FetchCache DiscoveryDocument) (call : DiscoveryCall) (now : DateTime)
    (action : Action) :
    Option (FetchCache DiscoveryDocument × Progress DiscoveryCall DiscoveryDocument) :=
  match call, action with
  | .cached phase, action =>
    match (action.cached now).bind (CachedFetch.resume DISCOVERY_TTL cache phase) with
    | none => none
    | some (cache, .inr document) => some (cache, .returned document)
    | some (cache, .inl .fetching) =>
      some (provider.fetchDiscovery cache provider.discoveryCandidates)
    | some (cache, .inl phase) => some (cache, .awaits (.cached phase) none)
  | .fetching fetch, .respond answer =>
    match successful provider.documentFromSlice answer with
    | none => some (provider.fetchDiscovery cache fetch.rest)
    | some document => some (fetched cache (some document))
  | .fetching _, _ => none

/-- `fetch_jwks`, once `jwks_url` is known. -/
def fetchJwks (caches : Caches K) : Option String → Caches K × Progress (JwksCall K) K
  | none =>
    let (cache, progress) := fetched caches.jwks none
    ({ caches with jwks := cache }, progress)
  | some url => (caches, .awaits (.fetching (.requesting url)) (some (provider.get url)))

/-- `jwks_url`, which begins to wait for the document where no URL is configured. -/
def jwksUrl (caches : Caches K) (now : DateTime) : Caches K × Progress (JwksCall K) K :=
  match provider.config.jwksUrl with
  | some url => provider.fetchJwks caches (some url)
  | none => (caches, .awaits (.fetching (.resolving (.cached (.probing now)))) none)

/-- A call of `jwks`, from one await to the next. -/
def jwks (caches : Caches K) (call : JwksCall K) (now : DateTime) (action : Action) :
    Option (Caches K × Progress (JwksCall K) K) :=
  match call, action with
  | .cached phase, action =>
    match (action.cached now).bind (CachedFetch.resume JWKS_TTL caches.jwks phase) with
    | none => none
    | some (cache, .inr keys) => some ({ caches with jwks := cache }, .returned keys)
    | some (cache, .inl .fetching) => some (provider.jwksUrl { caches with jwks := cache } now)
    | some (cache, .inl phase) =>
      some ({ caches with jwks := cache }, .awaits (.cached phase) none)
  | .fetching (.resolving call), action =>
    match provider.discovery caches.discovery call now action with
    | none => none
    | some (cache, .awaits call request) =>
      some ({ caches with discovery := cache }, .awaits (.fetching (.resolving call)) request)
    | some (cache, .returned document) =>
      some (provider.fetchJwks { caches with discovery := cache } (document.bind (·.jwksUri)))
  | .fetching (.requesting _), .respond answer =>
    let (cache, progress) := fetched caches.jwks (successful provider.jwkSetFromSlice answer)
    some ({ caches with jwks := cache }, progress)
  | .fetching (.requesting _), _ => none

end DiscoveringProvider

/-- The locks of a call go with it. -/
def Task.release {K : Type*} (caches : Caches K) : Task K → Caches K
  | .issuer call =>
    { caches with discovery := CachedFetch.release caches.discovery call.phase }
  | .jwks call =>
    { jwks := CachedFetch.release caches.jwks call.phase
      discovery :=
        match call with
        | .fetching (.resolving inner) => CachedFetch.release caches.discovery inner.phase
        | .cached _ | .fetching (.requesting _) => caches.discovery }

namespace DiscoveringProvider
variable {K : Type*} (provider : DiscoveringProvider K)

/-- The calls of `issuer` and of `jwks`. An issuer that is configured needs no document. -/
def act (caches : Caches K) :
    Option (Task K) → DateTime × Action → Option (Caches K × Option (Task K) × Shown K)
  | none, (now, .callIssuer) =>
    match provider.config.issuer with
    | some issuer => some (caches, none, { ended := some (.issuer (some issuer)) })
    | none => some (caches, some (.issuer (.cached (.probing now))), {})
  | none, (now, .callJwks) => some (caches, some (.jwks (.cached (.probing now))), {})
  | none, _ => none
  | some task, (_, .drop) => some (task.release caches, none, { ended := some .dropped })
  | some (.issuer call), (now, action) =>
    match provider.discovery caches.discovery call now action with
    | none => none
    | some (cache, .awaits call request) =>
      some ({ caches with discovery := cache }, some (.issuer call), { request })
    | some (cache, .returned document) =>
      some ({ caches with discovery := cache }, none,
        { ended := some (.issuer (document.bind (·.issuer))) })
  | some (.jwks call), (now, action) =>
    match provider.jwks caches call now action with
    | none => none
    | some (caches, .awaits call request) => some (caches, some (.jwks call), { request })
    | some (caches, .returned keys) => some (caches, none, { ended := some (.jwks keys) })

def program : Program (Caches K) (Task K) (DateTime × Action) (Shown K) :=
  ⟨⟨⟨none, false⟩, ⟨none, false⟩⟩, fun _ => provider.act⟩

def machine : Machine (World (Caches K) (Task K)) (ℕ × (DateTime × Action)) (Shown K) :=
  provider.program.machine

/-! ## What a step does -/

/-- The stretches of a call of `discovery`. -/
inductive DiscoveryStep (cache : FetchCache DiscoveryDocument) (now : DateTime) :
    DiscoveryCall → Action →
      FetchCache DiscoveryDocument × Progress DiscoveryCall DiscoveryDocument → Prop
  | ends {phase : CachedFetch.Phase DiscoveryDocument} {action : Action}
      {inner : CachedFetch.Action DiscoveryDocument} {cache' : FetchCache DiscoveryDocument}
      {shown : CachedFetch.Shown DiscoveryDocument} {document : Option DiscoveryDocument}
      (acts : action.cached now = some inner)
      (step : CachedFetch.CallerStep DISCOVERY_TTL cache (some phase) inner cache' none shown)
      (ended : shown.ended = some (.returned document)) :
      DiscoveryStep cache now (.cached phase) action (cache', .returned document)
  | begins {phase : CachedFetch.Phase DiscoveryDocument} {action : Action}
      {inner : CachedFetch.Action DiscoveryDocument} {cache' : FetchCache DiscoveryDocument}
      {shown : CachedFetch.Shown DiscoveryDocument} (acts : action.cached now = some inner)
      (step : CachedFetch.CallerStep DISCOVERY_TTL cache (some phase) inner cache'
        (some .fetching) shown) :
      DiscoveryStep cache now (.cached phase) action
        (provider.fetchDiscovery cache' provider.discoveryCandidates)
  | waits {phase phase' : CachedFetch.Phase DiscoveryDocument} {action : Action}
      {inner : CachedFetch.Action DiscoveryDocument} {cache' : FetchCache DiscoveryDocument}
      {shown : CachedFetch.Shown DiscoveryDocument} (acts : action.cached now = some inner)
      (step : CachedFetch.CallerStep DISCOVERY_TTL cache (some phase) inner cache'
        (some phase') shown) (other : phase' ≠ .fetching) :
      DiscoveryStep cache now (.cached phase) action (cache', .awaits (.cached phase') none)
  | refused {fetch : Candidates} {answer : Answer}
      (failed : successful provider.documentFromSlice answer = none) :
      DiscoveryStep cache now (.fetching fetch) (.respond answer)
        (provider.fetchDiscovery cache fetch.rest)
  | found {fetch : Candidates} {answer : Answer} {document : DiscoveryDocument}
      (good : successful provider.documentFromSlice answer = some document) :
      DiscoveryStep cache now (.fetching fetch) (.respond answer) (fetched cache (some document))

/-- The stretches of a call of `jwks`. -/
inductive JwksStep (caches : Caches K) (now : DateTime) :
    JwksCall K → Action → Caches K × Progress (JwksCall K) K → Prop
  | ends {phase : CachedFetch.Phase K} {action : Action} {inner : CachedFetch.Action K}
      {cache' : FetchCache K} {shown : CachedFetch.Shown K} {keys : Option K}
      (acts : action.cached now = some inner)
      (step : CachedFetch.CallerStep JWKS_TTL caches.jwks (some phase) inner cache' none shown)
      (ended : shown.ended = some (.returned keys)) :
      JwksStep caches now (.cached phase) action ({ caches with jwks := cache' }, .returned keys)
  | begins {phase : CachedFetch.Phase K} {action : Action} {inner : CachedFetch.Action K}
      {cache' : FetchCache K} {shown : CachedFetch.Shown K} (acts : action.cached now = some inner)
      (step : CachedFetch.CallerStep JWKS_TTL caches.jwks (some phase) inner cache'
        (some .fetching) shown) :
      JwksStep caches now (.cached phase) action
        (provider.jwksUrl { caches with jwks := cache' } now)
  | waits {phase phase' : CachedFetch.Phase K} {action : Action} {inner : CachedFetch.Action K}
      {cache' : FetchCache K} {shown : CachedFetch.Shown K} (acts : action.cached now = some inner)
      (step : CachedFetch.CallerStep JWKS_TTL caches.jwks (some phase) inner cache'
        (some phase') shown) (other : phase' ≠ .fetching) :
      JwksStep caches now (.cached phase) action
        ({ caches with jwks := cache' }, .awaits (.cached phase') none)
  | inside {call call' : DiscoveryCall} {action : Action}
      {cache' : FetchCache DiscoveryDocument} {request : Option OutboundHttpRequest}
      (step : provider.DiscoveryStep caches.discovery now call action
        (cache', .awaits call' request)) :
      JwksStep caches now (.fetching (.resolving call)) action
        ({ caches with discovery := cache' }, .awaits (.fetching (.resolving call')) request)
  | resolved {call : DiscoveryCall} {action : Action} {cache' : FetchCache DiscoveryDocument}
      {document : Option DiscoveryDocument}
      (step : provider.DiscoveryStep caches.discovery now call action
        (cache', .returned document)) :
      JwksStep caches now (.fetching (.resolving call)) action
        (provider.fetchJwks { caches with discovery := cache' } (document.bind (·.jwksUri)))
  | answered {url : String} {answer : Answer} :
      JwksStep caches now (.fetching (.requesting url)) (.respond answer)
        ({ caches with
            jwks := (fetched (F := JwksFetch) caches.jwks
              (successful provider.jwkSetFromSlice answer)).1 },
          (fetched caches.jwks (successful provider.jwkSetFromSlice answer)).2)

/-- The steps of a task. -/
inductive TaskStep (caches : Caches K) (now : DateTime) :
    Option (Task K) → Action → Caches K → Option (Task K) → Shown K → Prop
  | configured {issuer : String} (known : provider.config.issuer = some issuer) :
      TaskStep caches now none .callIssuer caches none
        { ended := some (.issuer (some issuer)) }
  | issuerCalled (unknown : provider.config.issuer = none) :
      TaskStep caches now none .callIssuer caches (some (.issuer (.cached (.probing now)))) {}
  | jwksCalled :
      TaskStep caches now none .callJwks caches (some (.jwks (.cached (.probing now)))) {}
  | dropped (task : Task K) :
      TaskStep caches now (some task) .drop (task.release caches) none { ended := some .dropped }
  | issuerGoes {call call' : DiscoveryCall} {action : Action}
      {cache' : FetchCache DiscoveryDocument} {request : Option OutboundHttpRequest}
      (step : provider.DiscoveryStep caches.discovery now call action
        (cache', .awaits call' request)) :
      TaskStep caches now (some (.issuer call)) action { caches with discovery := cache' }
        (some (.issuer call')) { request }
  | issuerReturns {call : DiscoveryCall} {action : Action}
      {cache' : FetchCache DiscoveryDocument} {document : Option DiscoveryDocument}
      (step : provider.DiscoveryStep caches.discovery now call action
        (cache', .returned document)) :
      TaskStep caches now (some (.issuer call)) action { caches with discovery := cache' } none
        { ended := some (.issuer (document.bind (·.issuer))) }
  | jwksGoes {call call' : JwksCall K} {action : Action} {caches' : Caches K}
      {request : Option OutboundHttpRequest}
      (step : provider.JwksStep caches now call action (caches', .awaits call' request)) :
      TaskStep caches now (some (.jwks call)) action caches' (some (.jwks call')) { request }
  | jwksReturns {call : JwksCall K} {action : Action} {caches' : Caches K} {keys : Option K}
      (step : provider.JwksStep caches now call action (caches', .returned keys)) :
      TaskStep caches now (some (.jwks call)) action caches' none { ended := some (.jwks keys) }

variable {provider} {now : DateTime} {action : Action}

theorem discovery_step {cache : FetchCache DiscoveryDocument} {call : DiscoveryCall}
    {after : FetchCache DiscoveryDocument × Progress DiscoveryCall DiscoveryDocument}
    (h : provider.discovery cache call now action = some after) :
    provider.DiscoveryStep cache now call action after := by
  unfold discovery at h
  split at h
  · split at h
    · cases h
    · rename_i hresume
      cases h
      obtain ⟨inner, hacts, hresume⟩ := Option.bind_eq_some_iff.mp hresume
      obtain ⟨shown, hstep, hended⟩ := CachedFetch.resume_step hresume
      exact .ends hacts hstep (hended _ rfl)
    · rename_i hresume
      cases h
      obtain ⟨inner, hacts, hresume⟩ := Option.bind_eq_some_iff.mp hresume
      obtain ⟨shown, hstep, _⟩ := CachedFetch.resume_step hresume
      exact .begins hacts hstep
    · rename_i hother hresume
      cases h
      obtain ⟨inner, hacts, hresume⟩ := Option.bind_eq_some_iff.mp hresume
      obtain ⟨shown, hstep, _⟩ := CachedFetch.resume_step hresume
      exact .waits hacts hstep hother
  · split at h
    · rename_i hfailed
      cases h
      exact .refused hfailed
    · rename_i hgood
      cases h
      exact .found hgood
  · cases h

theorem jwks_step {caches : Caches K} {call : JwksCall K}
    {after : Caches K × Progress (JwksCall K) K}
    (h : provider.jwks caches call now action = some after) :
    provider.JwksStep caches now call action after := by
  unfold jwks at h
  split at h
  · split at h
    · cases h
    · rename_i hresume
      cases h
      obtain ⟨inner, hacts, hresume⟩ := Option.bind_eq_some_iff.mp hresume
      obtain ⟨shown, hstep, hended⟩ := CachedFetch.resume_step hresume
      exact .ends hacts hstep (hended _ rfl)
    · rename_i hresume
      cases h
      obtain ⟨inner, hacts, hresume⟩ := Option.bind_eq_some_iff.mp hresume
      obtain ⟨shown, hstep, _⟩ := CachedFetch.resume_step hresume
      exact .begins hacts hstep
    · rename_i hother hresume
      cases h
      obtain ⟨inner, hacts, hresume⟩ := Option.bind_eq_some_iff.mp hresume
      obtain ⟨shown, hstep, _⟩ := CachedFetch.resume_step hresume
      exact .waits hacts hstep hother
  · split at h
    · cases h
    · rename_i hdiscovery
      cases h
      exact .inside (discovery_step hdiscovery)
    · rename_i hdiscovery
      cases h
      exact .resolved (discovery_step hdiscovery)
  · cases h
    exact .answered
  · cases h

theorem act_step {caches caches' : Caches K} {task task' : Option (Task K)} {shown : Shown K}
    (h : provider.act caches task (now, action) = some (caches', task', shown)) :
    provider.TaskStep caches now task action caches' task' shown := by
  unfold act at h
  split at h
  · rename_i hlabel
    cases hlabel
    split at h
    · rename_i hknown
      cases h
      exact .configured hknown
    · rename_i hunknown
      cases h
      exact .issuerCalled hunknown
  · rename_i hlabel
    cases hlabel
    cases h
    exact .jwksCalled
  · cases h
  · rename_i hlabel
    cases hlabel
    cases h
    exact .dropped _
  · rename_i hlabel
    cases hlabel
    split at h
    · cases h
    · rename_i hdiscovery
      cases h
      exact .issuerGoes (discovery_step hdiscovery)
    · rename_i hdiscovery
      cases h
      exact .issuerReturns (discovery_step hdiscovery)
  · rename_i hlabel
    cases hlabel
    split at h
    · cases h
    · rename_i hjwks
      cases h
      exact .jwksGoes (jwks_step hjwks)
    · rename_i hjwks
      cases h
      exact .jwksReturns (jwks_step hjwks)

end DiscoveringProvider
end RustMcpCore.Inbound
