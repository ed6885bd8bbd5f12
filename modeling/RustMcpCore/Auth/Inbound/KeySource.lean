import RustMcpCore.Auth.Inbound.Discovery
import RustMcpCore.Http.UrlTarget

/-! # The sources of documents and keys

What is cached, returned or asked for next was read from the answer to a request of this provider,
whichever call has sent it, and a request goes to a configured URL or to one that such an answer
has named.
-/
namespace RustMcpCore.Inbound
open Library Outbound

namespace CachedFetch
variable {V : Type*} {ttl : Int} {cache cache' : FetchCache V} {task task' : Option (Phase V)}
  {phase : Phase V} {action : Action V} {shown : Shown V} {P Q : V → Prop}

theorem release_entry : (release cache phase).entry = cache.entry := by
  unfold release
  split
  · rfl
  · rfl

/-- The entry and the value that is about to be stored are good. -/
structure Sound (P : V → Prop) (cache : FetchCache V) (task : Option (Phase V)) : Prop where
  entry : ∀ entry ∈ cache.entry, P entry.value
  storing : ∀ value, task = some (.storing value) → P value

theorem Sound.mono (h : Sound P cache task) (hPQ : ∀ value, P value → Q value) :
    Sound Q cache task :=
  ⟨fun entry hentry => hPQ _ (h.entry entry hentry), fun value hvalue => hPQ _ (h.storing value hvalue)⟩

/-- What is stored or returned has been fetched. -/
theorem CallerStep.sound (h : CallerStep ttl cache task action cache' task' shown)
    (hs : Sound P cache task) (haction : ∀ fetched, action ≠ .respond fetched) :
    Sound P cache' task' ∧ ∀ value, shown.ended = some (.returned (some value)) → P value := by
  have hprobe : ∀ {now value}, probe ttl cache now = some value → P value := by
    intro now value hfound
    unfold probe at hfound
    cases hentry : cache.entry with
    | none =>
      rw [hentry] at hfound
      cases hfound
    | some entry =>
      rw [hentry] at hfound
      obtain ⟨_, hvalue⟩ := Option.ite_none_right_eq_some.mp hfound
      cases hvalue
      exact hs.entry entry hentry
  cases h with
  | called | missed | acquired | missedInside =>
    refine ⟨⟨hs.entry, ?_⟩, ?_⟩
    · rintro _ ⟨⟩
    · rintro _ ⟨⟩
  | hit _ value found | hitInside _ value found =>
    refine ⟨⟨hs.entry, ?_⟩, ?_⟩
    · rintro _ ⟨⟩
    · rintro _ ⟨⟩
      exact hprobe found
  | failed | answered => exact absurd rfl (haction _)
  | stored fetched now =>
    have hfetched := hs.storing fetched rfl
    refine ⟨⟨?_, ?_⟩, ?_⟩
    · rintro _ ⟨⟩
      exact hfetched
    · rintro _ ⟨⟩
    · rintro _ ⟨⟩
      exact hfetched
  | dropped =>
    refine ⟨⟨?_, ?_⟩, ?_⟩
    · split
      · exact hs.entry
      · exact hs.entry
    · rintro _ ⟨⟩
    · rintro _ ⟨⟩

end CachedFetch

section Progress
variable {V F : Type*} {P : V → Prop} {cache : FetchCache V}

theorem Action.cached_ne_respond {now : DateTime} {action : Inbound.Action}
    {inner : CachedFetch.Action V} (h : action.cached now = some inner) (fetched : Option V) :
    inner ≠ .respond fetched := by
  rintro rfl
  cases action <;> cases h

def Progress.value {C : Type*} : Progress C V → Option V
  | .awaits _ _ => none
  | .returned value => value

/-- How a call of `cached_fetch` goes on: what it stores next was good before, or it is new. -/
structure Goes (P new : V → Prop) (after : FetchCache V × Progress (Call V F) V) : Prop where
  entry : ∀ entry ∈ after.1.entry, P entry.value
  value : ∀ value ∈ after.2.value, P value
  storing : ∀ call request value, after.2 = .awaits call request → call.phase = .storing value →
    P value ∨ new value

theorem fetched_goes {new : V → Prop} {value : Option V}
    (h : ∀ entry ∈ cache.entry, P entry.value) (hnew : ∀ v ∈ value, new v) :
    Goes P new (fetched (F := F) cache value) := by
  cases value with
  | none =>
    refine ⟨h, ?_, ?_⟩
    · rintro _ ⟨⟩
    · rintro _ _ _ ⟨⟩
  | some value =>
    refine ⟨h, ?_, ?_⟩
    · rintro _ ⟨⟩
    · rintro _ _ _ ⟨⟩ ⟨⟩
      exact .inr (hnew value rfl)

end Progress

/-- A body in ASCII. -/
def jsonBytes (text : String) : List UInt8 := text.toList.map fun c => c.toNat.toUInt8

/-! ## What is asked -/

def DiscoveryCall.asks : DiscoveryCall → Option String
  | .cached _ => none
  | .fetching fetch => some fetch.asked

/-- The candidates that the fetch has asked last or not yet. -/
def DiscoveryCall.left : DiscoveryCall → List String
  | .cached _ => []
  | .fetching fetch => fetch.asked :: fetch.rest

def JwksCall.asks {K : Type*} : JwksCall K → Option String
  | .cached _ => none
  | .fetching (.resolving call) => call.asks
  | .fetching (.requesting url) => some url

def Task.asks {K : Type*} : Task K → Option String
  | .issuer call => call.asks
  | .jwks call => call.asks

namespace DiscoveringProvider
variable {K : Type*} {provider : DiscoveringProvider K} {now : DateTime} {action : Action}

section Discovery
variable {cache cache' : FetchCache DiscoveryDocument} {call call' : DiscoveryCall}
  {request : Option OutboundHttpRequest} {P new : DiscoveryDocument → Prop}

theorem fetchDiscovery_goes {urls : List String} (h : ∀ entry ∈ cache.entry, P entry.value) :
    Goes P new (provider.fetchDiscovery cache urls) := by
  cases urls with
  | nil => exact fetched_goes h fun document hnone => absurd hnone (Option.not_mem_none document)
  | cons asked rest =>
    refine ⟨h, ?_, ?_⟩
    · rintro _ ⟨⟩
    · rintro _ _ _ ⟨⟩ ⟨⟩

theorem fetchDiscovery_asks {urls : List String}
    (h : provider.fetchDiscovery cache urls = (cache', .awaits call' request)) :
    request = call'.asks.map provider.get ∧ call'.left = urls := by
  cases urls with
  | nil => cases h
  | cons asked rest =>
    cases h
    exact ⟨rfl, rfl⟩

/-- Only the answer that a call gets is new to it. -/
theorem DiscoveryStep.goes
    {after : FetchCache DiscoveryDocument × Progress DiscoveryCall DiscoveryDocument}
    (h : provider.DiscoveryStep cache now call action after)
    (hs : CachedFetch.Sound P cache (some call.phase)) :
    Goes P (fun document => ∃ fetch answer, call = .fetching fetch ∧ action = .respond answer ∧
      successful provider.documentFromSlice answer = some document) after := by
  cases h with
  | ends acts step ended =>
    obtain ⟨hsound, hvalue⟩ := step.sound hs (Action.cached_ne_respond acts)
    refine ⟨hsound.entry, ?_, ?_⟩
    · rintro document ⟨⟩
      exact hvalue document ended
    · rintro _ _ _ ⟨⟩
  | begins acts step =>
    exact fetchDiscovery_goes (step.sound hs (Action.cached_ne_respond acts)).1.entry
  | waits acts step =>
    obtain ⟨hsound, _⟩ := step.sound hs (Action.cached_ne_respond acts)
    refine ⟨hsound.entry, ?_, ?_⟩
    · rintro _ ⟨⟩
    · rintro _ _ document ⟨⟩ hphase
      exact .inl (hsound.storing document (congrArg some hphase))
  | refused => exact fetchDiscovery_goes hs.entry
  | found good =>
    refine fetched_goes hs.entry ?_
    rintro document ⟨⟩
    exact ⟨_, _, rfl, rfl, good⟩

/-- A candidate is asked as soon as it is the next one. -/
theorem DiscoveryStep.asks
    (h : provider.DiscoveryStep cache now call action (cache', .awaits call' request)) :
    request = call'.asks.map provider.get ∧
      ∀ url ∈ call'.left, url ∈ provider.discoveryCandidates ∨ url ∈ call.left := by
  generalize hafter : (cache', Progress.awaits call' request) = after at h
  cases h with
  | ends => cases hafter
  | begins =>
    obtain ⟨hrequest, hleft⟩ := fetchDiscovery_asks hafter.symm
    refine ⟨hrequest, fun url hurl => .inl ?_⟩
    rwa [← hleft]
  | waits =>
    cases hafter
    exact ⟨rfl, fun url hurl => absurd hurl List.not_mem_nil⟩
  | @refused fetch =>
    obtain ⟨hrequest, hleft⟩ := fetchDiscovery_asks hafter.symm
    refine ⟨hrequest, fun url hurl => .inr (List.mem_cons_of_mem _ ?_)⟩
    rwa [← hleft]
  | found =>
    cases hafter
    exact ⟨rfl, fun url hurl => absurd hurl List.not_mem_nil⟩

end Discovery

/-! ## Where documents and keys are -/

variable (provider) in
/-- A document is at the configured URL, or on the server of the issuer. -/
def DocumentAt (url : String) : Prop :=
  provider.config.discoveryUrl = some url ∨
    provider.config.discoveryUrl = none ∧ ∃ issuer parsed, provider.config.issuer = some issuer ∧
      provider.parseUrl issuer = some parsed ∧ LeadsTo parsed.cleared url

theorem buildDiscoveryCandidates_leadsTo {parse : String → Option ParsedUrl} {issuer url : String}
    {options : DiscoveryOptions}
    (h : url ∈ buildDiscoveryCandidatesFromIssuer parse issuer options) :
    ∃ parsed, parse issuer = some parsed ∧ LeadsTo parsed.cleared url := by
  unfold buildDiscoveryCandidatesFromIssuer at h
  cases hparse : parse issuer with
  | none =>
    rw [hparse] at h
    cases h
  | some parsed =>
    rw [hparse] at h
    refine ⟨parsed, rfl, ?_⟩
    have hplain : ∀ {lead : String}, lead.toList.head? = some '/' →
        LeadsTo parsed.cleared (Text.trimEndMatches parsed.cleared '/' ++ lead) := by
      intro lead hlead
      have hleads := @leadsTo_append parsed.cleared lead hlead ""
      rwa [String.append_empty] at hleads
    simp only at h
    split at h
    · rcases List.mem_cons.mp h with rfl | h
      · exact hplain rfl
      · split at h
        · rw [List.mem_singleton.mp h]
          exact hplain rfl
        · cases h
    · rcases List.mem_cons.mp h with rfl | h
      · exact leadsTo_append rfl _
      · split at h
        · rcases List.mem_cons.mp h with rfl | h
          · exact leadsTo_append rfl _
          · rw [List.mem_singleton.mp h, String.append_assoc]
            exact leadsTo_append rfl _
        · cases h

theorem discoveryCandidates_at {url : String} (h : url ∈ provider.discoveryCandidates) :
    provider.DocumentAt url := by
  unfold discoveryCandidates at h
  unfold DocumentAt
  cases hurl : provider.config.discoveryUrl with
  | some configured =>
    rw [hurl] at h
    rw [List.mem_singleton.mp h]
    exact .inl rfl
  | none =>
    rw [hurl] at h
    cases hissuer : provider.config.issuer with
    | none =>
      rw [hissuer] at h
      cases h
    | some issuer =>
      rw [hissuer] at h
      obtain ⟨parsed, hparsed, hleads⟩ :=
        buildDiscoveryCandidates_leadsTo ((List.destutter_sublist _ _).subset h)
      exact .inr ⟨rfl, issuer, parsed, rfl, hparsed, hleads⟩

variable (provider) in
/-- Keys are at the configured URL, or where a document says. -/
def KeysAt (good : DiscoveryDocument → Prop) (url : String) : Prop :=
  provider.config.jwksUrl = some url ∨
    provider.config.jwksUrl = none ∧ ∃ document, good document ∧ document.jwksUri = some url

theorem KeysAt.mono {good better : DiscoveryDocument → Prop} {url : String}
    (h : provider.KeysAt good url) (hmono : ∀ document, good document → better document) :
    provider.KeysAt better url := by
  rcases h with h | ⟨hnone, document, hgood, huri⟩
  · exact .inl h
  · exact .inr ⟨hnone, document, hmono _ hgood, huri⟩

/-! ## What a task goes on with -/

section Steps
variable {caches caches' : Caches K} {task' : Option (Task K)} {shown : Shown K}
  {L L' : String → Prop} {D D' : DiscoveryDocument → Prop} {P P' : K → Prop}

variable (provider) in
structure DiscoverySound (D : DiscoveryDocument → Prop) (call : DiscoveryCall) : Prop where
  storing : ∀ document, call.phase = .storing document → D document
  left : ∀ url ∈ call.left, url ∈ provider.discoveryCandidates

variable (provider) in
def JwksSound (L : String → Prop) (D : DiscoveryDocument → Prop) (P : K → Prop) :
    JwksCall K → Prop
  | .cached phase => ∀ keys, phase = .storing keys → P keys
  | .fetching (.resolving call) =>
    provider.config.jwksUrl = none ∧ provider.DiscoverySound D call
  | .fetching (.requesting url) => L url

variable (provider) in
/-- What is about to be stored is good, and the candidates and the places for keys are. -/
def TaskSound (L : String → Prop) (D : DiscoveryDocument → Prop) (P : K → Prop) : Task K → Prop
  | .issuer call => provider.config.issuer = none ∧ provider.DiscoverySound D call
  | .jwks call => provider.JwksSound L D P call

theorem TaskSound.mono {task : Task K} (h : provider.TaskSound L D P task)
    (hL : ∀ url, L url → L' url) (hD : ∀ document, D document → D' document)
    (hP : ∀ keys, P keys → P' keys) : provider.TaskSound L' D' P' task := by
  have hdiscovery : ∀ {call}, provider.DiscoverySound D call → provider.DiscoverySound D' call :=
    fun hs => ⟨fun document hphase => hD _ (hs.storing document hphase), hs.left⟩
  cases task with
  | issuer call => exact ⟨h.1, hdiscovery h.2⟩
  | jwks call =>
    cases call with
    | cached phase => exact fun keys hphase => hP _ (h keys hphase)
    | fetching fetch =>
      cases fetch with
      | resolving call => exact ⟨h.1, hdiscovery h.2⟩
      | requesting url => exact hL url h

theorem TaskSound.asks_at {task : Task K} (h : provider.TaskSound L D P task) {url : String}
    (hasks : task.asks = some url) : url ∈ provider.discoveryCandidates ∨ L url := by
  have hleft : ∀ {call : DiscoveryCall}, provider.DiscoverySound D call → call.asks = some url →
      url ∈ provider.discoveryCandidates := by
    intro call hs hasks
    cases call with
    | cached => cases hasks
    | fetching fetch =>
      cases hasks
      exact hs.left _ List.mem_cons_self
  cases task with
  | issuer call => exact .inl (hleft h.2 hasks)
  | jwks call =>
    cases call with
    | cached => cases hasks
    | fetching fetch =>
      cases fetch with
      | resolving call => exact .inl (hleft h.2 hasks)
      | requesting url =>
        cases hasks
        exact .inr h

/-- The entries of both caches are good. -/
structure CachesSound (D : DiscoveryDocument → Prop) (P : K → Prop) (caches : Caches K) : Prop where
  documents : ∀ entry ∈ caches.discovery.entry, D entry.value
  keys : ∀ entry ∈ caches.jwks.entry, P entry.value

theorem CachesSound.withJwks {cache : FetchCache K} (h : CachesSound D P caches)
    (hcache : ∀ entry ∈ cache.entry, P entry.value) :
    CachesSound D P { caches with jwks := cache } :=
  ⟨h.documents, hcache⟩

theorem CachesSound.withDiscovery {cache : FetchCache DiscoveryDocument}
    (h : CachesSound D P caches) (hcache : ∀ entry ∈ cache.entry, D entry.value) :
    CachesSound D P { caches with discovery := cache } :=
  ⟨hcache, h.keys⟩

theorem CachesSound.release (h : CachesSound D P caches) (task : Task K) :
    CachesSound D P (task.release caches) := by
  have hdocuments : ∀ phase, ∀ entry ∈ (CachedFetch.release caches.discovery phase).entry,
      D entry.value := by
    intro phase
    rw [CachedFetch.release_entry]
    exact h.documents
  cases task with
  | issuer call => exact ⟨hdocuments _, h.keys⟩
  | jwks call =>
    refine ⟨?_, ?_⟩
    · unfold Task.release
      simp only
      split
      · exact hdocuments _
      · exact h.documents
      · exact h.documents
    · unfold Task.release
      rw [CachedFetch.release_entry]
      exact h.keys

/-- The answer to what the call asks. -/
def Gets (asks : Option String) (action : Action) (url : String) (answer : Answer) : Prop :=
  asks = some url ∧ action = .respond answer

theorem DiscoveryStep.sound {cache cache' : FetchCache DiscoveryDocument}
    {call call' : DiscoveryCall} {request : Option OutboundHttpRequest}
    (h : provider.DiscoveryStep cache now call action (cache', .awaits call' request))
    (hcache : ∀ entry ∈ cache.entry, D entry.value) (hcall : provider.DiscoverySound D call)
    (hD : ∀ document, D document → D' document)
    (hnew : ∀ url answer document, url ∈ provider.discoveryCandidates →
      Gets call.asks action url answer →
      successful provider.documentFromSlice answer = some document → D' document) :
    provider.DiscoverySound D' call' := by
  have hgoes := h.goes ⟨hcache, fun document hphase => hcall.storing document (Option.some.inj hphase)⟩
  refine ⟨fun document hphase => ?_, fun url hurl => ?_⟩
  · rcases hgoes.storing _ _ document rfl hphase with hold | ⟨fetch, answer, rfl, haction, hgood⟩
    · exact hD _ hold
    · exact hnew _ _ _ (hcall.left _ List.mem_cons_self) ⟨rfl, haction⟩ hgood
  · rcases h.asks.2 url hurl with hcandidate | hleft
    · exact hcandidate
    · exact hcall.left url hleft

variable (provider) in
theorem fetchJwks_goes {url : Option String} (hcaches : CachesSound D P caches)
    (hurl : ∀ location ∈ url, provider.KeysAt D location) :
    CachesSound D P (provider.fetchJwks caches url).1 ∧
      (∀ keys ∈ (provider.fetchJwks caches url).2.value, P keys) ∧
      ∀ call request, (provider.fetchJwks caches url).2 = .awaits call request →
        request = call.asks.map provider.get ∧
          provider.JwksSound (provider.KeysAt D) D P call := by
  cases url with
  | none =>
    refine ⟨⟨hcaches.documents, hcaches.keys⟩, ?_, ?_⟩
    · rintro _ ⟨⟩
    · rintro _ _ ⟨⟩
  | some url =>
    refine ⟨hcaches, ?_, ?_⟩
    · rintro _ ⟨⟩
    · rintro _ _ ⟨⟩
      exact ⟨rfl, hurl url rfl⟩

variable (provider now) in
theorem jwksUrl_goes (hcaches : CachesSound D P caches) :
    CachesSound D P (provider.jwksUrl caches now).1 ∧
      (∀ keys ∈ (provider.jwksUrl caches now).2.value, P keys) ∧
      ∀ call request, (provider.jwksUrl caches now).2 = .awaits call request →
        request = call.asks.map provider.get ∧
          provider.JwksSound (provider.KeysAt D) D P call := by
  unfold jwksUrl
  cases hurl : provider.config.jwksUrl with
  | some url =>
    refine fetchJwks_goes provider hcaches ?_
    rintro _ ⟨⟩
    exact .inl hurl
  | none =>
    refine ⟨hcaches, ?_, ?_⟩
    · rintro _ ⟨⟩
    · rintro _ _ ⟨⟩
      refine ⟨rfl, hurl, ?_, fun url hleft => absurd hleft List.not_mem_nil⟩
      rintro _ ⟨⟩

theorem JwksStep.sound {call : JwksCall K} {after : Caches K × Progress (JwksCall K) K}
    (h : provider.JwksStep caches now call action after) (hcaches : CachesSound D P caches)
    (hcall : provider.JwksSound (provider.KeysAt D) D P call)
    (hD : ∀ document, D document → D' document)
    (hP : ∀ keys, P keys → P' keys)
    (hdocument : ∀ url answer document, url ∈ provider.discoveryCandidates →
      Gets call.asks action url answer →
      successful provider.documentFromSlice answer = some document → D' document)
    (hkeys : ∀ url answer keys, provider.KeysAt D url → Gets call.asks action url answer →
      successful provider.jwkSetFromSlice answer = some keys → P' keys) :
    CachesSound D P after.1 ∧ (∀ keys ∈ after.2.value, P keys) ∧
      ∀ call' request, after.2 = .awaits call' request →
        request = call'.asks.map provider.get ∧
          provider.JwksSound (provider.KeysAt D) D' P' call' := by
  have hmono : ∀ {call}, provider.JwksSound (provider.KeysAt D) D P call →
      provider.JwksSound (provider.KeysAt D) D' P' call :=
    fun {call} hs => @TaskSound.mono K provider _ _ D D' P P' (.jwks call) hs (fun _ h => h) hD hP
  cases h with
  | ends acts step ended =>
    obtain ⟨hsound, hvalue⟩ := step.sound
      ⟨hcaches.keys, fun keys hphase => hcall keys (Option.some.inj hphase)⟩
      (Action.cached_ne_respond acts)
    refine ⟨⟨hcaches.documents, hsound.entry⟩, ?_, ?_⟩
    · rintro keys ⟨⟩
      exact hvalue keys ended
    · rintro _ _ ⟨⟩
  | begins acts step =>
    obtain ⟨hsound, _⟩ := step.sound
      ⟨hcaches.keys, fun keys hphase => hcall keys (Option.some.inj hphase)⟩
      (Action.cached_ne_respond acts)
    obtain ⟨hafter, hvalue, hgoes⟩ := jwksUrl_goes provider now (hcaches.withJwks hsound.entry)
    refine ⟨hafter, hvalue, fun call' request hawaits => ?_⟩
    obtain ⟨hrequest, hnext⟩ := hgoes call' request hawaits
    exact ⟨hrequest, hmono hnext⟩
  | waits acts step =>
    obtain ⟨hsound, _⟩ := step.sound
      ⟨hcaches.keys, fun keys hphase => hcall keys (Option.some.inj hphase)⟩
      (Action.cached_ne_respond acts)
    refine ⟨⟨hcaches.documents, hsound.entry⟩, ?_, ?_⟩
    · rintro _ ⟨⟩
    · rintro _ _ ⟨⟩
      exact ⟨rfl, fun keys hphase => hP _ (hsound.storing keys (congrArg some hphase))⟩
  | inside step =>
    obtain ⟨hnone, hinner⟩ := hcall
    have hgoes := step.goes
      ⟨hcaches.documents, fun document hphase => hinner.storing document (Option.some.inj hphase)⟩
    refine ⟨⟨hgoes.entry, hcaches.keys⟩, ?_, ?_⟩
    · rintro _ ⟨⟩
    · rintro _ _ ⟨⟩
      exact ⟨step.asks.1, hnone, step.sound hcaches.documents hinner hD hdocument⟩
  | resolved step =>
    obtain ⟨hnone, hinner⟩ := hcall
    have hgoes := step.goes
      ⟨hcaches.documents, fun document hphase => hinner.storing document (Option.some.inj hphase)⟩
    obtain ⟨hafter, hvalue, hnext⟩ := fetchJwks_goes provider (hcaches.withDiscovery hgoes.entry)
      fun url hurl => by
        obtain ⟨document, hdocument, huri⟩ := Option.bind_eq_some_iff.mp hurl
        exact .inr ⟨hnone, document, hgoes.value document hdocument, huri⟩
    refine ⟨hafter, hvalue, fun call' request hawaits => ?_⟩
    obtain ⟨hrequest, hsound⟩ := hnext call' request hawaits
    exact ⟨hrequest, hmono hsound⟩
  | @answered url answer =>
    cases hgood : successful provider.jwkSetFromSlice answer with
    | none =>
      refine ⟨⟨hcaches.documents, hcaches.keys⟩, ?_, ?_⟩
      · rintro _ ⟨⟩
      · rintro _ _ ⟨⟩
    | some keys =>
      refine ⟨⟨hcaches.documents, hcaches.keys⟩, ?_, ?_⟩
      · rintro _ ⟨⟩
      · rintro _ _ ⟨⟩
        refine ⟨rfl, ?_⟩
        rintro _ ⟨⟩
        exact hkeys url answer keys hcall ⟨rfl, rfl⟩ hgood

/-- What a call ends with, read from what was good. -/
def EndSound (provider : DiscoveringProvider K) (D : DiscoveryDocument → Prop) (P : K → Prop) :
    End K → Prop
  | .issuer issuer => ∀ name ∈ issuer, provider.config.issuer = some name ∨
      provider.config.issuer = none ∧ ∃ document, D document ∧ document.issuer = some name
  | .jwks keys => ∀ found ∈ keys, P found
  | .dropped => True

theorem TaskStep.sound {task : Option (Task K)}
    (h : provider.TaskStep caches now task action caches' task' shown)
    (hcaches : CachesSound D P caches)
    (htask : ∀ t ∈ task, provider.TaskSound (provider.KeysAt D) D P t)
    (hD : ∀ document, D document → D' document) (hP : ∀ keys, P keys → P' keys)
    (hdocument : ∀ url answer document, url ∈ provider.discoveryCandidates →
      Gets (task.bind Task.asks) action url answer →
      successful provider.documentFromSlice answer = some document → D' document)
    (hkeys : ∀ url answer keys, provider.KeysAt D url →
      Gets (task.bind Task.asks) action url answer →
      successful provider.jwkSetFromSlice answer = some keys → P' keys) :
    CachesSound D P caches' ∧ (∀ ended ∈ shown.ended, EndSound provider D P ended) ∧
      shown.request = (task'.bind Task.asks).map provider.get ∧
      ∀ t ∈ task', provider.TaskSound (provider.KeysAt D) D' P' t := by
  cases h with
  | configured known =>
    refine ⟨hcaches, ?_, rfl, ?_⟩
    · rintro _ ⟨⟩ _ ⟨⟩
      exact .inl known
    · rintro _ ⟨⟩
  | issuerCalled unknown =>
    refine ⟨hcaches, ?_, rfl, ?_⟩
    · rintro _ ⟨⟩
    · rintro _ ⟨⟩
      refine ⟨unknown, ?_, fun url hleft => absurd hleft List.not_mem_nil⟩
      rintro _ ⟨⟩
  | jwksCalled =>
    refine ⟨hcaches, ?_, rfl, ?_⟩
    · rintro _ ⟨⟩
    · rintro _ ⟨⟩ _ ⟨⟩
  | dropped task =>
    refine ⟨hcaches.release task, ?_, rfl, ?_⟩
    · rintro _ ⟨⟩
      trivial
    · rintro _ ⟨⟩
  | issuerGoes step =>
    obtain ⟨hnone, hcall⟩ := htask _ rfl
    have hgoes := step.goes
      ⟨hcaches.documents, fun document hphase => hcall.storing document (Option.some.inj hphase)⟩
    refine ⟨hcaches.withDiscovery hgoes.entry, ?_, step.asks.1, ?_⟩
    · rintro _ ⟨⟩
    · rintro _ ⟨⟩
      exact ⟨hnone, step.sound hcaches.documents hcall hD hdocument⟩
  | issuerReturns step =>
    obtain ⟨hnone, hcall⟩ := htask _ rfl
    have hgoes := step.goes
      ⟨hcaches.documents, fun document hphase => hcall.storing document (Option.some.inj hphase)⟩
    refine ⟨hcaches.withDiscovery hgoes.entry, ?_, rfl, ?_⟩
    · rintro _ ⟨⟩ name hname
      obtain ⟨document, hdocument, hissuer⟩ := Option.bind_eq_some_iff.mp hname
      exact .inr ⟨hnone, document, hgoes.value document hdocument, hissuer⟩
    · rintro _ ⟨⟩
  | jwksGoes step =>
    obtain ⟨hafter, _, hgoes⟩ := step.sound hcaches (htask _ rfl) hD hP hdocument hkeys
    obtain ⟨hrequest, hcall⟩ := hgoes _ _ rfl
    refine ⟨hafter, ?_, hrequest, ?_⟩
    · rintro _ ⟨⟩
    · rintro _ ⟨⟩
      exact hcall
  | jwksReturns step =>
    obtain ⟨hafter, hvalue, _⟩ := step.sound hcaches (htask _ rfl) hD hP hdocument hkeys
    refine ⟨hafter, ?_, rfl, ?_⟩
    · rintro _ ⟨⟩
      exact hvalue
    · rintro _ ⟨⟩

end Steps

/-! ## The history of a run -/

variable (provider) in
/-- The call asks for the URL. -/
def Asks (i : ℕ) (url : String) (e : Event (DateTime × Action) (Shown K)) : Prop :=
  e.1.1 = i ∧ e.2.request = some (provider.get url)

def Acts (i : ℕ) (e : Event (DateTime × Action) (Shown K)) : Prop := e.1.1 = i

variable (provider) in
/-- A request for the URL was answered. -/
def Answered (es : List (Event (DateTime × Action) (Shown K))) (url : String) (answer : Answer) :
    Prop :=
  ∃ past e rest, es = past ++ e :: rest ∧ e.1.2.2 = .respond answer ∧
    Since (provider.Asks e.1.1 url) (Acts e.1.1) past

variable (provider) in
/-- The document was read from the answer of a candidate. -/
def Documented (es : List (Event (DateTime × Action) (Shown K))) (document : DiscoveryDocument) :
    Prop :=
  ∃ url answer, url ∈ provider.discoveryCandidates ∧ provider.Answered es url answer ∧
    successful provider.documentFromSlice answer = some document

variable (provider) in
/-- The keys were read from the answer of a place for keys. -/
def Keyed (es : List (Event (DateTime × Action) (Shown K))) (keys : K) : Prop :=
  ∃ url answer, provider.KeysAt (provider.Documented es) url ∧ provider.Answered es url answer ∧
    successful provider.jwkSetFromSlice answer = some keys

section History
variable {es fs : List (Event (DateTime × Action) (Shown K))}
  {e : Event (DateTime × Action) (Shown K)} {s t : World (Caches K) (Task K)}

theorem Answered.append {url : String} {answer : Answer} (h : provider.Answered es url answer) :
    provider.Answered (es ++ fs) url answer := by
  obtain ⟨past, e, rest, rfl, he, hsince⟩ := h
  exact ⟨past, e, rest ++ fs, by rw [List.append_assoc, List.cons_append], he, hsince⟩

theorem Documented.append {document : DiscoveryDocument} (h : provider.Documented es document) :
    provider.Documented (es ++ fs) document := by
  obtain ⟨url, answer, hurl, hanswer, hgood⟩ := h
  exact ⟨url, answer, hurl, hanswer.append, hgood⟩

theorem Keyed.append {keys : K} (h : provider.Keyed es keys) :
    provider.Keyed (es ++ fs) keys := by
  obtain ⟨url, answer, hurl, hanswer, hgood⟩ := h
  exact ⟨url, answer, hurl.mono fun _ => Documented.append, hanswer.append, hgood⟩

variable (provider) in
/-- What the calls and the caches have is what was answered so far. -/
structure Traced (es : List (Event (DateTime × Action) (Shown K)))
    (s : World (Caches K) (Task K)) : Prop where
  asked : ∀ i url, (s.tasks i).bind Task.asks = some url →
    Since (provider.Asks i url) (Acts i) es
  tasks : ∀ i, ∀ task ∈ s.tasks i,
    provider.TaskSound (provider.KeysAt (provider.Documented es)) (provider.Documented es)
      (provider.Keyed es) task
  caches : CachesSound (provider.Documented es) (provider.Keyed es) s.shared

/-- The step of a run, for the call that takes it. -/
theorem Traced.step (hs : provider.Traced es s) (he : provider.machine.Step s e t) :
    CachesSound (provider.Documented es) (provider.Keyed es) t.shared ∧
      (∀ ended ∈ e.2.ended,
        EndSound provider (provider.Documented es) (provider.Keyed es) ended) ∧
      e.2.request = ((t.tasks e.1.1).bind Task.asks).map provider.get ∧
      ∀ task ∈ t.tasks e.1.1,
        provider.TaskSound (provider.KeysAt (provider.Documented es))
          (provider.Documented (es ++ [e])) (provider.Keyed (es ++ [e])) task := by
  have hanswered : ∀ {url answer}, Gets ((s.tasks e.1.1).bind Task.asks) e.1.2.2 url answer →
      provider.Answered (es ++ [e]) url answer := by
    rintro url answer ⟨hasks, haction⟩
    exact ⟨es, e, [], rfl, haction, hs.asked _ url hasks⟩
  refine (act_step (Program.step_self he)).sound hs.caches (hs.tasks _) (fun _ => Documented.append)
    (fun _ => Keyed.append) ?_ ?_
  · intro url answer document hurl hgets hgood
    exact ⟨url, answer, hurl, hanswered hgets, hgood⟩
  · intro url answer keys hurl hgets hgood
    exact ⟨url, answer, hurl.mono fun _ => Documented.append, hanswered hgets, hgood⟩

theorem step_traced (hs : provider.Traced es s) (he : provider.machine.Step s e t) :
    provider.Traced (es ++ [e]) t := by
  obtain ⟨hcaches, _, hrequest, htask⟩ := hs.step he
  refine ⟨fun i url hasks => ?_, fun i task htasks => ?_, ?_⟩
  · refine since_append.mpr ?_
    by_cases hi : e.1.1 = i
    · subst hi
      rw [hasks] at hrequest
      exact .inl ⟨rfl, hrequest⟩
    · rw [Program.step_other he (Ne.symm hi)] at hasks
      exact .inr ⟨hs.asked i url hasks, hi⟩
  · by_cases hi : e.1.1 = i
    · subst hi
      exact (htask task htasks).mono (fun url hurl => hurl.mono fun _ => Documented.append)
        (fun _ h => h) fun _ h => h
    · rw [Program.step_other he (Ne.symm hi)] at htasks
      exact (hs.tasks i task htasks).mono (fun url hurl => hurl.mono fun _ => Documented.append)
        (fun _ => Documented.append) fun _ => Keyed.append
  · exact ⟨fun entry hentry => (hcaches.documents entry hentry).append,
      fun entry hentry => (hcaches.keys entry hentry).append⟩

theorem runs_traced (hr : Runs provider.machine.Step provider.machine.init es s) :
    provider.Traced es s := by
  refine hr.history provider.Traced (fun _ _ _ _ => step_traced) ⟨?_, ?_, ⟨?_, ?_⟩⟩
  · rintro _ _ ⟨⟩
  · rintro _ _ ⟨⟩
  · rintro _ ⟨⟩
  · rintro _ ⟨⟩

variable (provider) in
/-- Where the request of a step goes, and what the call returns with it. -/
structure Traceable (past : List (Event (DateTime × Action) (Shown K)))
    (e : Event (DateTime × Action) (Shown K)) : Prop where
  request : ∀ request ∈ e.2.request, ∃ url, request = provider.get url ∧
    (url ∈ provider.discoveryCandidates ∧ provider.DocumentAt url ∨
      provider.KeysAt (provider.Documented past) url)
  ended : ∀ ended ∈ e.2.ended,
    EndSound provider (provider.Documented past) (provider.Keyed past) ended

theorem Traced.traceable (hs : provider.Traced es s) (he : provider.machine.Step s e t) :
    provider.Traceable es e := by
  obtain ⟨_, hended, hrequest, htask⟩ := hs.step he
  refine ⟨fun request hasked => ?_, hended⟩
  rw [hrequest] at hasked
  obtain ⟨url, hasks, rfl⟩ := Option.map_eq_some_iff.mp hasked
  refine ⟨url, rfl, ?_⟩
  obtain ⟨task, hnext, hasks⟩ := Option.bind_eq_some_iff.mp hasks
  rcases (htask task hnext).asks_at hasks with hcandidate | hkeys
  · exact .inl ⟨hcandidate, discoveryCandidates_at hcandidate⟩
  · exact .inr hkeys

/-- In every run, with any number of concurrent calls, answers that are no good and calls that are
dropped. -/
theorem requests_and_keys_traced
    (hr : Runs provider.machine.Step provider.machine.init es s) :
    Each provider.Traceable es := by
  refine (hr.history (fun es s => Each provider.Traceable es ∧ provider.Traced es s) ?_ ?_).1
  · rintro es s e t ⟨heach, hs⟩ he
    exact ⟨each_append.mpr ⟨heach, hs.traceable he⟩, step_traced hs he⟩
  · exact ⟨each_nil, runs_traced (.refl _)⟩

end History

/-- A provider that is configured with its issuer alone. -/
def tenant : DiscoveringProvider (List Unit) where
  config := .jwks ⟨"tenant", some "https://auth.example.com/tenant1", none, none, [], [], ∅, [], none⟩
  outboundTimeoutMs := some 5000
  outboundMaxResponseBytes := none
  discoveryOptions := ⟨true, true⟩
  parseUrl _ := some ⟨"/tenant1", "https://auth.example.com/"⟩
  documentFromSlice body :=
    if body = jsonBytes "\x7b\"jwks_uri\":\"https://keys.example.com/jwks\"\x7d" then
      some ⟨none, some "https://keys.example.com/jwks"⟩
    else none
  jwkSetFromSlice body := if body = jsonBytes "\x7b\"keys\":[]\x7d" then some [] else none

/-- The first candidate has no document and the second one has. A call for the issuer
comes in between. -/
def discovered : List (ℕ × (DateTime × Action)) :=
  [(0, 0, .callJwks), (0, 1, .read), (0, 2, .acquire), (0, 3, .read), (0, 4, .read),
    (1, 4, .callIssuer), (0, 5, .acquire), (0, 6, .read), (0, 7, .respond (.ok ⟨404, []⟩)),
    (0, 8, .respond (.ok ⟨200,
      jsonBytes "\x7b\"jwks_uri\":\"https://keys.example.com/jwks\"\x7d"⟩)),
    (0, 9, .write), (0, 10, .respond (.ok ⟨200, jsonBytes "\x7b\"keys\":[]\x7d"⟩)), (0, 11, .write)]

theorem requests_and_keys_traced_discovered : ∃ es s, es.map Prod.fst = discovered ∧
    Runs tenant.machine.Step tenant.machine.init es s ∧ Each tenant.Traceable es ∧
    es.filterMap (fun e => e.2.request.map (·.url)) =
      ["https://auth.example.com/.well-known/oauth-authorization-server/tenant1",
        "https://auth.example.com/.well-known/openid-configuration/tenant1",
        "https://keys.example.com/jwks"] := by
  have hr := @Machine.runs_of_execute _ _ _ tenant.machine tenant.machine.init _ discovered _ rfl
  exact ⟨_, _, rfl, hr, requests_and_keys_traced hr, rfl⟩

end DiscoveringProvider
end RustMcpCore.Inbound
