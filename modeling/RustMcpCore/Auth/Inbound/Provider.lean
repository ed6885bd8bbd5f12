import RustMcpCore.Clock
import RustMcpCore.Library.Interleaving

/-! # The cache of discovery documents and key sets

A fetched document is good for its time to live. A caller looks, takes the refresh
lock, looks again, and only then fetches. A guard of the read-write lock never
outlives one step, so that a step reads or writes the entry as a whole.
-/
namespace RustMcpCore.Inbound
open Library

/-- `DISCOVERY_TTL_MINUTES` and `JWKS_TTL_MINUTES`, as the durations they stand for. -/
def DISCOVERY_TTL : Int := 10 * 60 * 1000000000

def JWKS_TTL : Int := 10 * 60 * 1000000000

structure TimedCacheEntry (V : Type*) where
  fetchedAt : DateTime
  value : V

/-- The entry is younger than `ttl`. -/
def TimedCacheEntry.fresh {V : Type*} (entry : TimedCacheEntry V) (ttl : Int) (now : DateTime) :
    Bool :=
  now - entry.fetchedAt < ttl

structure FetchCache (V : Type*) where
  entry : Option (TimedCacheEntry V)
  /-- The refresh lock is taken. -/
  locked : Bool

/-- The guard of the refresh lock goes with the caller. -/
def FetchCache.unlock {V : Type*} (cache : FetchCache V) : FetchCache V :=
  { cache with locked := false }

namespace CachedFetch
variable {V : Type*}

/-- Where a caller is suspended. -/
inductive Phase (V : Type*)
  | probing (now : DateTime)
  | waiting
  | reprobing (now : DateTime)
  | fetching
  | storing (fetched : V)

namespace Phase

/-- The guard of the refresh lock that the caller has. -/
def held : Phase V → Option Unit
  | .probing _ | .waiting => none
  | .reprobing _ | .fetching | .storing _ => some ()

/-- The reading of the clock that the entry is compared with. -/
def now : Phase V → Option DateTime
  | .probing now | .reprobing now => some now
  | .waiting | .fetching | .storing _ => none

def fetched : Phase V → Bool
  | .probing _ | .waiting | .reprobing _ => false
  | .fetching | .storing _ => true

end Phase

inductive Action (V : Type*)
  | call (now : DateTime)
  /-- The read lock of the cache is granted. -/
  | read
  | acquire (now : DateTime)
  | respond (fetched : Option V)
  /-- The write lock of the cache is granted. -/
  | write (now : DateTime)
  /-- The future of the caller is dropped. -/
  | drop

inductive End (V : Type*)
  | returned (value : Option V)
  | dropped

structure Shown (V : Type*) where
  /-- A fetch starts. -/
  fetch : Bool := false
  ended : Option (End V) := none

/-- The value of the entry while it is fresh. -/
def probe (ttl : Int) (cache : FetchCache V) (now : DateTime) : Option V :=
  match cache.entry with
  | none => none
  | some entry => if entry.fresh ttl now then some entry.value else none

/-- `cached_fetch`, from one await to the next. -/
def act (ttl : Int) (cache : FetchCache V) :
    Option (Phase V) → Action V → Option (FetchCache V × Option (Phase V) × Shown V)
  | none, .call now => some (cache, some (.probing now), {})
  | some (.probing now), .read =>
    match probe ttl cache now with
    | some value => some (cache, none, { ended := some (.returned (some value)) })
    | none => some (cache, some .waiting, {})
  | some .waiting, .acquire now =>
    if cache.locked then none
    else some ({ cache with locked := true }, some (.reprobing now), {})
  | some (.reprobing now), .read =>
    match probe ttl cache now with
    | some value =>
      some (cache.unlock, none, { ended := some (.returned (some value)) })
    | none => some (cache, some .fetching, { fetch := true })
  | some .fetching, .respond none =>
    some (cache.unlock, none, { ended := some (.returned none) })
  | some .fetching, .respond (some fetched) => some (cache, some (.storing fetched), {})
  | some (.storing fetched), .write now =>
    some (⟨some ⟨now, fetched⟩, false⟩, none, { ended := some (.returned (some fetched)) })
  | some phase, .drop =>
    some (if phase.held.isSome then cache.unlock else cache, none,
      { ended := some .dropped })
  | _, _ => none

def program (ttl : Int) : Program (FetchCache V) (Phase V) (Action V) (Shown V) :=
  ⟨⟨none, false⟩, fun _ => act ttl⟩

abbrev State (V : Type*) := World (FetchCache V) (Phase V)

def machine (ttl : Int) : Machine (State V) (ℕ × Action V) (Shown V) := (program ttl).machine

/-! ## What a step does -/

/-- The stretches of a call, one by one. -/
inductive CallerStep (ttl : Int) (cache : FetchCache V) :
    Option (Phase V) → Action V → FetchCache V → Option (Phase V) → Shown V → Prop
  | called (now : DateTime) :
      CallerStep ttl cache none (.call now) cache (some (.probing now)) {}
  | hit (now : DateTime) (value : V) (found : probe ttl cache now = some value) :
      CallerStep ttl cache (some (.probing now)) .read cache none
        { ended := some (.returned (some value)) }
  | missed (now : DateTime) (found : probe ttl cache now = none) :
      CallerStep ttl cache (some (.probing now)) .read cache (some .waiting) {}
  | acquired (now : DateTime) (free : cache.locked = false) :
      CallerStep ttl cache (some .waiting) (.acquire now) { cache with locked := true }
        (some (.reprobing now)) {}
  | hitInside (now : DateTime) (value : V) (found : probe ttl cache now = some value) :
      CallerStep ttl cache (some (.reprobing now)) .read cache.unlock none
        { ended := some (.returned (some value)) }
  | missedInside (now : DateTime) (found : probe ttl cache now = none) :
      CallerStep ttl cache (some (.reprobing now)) .read cache (some .fetching) { fetch := true }
  | failed : CallerStep ttl cache (some .fetching) (.respond none) cache.unlock none
      { ended := some (.returned none) }
  | answered (fetched : V) :
      CallerStep ttl cache (some .fetching) (.respond (some fetched)) cache
        (some (.storing fetched)) {}
  | stored (fetched : V) (now : DateTime) :
      CallerStep ttl cache (some (.storing fetched)) (.write now) ⟨some ⟨now, fetched⟩, false⟩ none
        { ended := some (.returned (some fetched)) }
  | dropped (phase : Phase V) :
      CallerStep ttl cache (some phase) .drop
        (if phase.held.isSome then cache.unlock else cache) none { ended := some .dropped }

theorem act_step {ttl : Int} {cache cache' : FetchCache V} {task task' : Option (Phase V)}
    {action : Action V} {shown : Shown V}
    (h : act ttl cache task action = some (cache', task', shown)) :
    CallerStep ttl cache task action cache' task' shown := by
  unfold act at h
  split at h
  · cases h
    exact .called _
  · split at h
    · rename_i hfound
      cases h
      exact .hit _ _ hfound
    · rename_i hfound
      cases h
      exact .missed _ hfound
  · split at h
    · cases h
    · rename_i hfree
      cases h
      exact .acquired _ (Bool.eq_false_of_not_eq_true hfree)
  · split at h
    · rename_i hfound
      cases h
      exact .hitInside _ _ hfound
    · rename_i hfound
      cases h
      exact .missedInside _ hfound
  · cases h
    exact .failed
  · cases h
    exact .answered _
  · cases h
    exact .stored _ _
  · cases h
    exact .dropped _
  · cases h

end CachedFetch

/-- The cache of discovery documents. -/
def AuthProvider.discovery (V : Type*) :
    Machine (CachedFetch.State V) (ℕ × CachedFetch.Action V) (CachedFetch.Shown V) :=
  CachedFetch.machine DISCOVERY_TTL

/-- The cache of key sets. -/
def AuthProvider.jwks (V : Type*) :
    Machine (CachedFetch.State V) (ℕ × CachedFetch.Action V) (CachedFetch.Shown V) :=
  CachedFetch.machine JWKS_TTL

end RustMcpCore.Inbound
