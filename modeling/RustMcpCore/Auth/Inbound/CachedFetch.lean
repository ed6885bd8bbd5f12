import RustMcpCore.Auth.Inbound.Provider

/-! # One fetch at a time, and only of what is stale

The refresh lock is taken before the second look and kept until the fetched value
is stored, so that the entry stands still while its caller fetches.
-/
namespace RustMcpCore.Inbound.CachedFetch
open Library
variable {V : Type*} {ttl : Int} {s t u : State V} {es fs : List (Event (Action V) (Shown V))}
  {e : Event (Action V) (Shown V)}

/-! ## The refresh lock -/

def refreshing (cache : FetchCache V) (_ : Unit) : Prop := cache.locked = true

theorem program_locks : Program.Locks Phase.held refreshing (program (V := V) ttl) where
  kept := by
    intro i g task a g' task' o v hact hlocked hheld
    cases act_step hact with
    | called | hit | missed | missedInside | answered => exact hlocked
    | acquired => rfl
    | hitInside | failed | stored => cases hheld rfl
    | dropped phase =>
      cases hphase : phase.held with
      | none =>
        rw [if_neg (by simp)]
        exact hlocked
      | some => cases hheld hphase
  taken := by
    intro i g task a g' task' o v hact hheld
    cases act_step hact with
    | called | hit | missed | hitInside | failed | stored | dropped => cases hheld
    | acquired now free =>
      refine .inr ⟨?_, rfl⟩
      unfold refreshing
      rw [free]
      exact Bool.false_ne_true
    | missedInside | answered => exact .inl rfl

theorem reachable_exclusive (hs : (machine ttl).Reachable s) :
    Program.Exclusive Phase.held refreshing s :=
  hs.invariant _ Program.exclusive_init fun _ _ _ hs he => Program.step_exclusive program_locks hs he

/-- A caller that is fetching. -/
def InFlight (s : State V) (i : ℕ) : Prop := s.tasks i = some .fetching

theorem reachable_inFlight (hs : (machine ttl).Reachable s) {i j : ℕ} (hi : InFlight s i)
    (hj : InFlight s j) : i = j := by
  unfold InFlight at hi hj
  refine (reachable_exclusive hs).unique i j () ?_ ?_
  · rw [hi]
    rfl
  · rw [hj]
    rfl

/-- A step of one caller, as its own stretch of the call. -/
theorem caller_step (he : (machine ttl).Step s e t) :
    CallerStep ttl s.shared (s.tasks e.1.1) e.1.2 t.shared (t.tasks e.1.1) e.2 :=
  act_step (Program.step_self he)

/-! ## What the calls have done so far -/

/-- The reading of the clock that the entry is going to be compared with. -/
def Action.clock : Action V → Option DateTime
  | .call now | .acquire now => some now
  | .read | .respond _ | .write _ | .drop => none

def Acts (i : ℕ) (e : Event (Action V) (Shown V)) : Prop := e.1.1 = i

def Reads (i : ℕ) (now : DateTime) (e : Event (Action V) (Shown V)) : Prop :=
  e.1.1 = i ∧ e.1.2.clock = some now

def Acquires (i : ℕ) (now : DateTime) (e : Event (Action V) (Shown V)) : Prop :=
  e.1 = (i, .acquire now)

def Calls (i : ℕ) (e : Event (Action V) (Shown V)) : Prop := ∃ now, e.1 = (i, .call now)

def Fetches (i : ℕ) (e : Event (Action V) (Shown V)) : Prop := e.1.1 = i ∧ e.2.fetch = true

/-- What the suspended callers hold is what their last actions left them with. -/
structure Traced (es : List (Event (Action V) (Shown V))) (s : State V) : Prop where
  now : ∀ i now, (s.tasks i).bind Phase.now = some now → Since (Reads i now) (Acts i) es
  fetched : ∀ i phase, s.tasks i = some phase → phase.fetched = true →
    Since (Fetches i) (Calls i) es
  acquired : ∀ i now, Since (Acquires i now) (Acts i) es → s.tasks i = some (.reprobing now)

section CallerStep
variable {cache cache' : FetchCache V} {task task' : Option (Phase V)} {action : Action V}
  {shown : Shown V}

theorem CallerStep.clock_of_now (h : CallerStep ttl cache task action cache' task' shown)
    {now : DateTime} (hnow : task'.bind Phase.now = some now) : action.clock = some now := by
  cases h with
  | called | acquired =>
    cases hnow
    rfl
  | hit | missed | hitInside | missedInside | failed | answered | stored | dropped => cases hnow

theorem CallerStep.fetch_of_fetched (h : CallerStep ttl cache task action cache' task' shown)
    {phase : Phase V} (hphase : task' = some phase) (hfetched : phase.fetched = true) :
    shown.fetch = true ∨
      (∀ now, action ≠ .call now) ∧ ∃ before, task = some before ∧ before.fetched = true := by
  cases h with
  | called | missed | acquired =>
    cases hphase
    cases hfetched
  | missedInside => exact .inl rfl
  | answered => exact .inr ⟨nofun, _, rfl, rfl⟩
  | hit | hitInside | failed | stored | dropped => cases hphase

theorem CallerStep.reprobing_of_acquire {now : DateTime}
    (h : CallerStep ttl cache task (.acquire now) cache' task' shown) :
    task' = some (.reprobing now) := by
  cases h
  rfl

/-- A value is what a look has found, or what its caller has fetched. -/
theorem CallerStep.probe_of_returned (h : CallerStep ttl cache task action cache' task' shown)
    {value : V} (hended : shown.ended = some (.returned (some value))) :
    (∃ now, task.bind Phase.now = some now ∧ probe ttl cache now = some value) ∨
      ∃ phase, task = some phase ∧ phase.fetched = true := by
  cases h with
  | hit now _ found | hitInside now _ found =>
    cases hended
    exact .inl ⟨now, rfl, found⟩
  | stored => exact .inr ⟨_, rfl, rfl⟩
  | called | missed | acquired | missedInside | failed | answered | dropped => cases hended

/-- Only storing what was fetched changes the entry. -/
theorem CallerStep.entry_or_stored (h : CallerStep ttl cache task action cache' task' shown) :
    cache'.entry = cache.entry ∨
      task.bind Phase.held = some () ∧ ∃ fetched, shown.ended = some (.returned (some fetched)) := by
  cases h with
  | called | hit | missed | acquired | hitInside | missedInside | failed | answered => exact .inl rfl
  | stored fetched => exact .inr ⟨rfl, fetched, rfl⟩
  | dropped =>
    left
    split
    · rfl
    · rfl

theorem CallerStep.fetched_goes_on (h : CallerStep ttl cache task action cache' task' shown)
    {phase : Phase V} (hphase : task = some phase) (hfetched : phase.fetched = true)
    (hended : shown.ended = none) : ∃ next, task' = some next ∧ next.fetched = true := by
  cases h with
  | called => cases hphase
  | missed | acquired | missedInside =>
    cases hphase
    cases hfetched
  | answered => exact ⟨_, rfl, rfl⟩
  | hit | hitInside | failed | stored | dropped => cases hended

end CallerStep

theorem step_traced (hs : Traced es s) (he : (machine ttl).Step s e t) :
    Traced (es ++ [e]) t := by
  have hcaller := caller_step he
  refine ⟨?_, ?_, ?_⟩
  · intro i now hnow
    refine since_append.mpr ?_
    by_cases hi : e.1.1 = i
    · subst hi
      exact .inl ⟨rfl, hcaller.clock_of_now hnow⟩
    · rw [Program.step_other he (Ne.symm hi)] at hnow
      exact .inr ⟨hs.now i now hnow, hi⟩
  · intro i phase hphase hfetched
    refine since_append.mpr ?_
    by_cases hi : e.1.1 = i
    · subst hi
      rcases hcaller.fetch_of_fetched hphase hfetched with hfetch | ⟨hcall, before, hbefore, hpast⟩
      · exact .inl ⟨rfl, hfetch⟩
      · refine .inr ⟨hs.fetched _ before hbefore hpast, ?_⟩
        rintro ⟨now, heq⟩
        exact hcall now (congrArg Prod.snd heq)
    · rw [Program.step_other he (Ne.symm hi)] at hphase
      refine .inr ⟨hs.fetched i phase hphase hfetched, ?_⟩
      rintro ⟨now, heq⟩
      exact hi (congrArg Prod.fst heq)
  · intro i now hacquired
    rcases since_append.mp hacquired with hlast | ⟨hpast, hquiet⟩
    · unfold Acquires at hlast
      rw [hlast] at hcaller
      exact hcaller.reprobing_of_acquire
    · rw [Program.step_other he fun h => hquiet h.symm]
      exact hs.acquired i now hpast

theorem runs_traced (hr : Runs (machine ttl).Step (machine ttl).init es s) : Traced es s := by
  refine hr.history Traced (fun _ _ _ _ => step_traced) ⟨?_, ?_, ?_⟩
  · intro i now hnow
    cases hnow
  · intro i phase hphase
    cases hphase
  · intro i now hacquired
    exact absurd hacquired not_since_nil

/-! ## What the cache gives out -/

theorem probe_eq_some {cache : FetchCache V} {now : DateTime} {value : V} :
    probe ttl cache now = some value ↔
      ∃ entry, cache.entry = some entry ∧ entry.value = value ∧ now - entry.fetchedAt < ttl := by
  unfold probe
  cases hentry : cache.entry with
  | none => simp
  | some entry => simp [TimedCacheEntry.fresh, and_comm]

/-- Without a fetch of its own a call returns only what was fresh when it looked. -/
theorem step_returned (hs : Traced es s) (he : (machine ttl).Step s e t) {value : V}
    (hended : e.2.ended = some (.returned (some value)))
    (hfetched : ¬ Since (Fetches e.1.1) (Calls e.1.1) es) :
    ∃ now, Since (Reads e.1.1 now) (Acts e.1.1) es ∧ probe ttl s.shared now = some value := by
  rcases (caller_step he).probe_of_returned hended with ⟨now, hnow, hprobe⟩ | ⟨phase, hphase, hpast⟩
  · exact ⟨now, hs.now _ now hnow, hprobe⟩
  · exact absurd (hs.fetched _ phase hphase hpast) hfetched

/-! ## While a caller fetches -/

/-- A caller has started to fetch and has not ended since. -/
def Refreshing (s : State V) (i : ℕ) : Prop :=
  ∃ phase, s.tasks i = some phase ∧ phase.fetched = true

theorem Refreshing.held {i : ℕ} (h : Refreshing s i) : (s.tasks i).bind Phase.held = some () := by
  obtain ⟨phase, hphase, hfetched⟩ := h
  rw [hphase]
  cases phase with
  | probing | waiting | reprobing => cases hfetched
  | fetching | storing => rfl

/-- The refresh lock is with a caller that refreshes, so that nobody else stores. -/
theorem step_refreshing (hs : (machine ttl).Reachable s) (he : (machine ttl).Step s e t) {i : ℕ}
    (hi : Refreshing s i) (hgoing : e.1.1 = i → e.2.ended = none) :
    Refreshing t i ∧ t.shared.entry = s.shared.entry := by
  constructor
  · obtain ⟨phase, hphase, hfetched⟩ := hi
    by_cases hactor : e.1.1 = i
    · subst hactor
      exact (caller_step he).fetched_goes_on hphase hfetched (hgoing rfl)
    · exact ⟨phase, (Program.step_other he (Ne.symm hactor)).trans hphase, hfetched⟩
  · rcases (caller_step he).entry_or_stored with hsame | ⟨hheld, fetched, hended⟩
    · exact hsame
    · have hactor : e.1.1 = i := (reachable_exclusive hs).unique _ _ () hheld hi.held
      rw [hgoing hactor] at hended
      cases hended

theorem runs_refreshing (hs : (machine ttl).Reachable s) {i : ℕ} (hi : Refreshing s i)
    (hr : Runs (machine ttl).Step s es t) (hgoing : ∀ e ∈ es, e.1.1 = i → e.2.ended = none) :
    Refreshing t i ∧ t.shared.entry = s.shared.entry := by
  induction hr with
  | refl => exact ⟨hi, rfl⟩
  | cons he hr ih =>
    obtain ⟨hnext, hsame⟩ := step_refreshing hs he hi (hgoing _ List.mem_cons_self)
    obtain ⟨past, hpast⟩ := hs
    obtain ⟨hlast, hrest⟩ := ih ⟨_, hpast.append (.single he)⟩ hnext
      fun f hf => hgoing f (List.mem_cons_of_mem _ hf)
    exact ⟨hlast, hrest.trans hsame⟩

/-- A refresh that ends without a value has not stored one. -/
theorem step_unstored (he : (machine ttl).Step s e t)
    (hended : ∀ value, e.2.ended ≠ some (.returned (some value))) :
    t.shared.entry = s.shared.entry := by
  rcases (caller_step he).entry_or_stored with hsame | ⟨_, fetched, hstored⟩
  · exact hsame
  · exact absurd hstored (hended fetched)

theorem CallerStep.refreshing_of_fetch {cache cache' : FetchCache V} {task task' : Option (Phase V)}
    {action : Action V} {shown : Shown V}
    (h : CallerStep ttl cache task action cache' task' shown) (hfetch : shown.fetch = true) :
    cache' = cache ∧ task' = some .fetching ∧ shown.ended = none := by
  cases h with
  | missedInside => exact ⟨rfl, rfl, rfl⟩
  | called | hit | missed | acquired | hitInside | failed | answered | stored | dropped =>
    cases hfetch

/-- The second look, and what comes of it while the entry is fresh. -/
theorem act_reprobing {cache : FetchCache V} {now : DateTime} {value : V}
    (hprobe : probe ttl cache now = some value) :
    act ttl cache (some (.reprobing now)) .read =
      some (cache.unlock, none, { ended := some (.returned (some value)) }) := by
  simp only [act, hprobe]

theorem CallerStep.reuses {cache cache' : FetchCache V} {task' : Option (Phase V)}
    {action : Action V} {shown : Shown V} {now : DateTime} {value : V}
    (h : CallerStep ttl cache (some (.reprobing now)) action cache' task' shown)
    (hprobe : probe ttl cache now = some value) :
    shown.fetch = false ∧
      (shown.ended = some .dropped ∨ shown.ended = some (.returned (some value))) := by
  cases h with
  | hitInside _ _ found =>
    rw [hprobe] at found
    cases found
    exact ⟨rfl, .inr rfl⟩
  | missedInside _ found =>
    rw [hprobe] at found
    cases found
  | dropped => exact ⟨rfl, .inl rfl⟩

/-! ## The claim of the double-checked lock -/

/-- What double-checked locking is for, of a state and the steps that led to it. -/
structure FetchesOnce (ttl : Int) (es : List (Event (Action V) (Shown V))) (s : State V) :
    Prop where
  /-- At most one fetch is in flight. -/
  oneFetch : ∀ i j, InFlight s i → InFlight s j → i = j
  /-- What a call returns without a fetch was fresh by its own reading of the clock. -/
  fresh : ∀ e t value, (machine ttl).Step s e t →
    e.2.ended = some (.returned (some value)) → ¬ Since (Fetches e.1.1) (Calls e.1.1) es →
    ∃ now entry, Since (Reads e.1.1 now) (Acts e.1.1) es ∧ s.shared.entry = some entry ∧
      entry.value = value ∧ now - entry.fetchedAt < ttl
  /-- From the start of a fetch to its failure, or to the drop of its caller, the
  entry stays as it was. -/
  unchanged : ∀ e s₁ fs s₂ f t, (machine ttl).Step s e s₁ → e.2.fetch = true →
    Runs (machine ttl).Step s₁ fs s₂ → (∀ g ∈ fs, g.1.1 = e.1.1 → g.2.ended = none) →
    (machine ttl).Step s₂ f t → f.1.1 = e.1.1 →
    f.2.ended = some (.returned none) ∨ f.2.ended = some .dropped →
    s₂.shared.entry = s.shared.entry ∧ t.shared.entry = s.shared.entry
  /-- A caller that has just been given the lock and finds a fresh entry returns its
  value, unless it is dropped. -/
  reuses : ∀ i now entry, Since (Acquires i now) (Acts i) es → s.shared.entry = some entry →
    now - entry.fetchedAt < ttl →
    (∃ t, (machine ttl).Step s ((i, .read), { ended := some (.returned (some entry.value)) }) t) ∧
    ∀ e t, (machine ttl).Step s e t → e.1.1 = i → e.2.fetch = false ∧
      (e.2.ended = some .dropped ∨ e.2.ended = some (.returned (some entry.value)))

/-- In every run, with any number of callers, fetches that fail and callers that
are dropped. -/
theorem cachedFetch_fetches_once (hr : Runs (machine ttl).Step (machine ttl).init es s) :
    FetchesOnce ttl es s where
  oneFetch _ _ := reachable_inFlight ⟨es, hr⟩
  fresh := by
    intro e t value he hended hfetched
    obtain ⟨now, hnow, hprobe⟩ := step_returned (runs_traced hr) he hended hfetched
    obtain ⟨entry, hentry, hvalue, hfresh⟩ := probe_eq_some.mp hprobe
    exact ⟨now, entry, hnow, hentry, hvalue, hfresh⟩
  unchanged := by
    intro e s₁ fs s₂ f t he hfetch hrun hgoing hf hactor hended
    obtain ⟨hshared, htask, _⟩ := (caller_step he).refreshing_of_fetch hfetch
    have hs₁ : (machine ttl).Reachable s₁ := ⟨_, hr.append (.single he)⟩
    obtain ⟨_, hkept⟩ := runs_refreshing hs₁ ⟨_, htask, rfl⟩ hrun hgoing
    rw [hshared] at hkept
    refine ⟨hkept, (step_unstored hf fun value hvalue => ?_).trans hkept⟩
    rw [hvalue] at hended
    rcases hended with hended | hended
    · cases hended
    · cases hended
  reuses := by
    intro i now entry hacquired hentry hfresh
    have htask := (runs_traced hr).acquired i now hacquired
    have hprobe := probe_eq_some.mpr ⟨entry, hentry, rfl, hfresh⟩
    constructor
    · refine ⟨⟨s.shared.unlock, Function.update s.tasks i none⟩, Program.step_iff.mpr ⟨none, ?_, rfl⟩⟩
      rw [htask]
      exact act_reprobing hprobe
    · intro e t he hactor
      have hcaller := caller_step he
      rw [hactor, htask] at hcaller
      exact hcaller.reuses hprobe

/-- Two callers find nothing. One of them fetches, the other one reuses what it has
stored, and ten minutes later a third caller fetches in vain. -/
def coalesced : List (ℕ × Action ℕ) :=
  [(0, .call 0), (1, .call 0), (0, .read), (1, .read), (0, .acquire 1), (0, .read),
    (0, .respond (some 7)), (0, .write 2), (1, .acquire 3), (1, .read),
    (2, .call (JWKS_TTL + 2)), (2, .read), (2, .acquire (JWKS_TTL + 3)), (2, .read),
    (2, .respond none)]

theorem cachedFetch_fetches_once_coalesced : ∃ es s, es.map Prod.fst = coalesced ∧
    Runs (AuthProvider.jwks ℕ).Step (AuthProvider.jwks ℕ).init es s ∧ FetchesOnce JWKS_TTL es s ∧
    es.map (·.2.fetch) = [false, false, false, false, false, true, false, false, false, false,
      false, false, false, true, false] ∧
    s.shared.entry.map TimedCacheEntry.value = some 7 := by
  have hr := @Machine.runs_of_execute _ _ _ (AuthProvider.jwks ℕ) (AuthProvider.jwks ℕ).init _
    coalesced _ rfl
  exact ⟨_, _, rfl, hr, cachedFetch_fetches_once hr, rfl, rfl⟩

end RustMcpCore.Inbound.CachedFetch
