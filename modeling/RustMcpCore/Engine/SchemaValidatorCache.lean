import RustMcpCore.Engine.CanonicalJson
import RustMcpCore.Errors
import RustMcpCore.Library.HashMap
import RustMcpCore.Library.Interleaving

/-! # The cache of compiled schemas

Calls of `get_or_compile` share one map. A call has its lock while it looks up or inserts,
but not while it compiles, so that several calls may compile one schema. The first to
insert is the one whose validator all of them return.
-/
namespace RustMcpCore.SchemaValidatorCache
open Library

/-- A schema is a value with distinct names in each object. -/
structure Schema where
  value : Value
  keyed : value.Keyed

/-- `serde_json::to_vec`, with the text of an error. -/
abbrev ToVec := Value → Except String (List UInt8)

abbrev ValidatorMap (V : Type) := HashMap (List UInt8) V

inductive Phase (V : Type)
  | lookingUp
  | compiling
  | inserting (compiled : V)

structure Call (V : Type) where
  schema : Schema
  invalidSchema : String → McpError
  cacheKey : List UInt8
  phase : Phase V

inductive Action (V : Type)
  | call (schema : Schema) (invalidSchema : String → McpError)
  | lookUp
  /-- `jsonschema::validator_for` returns. -/
  | compile (result : Except String V)
  | insert

/-- What is compiled and what is returned in a step, and for which schema. -/
structure Shown (V : Type) where
  compiled : Option (Schema × Except String V) := none
  returned : Option (Schema × Except McpError V) := none

abbrev State (V : Type) := World (ValidatorMap V) (Call V)

abbrev Event (V : Type) := Library.Event (Action V) (Shown V)

variable {V : Type}

def orInsert (validators : ValidatorMap V) (cacheKey : List UInt8) (compiled : V) :
    ValidatorMap V × V :=
  match validators.lookup cacheKey with
  | some entry => (validators, entry)
  | none => (validators.insert cacheKey compiled, compiled)

section Machine
variable (toVec : ToVec)

def canonicalSchemaBytes (schema : Value) : Except String (List UInt8) :=
  toVec (canonicalizeJson schema)

/-- The steps of `get_or_compile`. -/
def act (validators : ValidatorMap V) :
    Option (Call V) → Action V → Option (ValidatorMap V × Option (Call V) × Shown V)
  | none, .call schema invalidSchema =>
    match canonicalSchemaBytes toVec schema.value with
    | .error error =>
      some (validators, none, { returned := some (schema, .error (invalidSchema error)) })
    | .ok cacheKey => some (validators, some ⟨schema, invalidSchema, cacheKey, .lookingUp⟩, {})
  | some ⟨schema, invalidSchema, cacheKey, .lookingUp⟩, .lookUp =>
    match validators.lookup cacheKey with
    | some cached => some (validators, none, { returned := some (schema, .ok cached) })
    | none => some (validators, some ⟨schema, invalidSchema, cacheKey, .compiling⟩, {})
  | some ⟨schema, invalidSchema, cacheKey, .compiling⟩, .compile result =>
    let compiled := some (schema, result)
    match result with
    | .error error =>
      let returned := some (schema, .error (invalidSchema error))
      some (validators, none, { compiled, returned })
    | .ok validator =>
      some (validators, some ⟨schema, invalidSchema, cacheKey, .inserting validator⟩, { compiled })
  | some ⟨schema, _, cacheKey, .inserting compiled⟩, .insert =>
    let (validators, entry) := orInsert validators cacheKey compiled
    some (validators, none, { returned := some (schema, .ok entry) })
  | _, _ => none

def program : Program (ValidatorMap V) (Call V) (Action V) (Shown V) :=
  ⟨∅, fun _ validators call action => act toVec validators call action⟩

end Machine

/-! ## What a step does -/

def Compiled (es : List (Event V)) (schema : Schema) (validator : V) : Prop :=
  ∃ e ∈ es, e.2.compiled = some (schema, .ok validator)

def Returned (es : List (Event V)) (schema : Schema) (validator : V) : Prop :=
  ∃ e ∈ es, e.2.returned = some (schema, .ok validator)

variable {toVec : ToVec} {validators validators' : ValidatorMap V} {call call' : Option (Call V)}
  {action : Action V} {shown : Shown V}

theorem lookup_orInsert {cacheKey : List UInt8} {compiled entry : V}
    (h : orInsert validators cacheKey compiled = (validators', entry)) :
    validators'.lookup cacheKey = some entry ∧
      (∀ key v, validators.lookup key = some v → validators'.lookup key = some v) ∧
      ∀ key v, validators'.lookup key = some v →
        validators.lookup key = some v ∨ key = cacheKey ∧ v = compiled := by
  unfold orInsert at h
  split at h
  · rename_i hentry
    cases h
    exact ⟨hentry, fun _ _ h => h, fun _ _ h => .inl h⟩
  · rename_i hnone
    cases h
    refine ⟨AList.lookup_insert _, fun key v hv => ?_, fun key v hv => ?_⟩
    · have hne : key ≠ cacheKey := by
        rintro rfl
        rw [hnone] at hv
        cases hv
      rw [AList.lookup_insert_ne hne, hv]
    · by_cases hkey : key = cacheKey
      · subst hkey
        rw [AList.lookup_insert] at hv
        exact .inr ⟨rfl, (Option.some.inj hv).symm⟩
      · rw [AList.lookup_insert_ne hkey] at hv
        exact .inl hv

/-- The steps of a call, with the map before and after. -/
inductive Acts (toVec : ToVec) (validators : ValidatorMap V) :
    Option (Call V) → ValidatorMap V → Option (Call V) → Shown V → Prop
  | started {schema : Schema} {invalidSchema : String → McpError} {cacheKey : List UInt8}
      (key : canonicalSchemaBytes toVec schema.value = .ok cacheKey) :
      Acts toVec validators none validators (some ⟨schema, invalidSchema, cacheKey, .lookingUp⟩) {}
  | failed {call : Option (Call V)} {schema : Schema} {error : McpError}
      {compiled : Option (Schema × Except String V)}
      (unsuccessful : ∀ schema validator, compiled ≠ some (schema, .ok validator)) :
      Acts toVec validators call validators none
        { compiled, returned := some (schema, .error error) }
  | hit {call : Call V} {cached : V} (found : validators.lookup call.cacheKey = some cached) :
      Acts toVec validators (some call) validators none
        { returned := some (call.schema, .ok cached) }
  | missed (call : Call V) :
      Acts toVec validators (some call) validators (some { call with phase := .compiling }) {}
  | compiled (call : Call V) (validator : V) :
      Acts toVec validators (some call) validators
        (some { call with phase := .inserting validator })
        { compiled := some (call.schema, .ok validator) }
  | inserted {call : Call V} {compiled entry : V} {validators' : ValidatorMap V}
      (phase : call.phase = .inserting compiled)
      (insert : orInsert validators call.cacheKey compiled = (validators', entry)) :
      Acts toVec validators (some call) validators' none
        { returned := some (call.schema, .ok entry) }

theorem acts_of_act (h : act toVec validators call action = some (validators', call', shown)) :
    Acts toVec validators call validators' call' shown := by
  unfold act at h
  split at h
  · split at h
    · cases h
      exact .failed fun _ _ h => by cases h
    · rename_i hkey
      cases h
      exact .started hkey
  · split at h
    · rename_i schema invalidSchema cacheKey _ cached hcached
      cases h
      exact @Acts.hit _ _ _ ⟨schema, invalidSchema, cacheKey, .lookingUp⟩ cached hcached
    · cases h
      exact .missed ⟨_, _, _, .lookingUp⟩
  · split at h
    · cases h
      exact .failed fun _ _ h => by cases h
    · rename_i validator
      cases h
      exact .compiled ⟨_, _, _, .compiling⟩ validator
  · rename_i schema invalidSchema cacheKey compiled
    cases h
    exact @Acts.inserted _ _ _ ⟨schema, invalidSchema, cacheKey, .inserting compiled⟩ _ _ _ rfl rfl
  · cases h

namespace Acts
variable {started : Call V} {schema : Schema} {validator : V}
  (h : Acts toVec validators call validators' call' shown)
include h

theorem key (hcall : ∀ started, call = some started →
    canonicalSchemaBytes toVec started.schema.value = .ok started.cacheKey)
    (hstarted : call' = some started) :
    canonicalSchemaBytes toVec started.schema.value = .ok started.cacheKey := by
  cases h with
  | started key =>
    cases hstarted
    exact key
  | failed => cases hstarted
  | hit => cases hstarted
  | missed before =>
    cases hstarted
    exact hcall before rfl
  | compiled before =>
    cases hstarted
    exact hcall before rfl
  | inserted => cases hstarted

theorem held (hstarted : call' = some started) (hphase : started.phase = .inserting validator) :
    shown.compiled = some (started.schema, .ok validator) := by
  cases h with
  | started =>
    cases hstarted
    cases hphase
  | failed => cases hstarted
  | hit => cases hstarted
  | missed =>
    cases hstarted
    cases hphase
  | compiled =>
    cases hstarted
    cases hphase
    rfl
  | inserted => cases hstarted

theorem kept {key : List UInt8} (hvalidator : validators.lookup key = some validator) :
    validators'.lookup key = some validator := by
  cases h with
  | inserted _ insert => exact (lookup_orInsert insert).2.1 key validator hvalidator
  | _ => exact hvalidator

theorem entry {key : List UInt8} (hvalidator : validators'.lookup key = some validator) :
    validators.lookup key = some validator ∨ ∃ started, call = some started ∧
      started.cacheKey = key ∧ started.phase = .inserting validator := by
  cases h with
  | inserted phase insert =>
    rcases (lookup_orInsert insert).2.2 key validator hvalidator with hkept | ⟨hkey, hcompiled⟩
    · exact .inl hkept
    · exact .inr ⟨_, rfl, hkey.symm, by rw [phase, hcompiled]⟩
  | _ => exact .inl hvalidator

theorem returned (hreturned : shown.returned = some (schema, .ok validator)) :
    shown.compiled = none ∧ ∃ started, call = some started ∧ started.schema = schema ∧
      validators'.lookup started.cacheKey = some validator := by
  cases h with
  | started => cases hreturned
  | failed => cases hreturned
  | hit found =>
    cases hreturned
    exact ⟨rfl, _, rfl, rfl, found⟩
  | missed => cases hreturned
  | compiled => cases hreturned
  | inserted _ insert =>
    cases hreturned
    exact ⟨rfl, _, rfl, rfl, (lookup_orInsert insert).1⟩

end Acts

/-! ## Every run -/

/-- What the calls and the entries hold was compiled before, and what was returned is an entry. -/
structure Sound (toVec : ToVec) (es : List (Event V)) (s : State V) : Prop where
  keys : ∀ i call, s.tasks i = some call →
    canonicalSchemaBytes toVec call.schema.value = .ok call.cacheKey
  holds : ∀ i call validator, s.tasks i = some call → call.phase = .inserting validator →
    Compiled es call.schema validator
  entries : ∀ key validator, s.shared.lookup key = some validator →
    ∃ schema, canonicalSchemaBytes toVec schema.value = .ok key ∧ Compiled es schema validator
  returns : ∀ schema validator, Returned es schema validator →
    ∃ key, canonicalSchemaBytes toVec schema.value = .ok key ∧ s.shared.lookup key = some validator

theorem Compiled.append {es fs : List (Event V)} {schema : Schema} {validator : V}
    (h : Compiled es schema validator) : Compiled (es ++ fs) schema validator := by
  obtain ⟨e, he, hcompiled⟩ := h
  exact ⟨e, List.mem_append_left fs he, hcompiled⟩

theorem sound_init : Sound toVec [] (program toVec : Program (ValidatorMap V) _ _ _).machine.init where
  keys _ _ h := by cases h
  holds _ _ _ h := by cases h
  entries key validator h := by cases h
  returns _ _ h := by
    obtain ⟨_, hmem, _⟩ := h
    cases hmem

theorem step_sound {es : List (Event V)} {s t : State V} {e : Event V} (hs : Sound toVec es s)
    (he : (program toVec).machine.Step s e t) : Sound toVec (es ++ [e]) t := by
  have hacts : Acts toVec s.shared (s.tasks e.1.1) t.shared (t.tasks e.1.1) e.2 :=
    acts_of_act (Program.step_self he)
  constructor
  · intro i call hcall
    by_cases hi : i = e.1.1
    · subst hi
      exact hacts.key (hs.keys _) hcall
    · rw [Program.step_other he hi] at hcall
      exact hs.keys i call hcall
  · intro i call validator hcall hphase
    by_cases hi : i = e.1.1
    · subst hi
      exact ⟨e, List.mem_concat_self, hacts.held hcall hphase⟩
    · rw [Program.step_other he hi] at hcall
      exact (hs.holds i call validator hcall hphase).append
  · intro key validator hvalidator
    rcases hacts.entry hvalidator with hkept | ⟨call, hcall, rfl, hphase⟩
    · obtain ⟨schema, hkey, hcompiled⟩ := hs.entries key validator hkept
      exact ⟨schema, hkey, hcompiled.append⟩
    · exact ⟨call.schema, hs.keys _ call hcall, (hs.holds _ call validator hcall hphase).append⟩
  · rintro schema validator ⟨f, hf, hreturned⟩
    rcases List.mem_append.mp hf with hf | hf
    · obtain ⟨key, hkey, hentry⟩ := hs.returns schema validator ⟨f, hf, hreturned⟩
      exact ⟨key, hkey, hacts.kept hentry⟩
    · cases List.mem_singleton.mp hf
      obtain ⟨-, call, hcall, rfl, hentry⟩ := hacts.returned hreturned
      exact ⟨call.cacheKey, hs.keys _ call hcall, hentry⟩

theorem runs_sound {es : List (Event V)} {s : State V}
    (hr : Runs (program toVec).machine.Step (program toVec).machine.init es s) :
    Sound toVec es s :=
  hr.history (Sound toVec) (fun _ _ _ _ => step_sound) sound_init

/-- What is returned was compiled before, from a schema with the same key. -/
theorem returned_compiled {past rest : List (Event V)} {e : Event V} {s : State V}
    (hr : Runs (program toVec).machine.Step (program toVec).machine.init (past ++ e :: rest) s)
    {schema : Schema} {validator : V} (hreturned : e.2.returned = some (schema, .ok validator)) :
    ∃ compiled key, canonicalSchemaBytes toVec compiled.value = .ok key ∧
      canonicalSchemaBytes toVec schema.value = .ok key ∧ Compiled past compiled validator := by
  rw [← List.singleton_append, ← List.append_assoc] at hr
  obtain ⟨t, hpast, -⟩ := hr.split
  obtain ⟨u, -, hstep⟩ := hpast.split
  have ht := runs_sound hpast
  obtain ⟨key, hkey, hentry⟩ := ht.returns schema validator ⟨e, List.mem_concat_self, hreturned⟩
  obtain ⟨compiled, hcompiledKey, f, hf, hcompiled⟩ := ht.entries key validator hentry
  refine ⟨compiled, key, hcompiledKey, hkey, ?_⟩
  rcases List.mem_append.mp hf with hf | hf
  · exact ⟨f, hf, hcompiled⟩
  · cases List.mem_singleton.mp hf
    cases hstep with
    | cons he =>
      have hnone := ((acts_of_act (Program.step_self he)).returned hreturned).1
      rw [hnone] at hcompiled
      cases hcompiled

/-! ## Transparency -/

/-- The bytes of values in order tell them apart. -/
def Injective (toVec : ToVec) : Prop :=
  ∀ value other bytes, value.Ordered → other.Ordered → toVec value = .ok bytes →
    toVec other = .ok bytes → value = other

theorem key_eq_iff (hinjective : Injective toVec) {schema other : Schema}
    {key otherKey : List UInt8} (hkey : canonicalSchemaBytes toVec schema.value = .ok key)
    (hother : canonicalSchemaBytes toVec other.value = .ok otherKey) :
    key = otherKey ↔ SameUpToOrder schema.value other.value := by
  rw [← canonicalizeJson_eq_iff schema.keyed other.keyed]
  constructor
  · rintro rfl
    exact hinjective _ _ key (canonicalizeJson_ordered schema.keyed)
      (canonicalizeJson_ordered other.keyed) hkey hother
  · intro heq
    unfold canonicalSchemaBytes at hkey hother
    rw [heq, hother] at hkey
    exact (Except.ok.inj hkey).symm

/-- Calls return a validator of their schema, up to the order of its members, and all calls
of such schemas the same one. -/
theorem cache_transparent {toVec : ToVec} (hinjective : Injective toVec) :
    (∀ (schema other : Schema) (key otherKey : List UInt8),
      canonicalSchemaBytes toVec schema.value = .ok key →
      canonicalSchemaBytes toVec other.value = .ok otherKey →
      (key = otherKey ↔ SameUpToOrder schema.value other.value)) ∧
    ∀ {V : Type} {es : List (Event V)} {s : State V},
      Runs (program toVec).machine.Step (program toVec).machine.init es s →
      (∀ past e rest schema validator, es = past ++ e :: rest →
        e.2.returned = some (schema, .ok validator) →
        ∃ compiled, SameUpToOrder compiled.value schema.value ∧ Compiled past compiled validator) ∧
      (∀ key validator, s.shared.lookup key = some validator →
        ∃ schema, canonicalSchemaBytes toVec schema.value = .ok key ∧ Compiled es schema validator) ∧
      ∀ schema other validator otherValidator, SameUpToOrder schema.value other.value →
        Returned es schema validator → Returned es other otherValidator →
        validator = otherValidator := by
  refine ⟨fun _ _ _ _ => key_eq_iff hinjective, fun {V es s} hr => ⟨?_, (runs_sound hr).entries, ?_⟩⟩
  · rintro past e rest schema validator rfl hreturned
    obtain ⟨compiled, key, hcompiledKey, hkey, hcompiled⟩ := returned_compiled hr hreturned
    exact ⟨compiled, (key_eq_iff hinjective hcompiledKey hkey).mp rfl, hcompiled⟩
  · intro schema other validator otherValidator hsame hreturned hotherReturned
    obtain ⟨key, hkey, hentry⟩ := (runs_sound hr).returns schema validator hreturned
    obtain ⟨otherKey, hotherKey, hotherEntry⟩ :=
      (runs_sound hr).returns other otherValidator hotherReturned
    rw [(key_eq_iff hinjective hkey hotherKey).mpr hsame, hotherEntry] at hentry
    exact (Option.some.inj hentry).symm

/-- The bytes of one value. -/
def sampleToVec : ToVec
  | .object [("a", .null), ("b", .null)] => .ok "\x7b\"a\":null,\"b\":null\x7d".toUTF8.toList
  | _ => .error "recursion limit exceeded"

theorem sampleToVec_injective : Injective sampleToVec := by
  intro value other bytes _ _ hvalue hother
  unfold sampleToVec at hvalue hother
  split at hvalue
  · split at hother
    · rfl
    · cases hother
  · cases hvalue

def forwards : Schema :=
  ⟨.object [("a", .null), ("b", .null)], .object (by decide) (by simp [Value.Keyed.null])⟩

def backwards : Schema :=
  ⟨.object [("b", .null), ("a", .null)], .object (by decide) (by simp [Value.Keyed.null])⟩

/-- Two calls that compile side by side. -/
def sideBySide : List (ℕ × Action ℕ) :=
  [(0, .call forwards fun error => .invalidParams error none),
    (1, .call backwards fun error => .invalidParams error none), (0, .lookUp), (1, .lookUp),
    (0, .compile (.ok 7)), (1, .compile (.ok 8)), (1, .insert), (0, .insert)]

theorem cache_transparent_side_by_side : ∃ es s,
    Runs (program sampleToVec).machine.Step (program sampleToVec).machine.init es s ∧
      Returned es backwards 8 ∧ ∀ validator, Returned es forwards validator → validator = 8 := by
  obtain ⟨s, os, hexecute, hos⟩ : ∃ s os,
      (program sampleToVec).machine.execute (program sampleToVec).machine.init sideBySide =
        some (s, os) ∧ os[6]? = some { returned := some (backwards, .ok 8) } := ⟨_, _, rfl, rfl⟩
  have hr := Machine.runs_of_execute hexecute
  have hbackwards : Returned (sideBySide.zip os) backwards 8 := by
    have hlast : ((1, Action.insert), { returned := some (backwards, .ok 8) }) ∈
        sideBySide.zip os :=
      List.mem_iff_getElem?.mpr ⟨6, List.getElem?_zip_eq_some.mpr ⟨rfl, hos⟩⟩
    exact ⟨_, hlast, rfl⟩
  refine ⟨_, s, hr, hbackwards, fun validator hvalidator => ?_⟩
  have hsame : SameUpToOrder forwards.value backwards.value :=
    ((cache_transparent sampleToVec_injective).1 forwards backwards _ _ rfl rfl).mp rfl
  exact ((cache_transparent sampleToVec_injective).2 hr).2.2 forwards backwards validator 8 hsame
    hvalidator hbackwards

end RustMcpCore.SchemaValidatorCache
