import Mathlib.Data.Set.Card
import Mathlib.Logic.Function.Basic
import Mathlib.Logic.Relation
import RustMcpCore.Library.Runs

/-! # Tasks interleaved over a shared state

Any number of tasks run concurrently. One step lets one task act: it may change
the shared state and its own state, start when it does not exist, or end. What a
task sees between two of its steps is up to the others.
-/
namespace RustMcpCore.Library
variable {G T A O V : Type*}

/-- How one task acts, named by its number. -/
structure Program (G T A O : Type*) where
  init : G
  act : ℕ → G → Option T → A → Option (G × Option T × O)

/-- The shared part of a state and the tasks that exist. -/
structure World (G T : Type*) where
  shared : G
  tasks : ℕ → Option T

/-- Whose step it is, the action, and what it shows. -/
abbrev Event (A O : Type*) := (ℕ × A) × O

namespace Program
variable (P : Program G T A O)

def next (s : World G T) (l : ℕ × A) : Option (World G T × O) :=
  (P.act l.1 s.shared (s.tasks l.1) l.2).map fun r =>
    (⟨r.1, Function.update s.tasks l.1 r.2.1⟩, r.2.2)

def machine : Machine (World G T) (ℕ × A) O := ⟨⟨P.init, fun _ => none⟩, P.next⟩

variable {P} {s t : World G T} {e : Event A O}

theorem step_iff : P.machine.Step s e t ↔
    ∃ task, P.act e.1.1 s.shared (s.tasks e.1.1) e.1.2 = some (t.shared, task, e.2) ∧
      t.tasks = Function.update s.tasks e.1.1 task := by
  simp only [Machine.Step, machine, next, Option.map_eq_some_iff, Prod.exists, Prod.mk.injEq]
  constructor
  · rintro ⟨g, task, o, h, rfl, rfl⟩
    exact ⟨task, h, rfl⟩
  · rintro ⟨task, h, ht⟩
    exact ⟨t.shared, task, _, h, by rw [← ht], rfl⟩

theorem step_self (h : P.machine.Step s e t) :
    P.act e.1.1 s.shared (s.tasks e.1.1) e.1.2 = some (t.shared, t.tasks e.1.1, e.2) := by
  obtain ⟨task, hact, ht⟩ := step_iff.mp h
  rw [hact, ht, Function.update_self]

theorem step_other (h : P.machine.Step s e t) {i : ℕ} (hi : i ≠ e.1.1) :
    t.tasks i = s.tasks i := by
  obtain ⟨task, _, ht⟩ := step_iff.mp h
  rw [ht, Function.update_of_ne hi]

theorem step_bind {f : T → Option V} (h : P.machine.Step s e t)
    (hself : (t.tasks e.1.1).bind f = (s.tasks e.1.1).bind f) (i : ℕ) :
    (t.tasks i).bind f = (s.tasks i).bind f := by
  by_cases hi : i = e.1.1
  · rw [hi, hself]
  · rw [step_other h hi]

/-- What a task comes to hold it holds alone among the things that changed hands. -/
theorem step_bind_new {f : T → Option V} {v : V} (h : P.machine.Step s e t)
    (hnew : (t.tasks e.1.1).bind f = some v) {i : ℕ} {w : V} (hw : (t.tasks i).bind f = some w) :
    w = v ∨ (s.tasks i).bind f = some w := by
  by_cases hi : i = e.1.1
  · rw [hi, hnew] at hw
    cases hw
    exact .inl rfl
  · rw [step_other h hi] at hw
    exact .inr hw

/-- What a task lets go of is the only thing that nobody holds any more. -/
theorem step_bind_old {f : T → Option V} {v : V} (h : P.machine.Step s e t)
    (hold : (s.tasks e.1.1).bind f = some v) {i : ℕ} {w : V} (hw : (s.tasks i).bind f = some w) :
    w = v ∨ (t.tasks i).bind f = some w := by
  by_cases hi : i = e.1.1
  · rw [hi, hold] at hw
    cases hw
    exact .inl rfl
  · rw [step_other h hi]
    exact .inr hw

theorem step_bind_kept {f : T → Option V} {v : V} (h : P.machine.Step s e t)
    (hfree : (s.tasks e.1.1).bind f = none) {i : ℕ} (hv : (s.tasks i).bind f = some v) :
    (t.tasks i).bind f = some v := by
  rwa [step_other h]
  rintro rfl
  rw [hfree] at hv
  cases hv

theorem step_bind_held {f : T → Option V} {v : V} (h : P.machine.Step s e t)
    (hfree : (t.tasks e.1.1).bind f = none) {i : ℕ} (hv : (t.tasks i).bind f = some v) :
    (s.tasks i).bind f = some v := by
  rwa [← step_other h]
  rintro rfl
  rw [hfree] at hv
  cases hv

/-- The tasks in a phase. -/
def inPhase (p : T → Prop) (s : World G T) : Set ℕ := {i | ∃ task ∈ s.tasks i, p task}

section Phases
variable {p : T → Prop}

theorem inPhase_init : inPhase p P.machine.init = ∅ := by
  ext i
  simp [inPhase, machine]

theorem mem_inPhase_other (h : P.machine.Step s e t) {i : ℕ} (hi : i ≠ e.1.1) :
    i ∈ inPhase p t ↔ i ∈ inPhase p s := by
  simp only [inPhase, Set.mem_ofPred_eq, step_other h hi]

theorem inPhase_subset (h : P.machine.Step s e t) :
    inPhase p t ⊆ insert e.1.1 (inPhase p s) := by
  intro i hi
  by_cases heq : i = e.1.1
  · exact .inl heq
  · exact .inr ((mem_inPhase_other h heq).mp hi)

theorem step_inPhase_finite (h : P.machine.Step s e t) (hs : (inPhase p s).Finite) :
    (inPhase p t).Finite :=
  (hs.insert _).subset (inPhase_subset h)

theorem step_inPhase_enter (h : P.machine.Step s e t) (hs : (inPhase p s).Finite) :
    (inPhase p t).ncard ≤ (inPhase p s).ncard + 1 :=
  (Set.ncard_le_ncard (inPhase_subset h) (hs.insert _)).trans (Set.ncard_insert_le _ _)

theorem step_inPhase_stay (h : P.machine.Step s e t) (hs : (inPhase p s).Finite)
    (hout : e.1.1 ∉ inPhase p t) : (inPhase p t).ncard ≤ (inPhase p s).ncard := by
  refine Set.ncard_le_ncard (fun i hi => ?_) hs
  rcases inPhase_subset h hi with rfl | hi'
  · exact absurd hi hout
  · exact hi'

theorem step_inPhase_leave (h : P.machine.Step s e t) (hs : (inPhase p s).Finite)
    (hin : e.1.1 ∈ inPhase p s) (hout : e.1.1 ∉ inPhase p t) :
    (inPhase p t).ncard < (inPhase p s).ncard := by
  refine Set.ncard_lt_ncard ⟨fun i hi => ?_, fun hsub => hout (hsub hin)⟩ hs
  rcases inPhase_subset h hi with rfl | hi'
  · exact absurd hi hout
  · exact hi'

end Phases

/-- A task that acts while the others stand still. -/
def Alone (P : Program G T A O) (i : ℕ) (x : G × Option T) (e : A × O) (y : G × Option T) :
    Prop :=
  P.act i x.1 x.2 e.1 = some (y.1, y.2, e.2)

/-- What a task can do alone is a run of all of them. -/
theorem runs_alone {i : ℕ} {x y : G × Option T} {es : List (A × O)}
    (hr : Runs (P.Alone i) x es y) (tasks : ℕ → Option T) :
    Runs P.machine.Step ⟨x.1, Function.update tasks i x.2⟩ (es.map fun e => ((i, e.1), e.2))
      ⟨y.1, Function.update tasks i y.2⟩ := by
  refine hr.simulate (fun _ => True) (fun x => World.mk x.1 (Function.update tasks i x.2)) _
    (fun _ _ _ _ _ => trivial) ?_ trivial
  intro a e b _ hact
  refine step_iff.mpr ⟨b.2, ?_, ?_⟩
  · simpa only [Function.update_self, Alone] using hact
  · simp only [Function.update_idem]

/-! ## Locks

A task takes a lock that nobody holds, and only its holder lets go of it. -/

section Locks
variable (held : T → Option V) (locked : G → V → Prop)

structure Locks (P : Program G T A O) : Prop where
  kept : ∀ {i g task a g' task' o v}, P.act i g task a = some (g', task', o) → locked g v →
    (task.bind held = some v → task'.bind held = some v) → locked g' v
  taken : ∀ {i g task a g' task' o v}, P.act i g task a = some (g', task', o) →
    task'.bind held = some v → task.bind held = some v ∨ (¬ locked g v ∧ locked g' v)

structure Exclusive (s : World G T) : Prop where
  locked : ∀ i v, (s.tasks i).bind held = some v → locked s.shared v
  unique : ∀ i j v, (s.tasks i).bind held = some v → (s.tasks j).bind held = some v → i = j

variable {held locked}

theorem exclusive_init : Exclusive held locked P.machine.init where
  locked _ _ h := by cases h
  unique _ _ _ h := by cases h

theorem step_exclusive (hP : Locks held locked P) (hs : Exclusive held locked s)
    (he : P.machine.Step s e t) : Exclusive held locked t := by
  have hact := step_self he
  have hactor : ∀ j v, (t.tasks e.1.1).bind held = some v → (t.tasks j).bind held = some v →
      e.1.1 = j := by
    intro j v hv hj
    by_contra hne
    rw [step_other he (Ne.symm hne)] at hj
    rcases hP.taken hact hv with hheld | ⟨hfree, _⟩
    · exact hne (hs.unique _ _ v hheld hj)
    · exact hfree (hs.locked j v hj)
  constructor
  · intro i v hv
    by_cases hi : i = e.1.1
    · subst hi
      rcases hP.taken hact hv with hheld | ⟨_, hlocked⟩
      · exact hP.kept hact (hs.locked _ v hheld) fun _ => hv
      · exact hlocked
    · rw [step_other he hi] at hv
      exact hP.kept hact (hs.locked i v hv) fun hheld => absurd (hs.unique i _ v hv hheld) hi
  · intro i j v hi hj
    by_cases hia : i = e.1.1
    · subst hia
      exact hactor j v hi hj
    · by_cases hja : j = e.1.1
      · subst hja
        exact (hactor i v hj hi).symm
      · rw [step_other he hia] at hi
        rw [step_other he hja] at hj
        exact hs.unique i j v hi hj

end Locks

/-! ## Waiting for locks

Tasks that wait for each other in a ring would wait for ever. There is no ring where a task waits
only for locks that rank below all those it has.
-/

section Waiting
variable (holds : T → V → Prop) (waits : T → Option V)

/-- The first task waits for a lock that the second one has. -/
def WaitsFor (s : World G T) (i j : ℕ) : Prop :=
  ∃ task other v, s.tasks i = some task ∧ waits task = some v ∧ s.tasks j = some other ∧
    holds other v

variable {holds waits}

theorem exists_not_waiting (rank : V → ℕ)
    (hranked : ∀ i task v w, s.tasks i = some task → waits task = some v → holds task w →
      rank v < rank w) {i : ℕ} {task : T} (hi : s.tasks i = some task) :
    ∃ j, Relation.ReflTransGen (WaitsFor holds waits s) i j ∧ (s.tasks j).isSome = true ∧
      ∀ k, ¬ WaitsFor holds waits s j k := by
  have hbelow : ∀ n v, rank v = n → ∀ j other, s.tasks j = some other → holds other v →
      ∃ k, Relation.ReflTransGen (WaitsFor holds waits s) j k ∧ (s.tasks k).isSome = true ∧
        ∀ l, ¬ WaitsFor holds waits s k l := by
    intro n
    induction n using Nat.strong_induction_on with
    | _ n ih =>
      rintro v rfl j other hj hholds
      by_cases hfree : ∃ k, WaitsFor holds waits s j k
      · obtain ⟨k, hwaits⟩ := hfree
        have hwaits' := hwaits
        obtain ⟨waiter, holder, w, hwaiter, hw, hholder, hheld⟩ := hwaits'
        rw [hj] at hwaiter
        cases hwaiter
        obtain ⟨l, hchain, hl⟩ := ih _ (hranked j other w v hj hw hholds) w rfl k holder hholder hheld
        exact ⟨l, .head hwaits hchain, hl⟩
      · refine ⟨j, .refl, ?_, fun k hk => hfree ⟨k, hk⟩⟩
        rw [hj]
        rfl
  by_cases hfree : ∃ k, WaitsFor holds waits s i k
  · obtain ⟨k, hwaits⟩ := hfree
    have hwaits' := hwaits
    obtain ⟨_, holder, v, _, _, hholder, hheld⟩ := hwaits'
    obtain ⟨l, hchain, hl⟩ := hbelow _ v rfl k holder hholder hheld
    exact ⟨l, .head hwaits hchain, hl⟩
  · refine ⟨i, .refl, ?_, fun k hk => hfree ⟨k, hk⟩⟩
    rw [hi]
    rfl

end Waiting

/-! ## Captured values

A task reads a published value and goes on to use what it has read. The value it
holds is the published one for as long as nothing is published meanwhile. -/

variable (current : G → Option V) (captured : T → Option V) (publishes : A → Prop)

/-- Nothing is published while a task holds a captured value. -/
def Undisturbed (s : World G T) (e : Event A O) : Prop :=
  publishes e.1.2 → ∀ i, (s.tasks i).bind captured = none

/-- Only publishing changes the published value, and what a task comes to hold is
the published value. -/
structure Captures (P : Program G T A O) : Prop where
  kept : ∀ {i g task a g' task' o}, P.act i g task a = some (g', task', o) → ¬ publishes a →
    current g' = current g
  read : ∀ {i g task a g' task' o v}, P.act i g task a = some (g', task', o) →
    task'.bind captured = some v →
      ¬ publishes a ∧ (current g = some v ∨ task.bind captured = some v)

def CapturedCurrent (s : World G T) : Prop :=
  ∀ i v, (s.tasks i).bind captured = some v → current s.shared = some v

variable {current captured publishes}

theorem step_capturedCurrent (hP : Captures current captured publishes P)
    (hs : CapturedCurrent current captured s)
    (he : Guarded P.machine.Step (Undisturbed captured publishes) s e t) :
    CapturedCurrent current captured t := by
  obtain ⟨hstep, hguard⟩ := he
  have hact := step_self hstep
  intro i v hv
  by_cases hi : i = e.1.1
  · subst hi
    obtain ⟨hquiet, hread⟩ := hP.read hact hv
    have hkept := hP.kept hact hquiet
    rcases hread with hread | hheld
    · exact hkept.trans hread
    · exact hkept.trans (hs _ v hheld)
  · rw [step_other hstep hi] at hv
    have hquiet : ¬ publishes e.1.2 := by
      intro hp
      rw [hguard hp i] at hv
      cases hv
    exact (hP.kept hact hquiet).trans (hs i v hv)

/-- In a run in which nothing is published while a task holds a captured value,
all tasks hold the published one. -/
theorem runs_capturedCurrent (hP : Captures current captured publishes P)
    {es : List (Event A O)} (hr : Runs (Guarded P.machine.Step (Undisturbed captured publishes))
      P.machine.init es s) : CapturedCurrent current captured s := by
  refine hr.invariant (CapturedCurrent current captured)
    (fun _ _ _ hs he => step_capturedCurrent hP hs he) ?_
  intro _ _ h
  cases h

end Program
end RustMcpCore.Library
