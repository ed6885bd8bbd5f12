import RustMcpCore.Library.TwoRuns

/-! # What a program that may fail keeps

From a state with the precondition two programs run alike, and their end has the
postcondition of a value or of an error. A program beside itself has a triple of its own.
What a program leaves alone keeps each invariant of its own.
-/
namespace RustMcpCore.Library.Fallible
variable {S E A B : Type}

theorem exec_map (f : A → B) (program : Fallible S E A) (state : S) :
    exec (f <$> program) state = ((exec program state).1.map f, (exec program state).2) := by
  rw [← bind_pure_comp, exec_bind]
  cases exec program state with
  | mk result after =>
    cases result with
    | error error => rfl
    | ok a => rfl

/-- What is asked of the end of a run. -/
structure Finishes (Gives : A → S → Prop) (Fails : E → S → Prop) (out : Except E A × S) : Prop where
  value : ∀ a, out.1 = .ok a → Gives a out.2
  error : ∀ error, out.1 = .error error → Fails error out.2

theorem Finishes.ok {Gives : A → S → Prop} {Fails : E → S → Prop} {a : A} {state : S}
    (h : Gives a state) : Finishes Gives Fails (.ok a, state) where
  value := fun _ heq => Except.ok.inj heq ▸ h
  error := fun _ heq => by cases heq

theorem Finishes.failed {Gives : A → S → Prop} {Fails : E → S → Prop} {error : E} {state : S}
    (h : Fails error state) : Finishes Gives Fails (.error error, state) where
  value := fun _ heq => by cases heq
  error := fun _ heq => Except.error.inj heq ▸ h

def SameFrom (Pre : S → Prop) (Gives : A → S → Prop) (Fails : E → S → Prop)
    (program program' : Fallible S E A) : Prop :=
  ∀ state, Pre state → exec program state = exec program' state ∧
    Finishes Gives Fails (exec program state)

abbrev Triple (Pre : S → Prop) (Gives : A → S → Prop) (Fails : E → S → Prop)
    (program : Fallible S E A) : Prop :=
  SameFrom Pre Gives Fails program program

section Rules
variable {Pre : S → Prop} {Gives : A → S → Prop} {Fails : E → S → Prop}
  {program program' : Fallible S E A}

theorem SameFrom.act {action action' : S → Except E A × S}
    (hsame : ∀ state, Pre state → action state = action' state)
    (hends : ∀ state, Pre state → Finishes Gives Fails (action state)) :
    SameFrom Pre Gives Fails (act action) (act action') := by
  intro state hpre
  rw [exec_act, exec_act]
  exact ⟨hsame state hpre, hends state hpre⟩

theorem SameFrom.pure {a : A} (h : ∀ state, Pre state → Gives a state) :
    SameFrom Pre Gives Fails (pure a) (pure a) :=
  fun state hpre => ⟨rfl, .ok (h state hpre)⟩

theorem SameFrom.throw {error : E} (h : ∀ state, Pre state → Fails error state) :
    SameFrom Pre Gives Fails (throw error) (throw error) :=
  fun state hpre => ⟨rfl, .failed (h state hpre)⟩

theorem SameFrom.lift {result : Except E A}
    (hvalue : ∀ a, result = .ok a → ∀ state, Pre state → Gives a state)
    (herror : ∀ error, result = .error error → ∀ state, Pre state → Fails error state) :
    SameFrom Pre Gives Fails (lift result) (lift result) :=
  .act (fun _ _ => rfl) fun state hpre =>
    { value := fun a heq => hvalue a heq state hpre
      error := fun error heq => herror error heq state hpre }

theorem SameFrom.bind {Mid : A → S → Prop} {Gives : B → S → Prop} {next next' : A → Fallible S E B}
    (h : SameFrom Pre Mid Fails program program')
    (hnext : ∀ a, SameFrom (Mid a) Gives Fails (next a) (next' a)) :
    SameFrom Pre Gives Fails (program >>= next) (program' >>= next') := by
  intro state hpre
  obtain ⟨hsame, hends⟩ := h state hpre
  rw [exec_bind, exec_bind, ← hsame]
  cases hrun : exec program state with
  | mk result after =>
    rw [hrun] at hends
    cases result with
    | ok a => exact hnext a after (hends.value a rfl)
    | error error => exact ⟨rfl, .failed (hends.error error rfl)⟩

/-- What comes after a result may use what the result is. -/
theorem SameFrom.lift_bind {Gives : B → S → Prop} {result : Except E A}
    {next next' : A → Fallible S E B}
    (hnext : ∀ a, result = .ok a → SameFrom Pre Gives Fails (next a) (next' a))
    (herror : ∀ error, result = .error error → ∀ state, Pre state → Fails error state) :
    SameFrom Pre Gives Fails (Fallible.lift result >>= next) (Fallible.lift result >>= next') := by
  intro state hpre
  have hlift : exec (Fallible.lift result) state = (result, state) := rfl
  rw [exec_bind, exec_bind, hlift]
  cases result with
  | error error => exact ⟨rfl, .failed (herror error rfl state hpre)⟩
  | ok a => exact hnext a rfl state hpre

theorem SameFrom.mono {Pre' : S → Prop} {Gives' : A → S → Prop} {Fails' : E → S → Prop}
    (h : SameFrom Pre Gives Fails program program') (hpre : ∀ state, Pre' state → Pre state)
    (hgives : ∀ a state, Gives a state → Gives' a state)
    (hfails : ∀ error state, Fails error state → Fails' error state) :
    SameFrom Pre' Gives' Fails' program program' := by
  intro state hstate
  obtain ⟨hsame, hends⟩ := h state (hpre state hstate)
  exact ⟨hsame, fun a heq => hgives a _ (hends.value a heq),
    fun error heq => hfails error _ (hends.error error heq)⟩

theorem SameFrom.map {Mid : A → S → Prop} {Gives : B → S → Prop} {f : A → B}
    (h : SameFrom Pre Mid Fails program program') (hf : ∀ a state, Mid a state → Gives (f a) state) :
    SameFrom Pre Gives Fails (f <$> program) (f <$> program') := by
  rw [← bind_pure_comp, ← bind_pure_comp]
  exact h.bind fun a => .pure (hf a)

/-- Of a list of programs that each keep the invariant the values are as asked, one by one. -/
theorem SameFrom.mapM {Inv : S → Prop} {Fine : B → Prop} {f f' : A → Fallible S E B} {given : List A}
    (h : ∀ a ∈ given, SameFrom Inv (fun b state => Inv state ∧ Fine b) Fails (f a) (f' a)) :
    SameFrom Inv (fun made state => Inv state ∧ ∀ b ∈ made, Fine b) Fails
      (given.mapM f) (given.mapM f') := by
  induction given with
  | nil =>
    refine .pure fun state hinv => ⟨hinv, fun b hb => ?_⟩
    cases hb
  | cons first rest ih =>
    rw [List.mapM_cons, List.mapM_cons]
    refine (h first List.mem_cons_self).bind fun head => ?_
    have hrest : SameFrom (fun state => Inv state ∧ Fine head)
        (fun tail state => (Inv state ∧ ∀ b ∈ tail, Fine b) ∧ Fine head) Fails
        (rest.mapM f) (rest.mapM f') := by
      intro state hstate
      obtain ⟨hsame, hends⟩ := ih (fun a ha => h a (List.mem_cons_of_mem _ ha)) state hstate.1
      exact ⟨hsame, fun tail heq => ⟨hends.value tail heq, hstate.2⟩, hends.error⟩
    refine hrest.bind fun tail => .pure fun state hstate => ⟨hstate.1.1, fun b hb => ?_⟩
    rcases List.mem_cons.mp hb with rfl | hb
    · exact hstate.2
    · exact hstate.1.2 b hb

/-- A list of programs that fails does so at one of them, once those before it are through. -/
theorem exec_mapM_error {f : A → Fallible S E B} {given : List A} {state after : S} {error : E}
    (h : exec (given.mapM f) state = (.error error, after)) :
    ∃ before a rest made reached, given = before ++ a :: rest ∧
      exec (before.mapM f) state = (.ok made, reached) ∧ exec (f a) reached = (.error error, after) := by
  induction given generalizing state after with
  | nil => cases h
  | cons first rest ih =>
    rw [List.mapM_cons, exec_bind] at h
    cases hfirst : exec (f first) state with
    | mk result reached =>
      rw [hfirst] at h
      cases result with
      | error other =>
        cases h
        exact ⟨[], first, rest, [], state, rfl, rfl, hfirst⟩
      | ok head =>
        dsimp only at h
        rw [exec_bind] at h
        cases hrest : exec (rest.mapM f) reached with
        | mk result later =>
          rw [hrest] at h
          cases result with
          | ok tail => cases h
          | error other =>
            obtain ⟨before, a, last, made, between, rfl, hbefore, hfailed⟩ := ih (hrest.trans h)
            refine ⟨first :: before, a, last, head :: made, between, rfl, ?_, hfailed⟩
            rw [List.mapM_cons, exec_bind, hfirst]
            dsimp only
            rw [exec_bind, hbefore]
            rfl

end Rules

/-! ## What a program leaves alone -/

/-- Whatever becomes of a program, it leaves a part of the state as it was. -/
def Leaves {V : Type} (view : S → V) (program : Fallible S E A) : Prop :=
  ∀ state, view (exec program state).2 = view state

section Frames
variable {V : Type} {view : S → V} {program : Fallible S E A}

theorem Leaves.act {action : S → Except E A × S} (h : ∀ state, view (action state).2 = view state) :
    Leaves view (act action) :=
  fun state => (congrArg (fun out => view out.2) (exec_act action state)).trans (h state)

theorem Leaves.pure (a : A) : Leaves view (pure a : Fallible S E A) := fun _ => rfl

theorem Leaves.throw (error : E) : Leaves view (throw error : Fallible S E A) := fun _ => rfl

theorem Leaves.lift (result : Except E A) : Leaves view (lift result : Fallible S E A) := fun _ => rfl

theorem Leaves.bind {next : A → Fallible S E B} (h : Leaves view program)
    (hnext : ∀ a, Leaves view (next a)) : Leaves view (program >>= next) := by
  intro state
  rw [exec_bind, ← h state]
  cases hrun : exec program state with
  | mk result after =>
    cases result with
    | error error => rfl
    | ok a => exact hnext a after

theorem Leaves.map {f : A → B} (h : Leaves view program) : Leaves view (f <$> program) := by
  intro state
  rw [exec_map]
  exact h state

theorem Leaves.mapM {f : A → Fallible S E B} {given : List A} (h : ∀ a, Leaves view (f a)) :
    Leaves view (given.mapM f) := by
  induction given with
  | nil => exact .pure []
  | cons first rest ih =>
    rw [List.mapM_cons]
    exact (h first).bind fun head => ih.bind fun tail => .pure (head :: tail)

/-- An invariant of what is left alone is kept. -/
theorem Leaves.triple {Inv : V → Prop} (h : Leaves view program) :
    Triple (fun state => Inv (view state)) (fun _ state => Inv (view state))
      (fun _ state => Inv (view state)) program := by
  refine fun state hinv => ⟨rfl, fun a _ => ?_, fun error _ => ?_⟩
  · rw [h state]
    exact hinv
  · rw [h state]
    exact hinv

end Frames

end RustMcpCore.Library.Fallible
