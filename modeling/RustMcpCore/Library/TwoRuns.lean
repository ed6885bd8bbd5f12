import Mathlib.Data.List.Basic

/-! # Two runs of a program that may fail

A program acts on a state and gives a value or fails. Two programs are alike if, from
states that agree, they give one value and leave states that agree, or both fail in
ways that are related. Programs that are put together from alike parts are alike.
-/
namespace RustMcpCore.Library

abbrev Fallible (S E A : Type) := ExceptT E (StateM S) A

namespace Fallible
variable {S E A B : Type}

def exec (program : Fallible S E A) (state : S) : Except E A × S := (ExceptT.run program).run state

/-- An action of its own. -/
def act (action : S → Except E A × S) : Fallible S E A := ExceptT.mk action

@[simp]
theorem exec_act (action : S → Except E A × S) (state : S) :
    exec (act action) state = action state := rfl

@[simp]
theorem exec_pure (a : A) (state : S) : exec (pure a : Fallible S E A) state = (.ok a, state) := rfl

@[simp]
theorem exec_throw (error : E) (state : S) :
    exec (throw error : Fallible S E A) state = (.error error, state) := rfl

theorem exec_bind (program : Fallible S E A) (next : A → Fallible S E B) (state : S) :
    exec (program >>= next) state =
      match exec program state with
      | (.ok a, state) => exec (next a) state
      | (.error error, state) => (.error error, state) := by
  change (match (exec program state).1 with
    | .ok a => exec (next a)
    | .error error => fun state => (.error error, state)) (exec program state).2 = _
  cases exec program state with
  | mk result after =>
    cases result with
    | error error => rfl
    | ok a => rfl

/-- Whatever a result is, nothing happens. -/
def lift (result : Except E A) : Fallible S E A := act fun state => (result, state)

/-! ## Alike programs -/

inductive Matching (Agree : S → S → Prop) (Fail : E → E → S → S → Prop) :
    Except E A × S → Except E A × S → Prop
  | value (a : A) {state state' : S} (agree : Agree state state') :
      Matching Agree Fail (.ok a, state) (.ok a, state')
  | failure {error error' : E} {state state' : S} (fails : Fail error error' state state') :
      Matching Agree Fail (.error error, state) (.error error', state')

def Alike (Agree : S → S → Prop) (Fail : E → E → S → S → Prop) (program program' : Fallible S E A) :
    Prop :=
  ∀ state state', Agree state state' →
    Matching Agree Fail (exec program state) (exec program' state')

section Rules
variable {Agree : S → S → Prop} {Fail : E → E → S → S → Prop}

theorem Alike.pure (a : A) : Alike Agree Fail (pure a) (pure a) :=
  fun _ _ h => .value a h

theorem Alike.lift (hfail : ∀ error state state', Agree state state' → Fail error error state state')
    (result : Except E A) : Alike Agree Fail (lift result) (lift result) := by
  intro state state' h
  cases result with
  | error error => exact .failure (hfail error state state' h)
  | ok a => exact .value a h

theorem Alike.throw (hfail : ∀ error state state', Agree state state' → Fail error error state state')
    (error : E) : Alike Agree Fail (throw error : Fallible S E A) (throw error) :=
  fun state state' h => .failure (hfail error state state' h)

theorem Alike.bind {program program' : Fallible S E A} {next next' : A → Fallible S E B}
    (h : Alike Agree Fail program program') (hnext : ∀ a, Alike Agree Fail (next a) (next' a)) :
    Alike Agree Fail (program >>= next) (program' >>= next') := by
  intro state state' hagree
  have hfirst := h state state' hagree
  rw [exec_bind, exec_bind]
  cases hrun : exec program state with
  | mk result after =>
    cases hrun' : exec program' state' with
    | mk result' after' =>
      rw [hrun, hrun'] at hfirst
      cases hfirst with
      | value a hagree => exact hnext a _ _ hagree
      | failure hfails => exact .failure hfails

theorem Alike.map {program program' : Fallible S E A} (h : Alike Agree Fail program program')
    (f : A → B) : Alike Agree Fail (f <$> program) (f <$> program') := by
  rw [← bind_pure_comp, ← bind_pure_comp]
  exact h.bind fun a => .pure (f a)

theorem Alike.mapM {f f' : A → Fallible S E B} (h : ∀ a, Alike Agree Fail (f a) (f' a))
    (given : List A) : Alike Agree Fail (given.mapM f) (given.mapM f') := by
  induction given with
  | nil => exact .pure []
  | cons first rest ih =>
    rw [List.mapM_cons, List.mapM_cons]
    refine (h first).bind fun head => ih.bind fun tail => ?_
    exact .pure (head :: tail)

end Rules

end Fallible

/-! ## Results with related errors -/

inductive Varies {E A : Type} (R : E → E → Prop) : Except E A → Except E A → Prop
  | same (result : Except E A) : Varies R result result
  | errors {error error' : E} (related : R error error') : Varies R (.error error) (.error error')

namespace Varies
variable {E F A B : Type} {R : E → E → Prop} {Q : F → F → Prop} {result result' : Except E A}

theorem mono {S : E → E → Prop} (h : Varies R result result')
    (hle : ∀ error error', R error error' → S error error') : Varies S result result' := by
  cases h with
  | same => exact .same result
  | errors related => exact .errors (hle _ _ related)

theorem map (h : Varies R result result') (f : A → B) : Varies R (result.map f) (result'.map f) := by
  cases h with
  | same => exact .same _
  | errors related => exact .errors related

theorem mapError (h : Varies R result result') {f : E → F}
    (hf : ∀ error error', R error error' → Q (f error) (f error')) :
    Varies Q (result.mapError f) (result'.mapError f) := by
  cases h with
  | same => exact .same _
  | errors related => exact .errors (hf _ _ related)

theorem bind {next next' : A → Except E B} (h : Varies R result result')
    (hnext : ∀ a, Varies R (next a) (next' a)) : Varies R (result >>= next) (result' >>= next') := by
  cases h with
  | same =>
    cases result with
    | error error => exact .same _
    | ok a => exact hnext a
  | errors related => exact .errors related

theorem foldlM {f f' : B → A → Except E B} (h : ∀ b a, Varies R (f b a) (f' b a)) (given : List A)
    (initial : B) : Varies R (given.foldlM f initial) (given.foldlM f' initial) := by
  induction given generalizing initial with
  | nil => exact .same _
  | cons first rest ih =>
    rw [List.foldlM_cons, List.foldlM_cons]
    exact (h initial first).bind ih

end Varies

end RustMcpCore.Library
