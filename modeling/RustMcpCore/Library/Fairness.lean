import Mathlib.Data.Nat.Init
import Mathlib.Order.Nat
import RustMcpCore.Library.Runs

/-! # Executions that go on for ever

At each position of an execution one event happens, or nothing does. A class of
events is treated fairly if it does not stay enabled for ever without one of its
events happening. What fairness brings about is shown by a rank that the events
of the class lower and the others do not raise.
-/
namespace RustMcpCore.Library
variable {S E A F : Type*} {step : S → E → S → Prop} {abstractStep : A → F → A → Prop}

structure Execution (step : S → E → S → Prop) where
  state : ℕ → S
  event : ℕ → Option E
  idle : ∀ n, event n = none → state (n + 1) = state n
  step : ∀ n e, event n = some e → step (state n) e (state (n + 1))

def Enabled (step : S → E → S → Prop) (c : E → Prop) (s : S) : Prop := ∃ e t, step s e t ∧ c e

namespace Execution
variable (x : Execution step)

def WeaklyFair (c : E → Prop) : Prop :=
  ∀ n, (∀ m, n ≤ m → Enabled step c (x.state m)) → ∃ m e, n ≤ m ∧ x.event m = some e ∧ c e

variable {x}

/-- What steps keep, an execution keeps. -/
theorem always {I : S → Prop} {n : ℕ} (hn : I (x.state n))
    (hstep : ∀ m e, n ≤ m → x.event m = some e → I (x.state m) → I (x.state (m + 1))) :
    ∀ m, n ≤ m → I (x.state m) := by
  intro m hm
  induction m, hm using Nat.le_induction with
  | base => exact hn
  | succ m hm ih =>
    cases he : x.event m with
    | none => rwa [x.idle m he]
    | some e => exact hstep m e hm he ih

/-- Under fairness to a class that stays enabled, something happens that the events
of the class bring nearer and the others do not put off. -/
theorem leadsTo {c : E → Prop} (hfair : x.WeaklyFair c) (P : S → Prop) (rank : S → ℕ)
    (Q : ℕ → E → Prop) {n : ℕ} (hn : P (x.state n))
    (henabled : ∀ m, n ≤ m → P (x.state m) → Enabled step c (x.state m))
    (hstep : ∀ m e, n ≤ m → x.event m = some e → P (x.state m) → Q m e ∨
      P (x.state (m + 1)) ∧ rank (x.state (m + 1)) ≤ rank (x.state m) ∧
        (c e → rank (x.state (m + 1)) < rank (x.state m))) :
    ∃ m e, n ≤ m ∧ x.event m = some e ∧ P (x.state m) ∧ Q m e := by
  induction hr : rank (x.state n) using Nat.strong_induction_on generalizing n with
  | _ r ih =>
    by_contra hnever
    have stays : ∀ m, n ≤ m → P (x.state m) ∧ rank (x.state m) ≤ r := by
      refine always (I := fun s => P s ∧ rank s ≤ r) ⟨hn, hr.le⟩ ?_
      rintro m e hm he ⟨hP, hle⟩
      rcases hstep m e hm he hP with hQ | ⟨hP', hle', _⟩
      · exact absurd ⟨m, e, hm, he, hP, hQ⟩ hnever
      · exact ⟨hP', hle'.trans hle⟩
    obtain ⟨m, e, hm, he, hc⟩ := hfair n fun m hm => henabled m hm (stays m hm).1
    obtain ⟨hP, hle⟩ := stays m hm
    rcases hstep m e hm he hP with hQ | ⟨hP', _, hlt⟩
    · exact hnever ⟨m, e, hm, he, hP, hQ⟩
    · have hnext : n ≤ m + 1 := hm.trans (Nat.le_succ m)
      obtain ⟨k, f, hk, hf⟩ := ih _ ((hlt hc).trans_le hle) hP'
        (fun k hk => henabled k (hnext.trans hk)) (fun k f hk => hstep k f (hnext.trans hk)) rfl
      exact hnever ⟨k, f, hnext.trans hk, hf⟩

/-- What an execution is for a simulated system. Steps without a label there leave
its state as it is. -/
def map (x : Execution step) (view : S → A) (label : E → Option F)
    (hlabel : ∀ n e f, x.event n = some e → label e = some f →
      abstractStep (view (x.state n)) f (view (x.state (n + 1))))
    (hsilent : ∀ n e, x.event n = some e → label e = none →
      view (x.state (n + 1)) = view (x.state n)) : Execution abstractStep where
  state n := view (x.state n)
  event n := (x.event n).bind label
  idle n h := by
    cases he : x.event n with
    | none => rw [x.idle n he]
    | some e => exact hsilent n e he (by simpa [he] using h)
  step n f h := by
    obtain ⟨e, he, hf⟩ := Option.bind_eq_some_iff.mp h
    exact hlabel n e f he hf

theorem WeaklyFair.map {view : S → A} {label : E → Option F} {hlabel hsilent} {c : E → Prop}
    {c' : F → Prop} (hfair : x.WeaklyFair c)
    (henabled : ∀ n, Enabled abstractStep c' (view (x.state n)) → Enabled step c (x.state n))
    (hc : ∀ n e, x.event n = some e → c e → ∃ f, label e = some f ∧ c' f) :
    (x.map view label hlabel hsilent : Execution abstractStep).WeaklyFair c' := by
  intro n hn
  obtain ⟨m, e, hm, he, hce⟩ := hfair n fun m hm => henabled m (hn m hm)
  obtain ⟨f, hf, hcf⟩ := hc m e he hce
  exact ⟨m, f, hm, Option.bind_eq_some_iff.mpr ⟨e, he, hf⟩, hcf⟩

/-- A run, after which nothing happens any more. -/
theorem exists_of_runs {s t : S} {es : List E} (hr : Runs step s es t) :
    ∃ x : Execution step, x.state 0 = s ∧ (∀ n, x.event n = es[n]?) ∧
      ∀ n, es.length ≤ n → x.state n = t := by
  induction hr with
  | refl s => exact ⟨⟨fun _ => s, fun _ => none, fun _ _ => rfl, fun _ _ h => by cases h⟩, rfl,
      fun _ => rfl, fun _ _ => rfl⟩
  | @cons s _ _ e es he _ ih =>
    obtain ⟨x, hx, hevent, hend⟩ := ih
    refine ⟨⟨fun n => n.casesOn s x.state, fun n => n.casesOn (some e) x.event, ?_, ?_⟩, rfl, ?_, ?_⟩
    · rintro (_ | n) h
      · cases h
      · exact x.idle n h
    · rintro (_ | n) f h
      · cases h
        change step s e (x.state 0)
        rwa [hx]
      · exact x.step n f h
    · rintro (_ | n)
      · rfl
      · exact hevent n
    · rintro (_ | n) hn
      · exact absurd hn (Nat.not_succ_le_zero _)
      · exact hend n (Nat.le_of_succ_le_succ hn)

/-- Where an execution has stopped for a class, it is fair to it. -/
theorem weaklyFair_of_stopped {c : E → Prop} {n : ℕ}
    (h : ∀ m, n ≤ m → ¬ Enabled step c (x.state m)) : x.WeaklyFair c := by
  intro k hk
  exact absurd (hk (max k n) (le_max_left k n)) (h _ (le_max_right k n))

end Execution
end RustMcpCore.Library
