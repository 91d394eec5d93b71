import Mathlib.Logic.Relation
import Mathlib.Tactic.SplitIfs

/-!
# Runs of partial step functions

A system is a partial step function `step : σ → α → Option σ`: the action `a` is enabled in the
state `s` when `step s a` is some state. Runs are finite, and every step of a run may be asked to
meet a condition `ok` on the state before it and the action taken, so that "every run whose steps
all meet the condition" is `Reaches step ok`.

## Main definitions

* `Transition.StepBy`: one step whose action meets the condition.
* `Transition.Reaches`: the states reached by such steps; `Transition.Reachable` asks nothing of
  the steps.
* `Transition.execBy`, `Transition.exec`: the executable run along a list of actions.

## Main results

* `Transition.Reaches.invariant`: the invariant rule.
* `Transition.reaches_of_execBy`: an executed run is a run.
-/

namespace Transition

variable {σ α : Type*} {step : σ → α → Option σ} {ok : σ → α → Prop}

/-- One step, by an action that meets `ok` in the state in which it is taken. -/
def StepBy (step : σ → α → Option σ) (ok : σ → α → Prop) (s t : σ) : Prop :=
  ∃ a, ok s a ∧ step s a = some t

/-- `t` is reached from `s` by finitely many steps whose actions all meet `ok`. -/
abbrev Reaches (step : σ → α → Option σ) (ok : σ → α → Prop) : σ → σ → Prop :=
  Relation.ReflTransGen (StepBy step ok)

/-- `t` is reached from `s` by finitely many steps. -/
abbrev Reachable (step : σ → α → Option σ) : σ → σ → Prop :=
  Reaches step fun _ _ => True

/-- The run along a list of actions, `none` if one of them is not enabled or does not meet `ok`. -/
def execBy (step : σ → α → Option σ) (ok : σ → α → Prop) [∀ s a, Decidable (ok s a)] :
    σ → List α → Option σ
  | s, [] => some s
  | s, a :: as => if ok s a then (step s a).bind fun t => execBy step ok t as else none

/-- The run along a list of actions, `none` if one of them is not enabled. -/
abbrev exec (step : σ → α → Option σ) : σ → List α → Option σ :=
  execBy step fun _ _ => True

/-- **The invariant rule.** A property of the first state that every allowed step preserves holds
in every state reached. -/
theorem Reaches.invariant (Inv : σ → Prop)
    (hstep : ∀ {s a t}, Inv s → ok s a → step s a = some t → Inv t)
    {s t : σ} (h : Reaches step ok s t) (hs : Inv s) : Inv t := by
  induction h with
  | refl => exact hs
  | tail _ hst ih =>
    obtain ⟨a, hok, ha⟩ := hst
    exact hstep ih hok ha

theorem reaches_of_execBy [∀ s a, Decidable (ok s a)] {s t : σ} {as : List α}
    (h : execBy step ok s as = some t) : Reaches step ok s t := by
  induction as generalizing s with
  | nil =>
    cases h
    exact .refl
  | cons a as ih =>
    simp only [execBy] at h
    split_ifs at h with hok
    obtain ⟨u, hu, h⟩ := Option.bind_eq_some_iff.mp h
    exact .head ⟨a, hok, hu⟩ (ih h)

/-- An executed run is a run, also under a condition that its actions meet in every state. -/
theorem reaches_of_exec {s t : σ} {as : List α} (hok : ∀ a ∈ as, ∀ s, ok s a)
    (h : exec step s as = some t) : Reaches step ok s t := by
  induction as generalizing s with
  | nil =>
    cases h
    exact .refl
  | cons a as ih =>
    rw [List.forall_mem_cons] at hok
    simp only [exec, execBy, if_true] at h
    obtain ⟨u, hu, h⟩ := Option.bind_eq_some_iff.mp h
    exact .head ⟨a, hok.1 s, hu⟩ (ih hok.2 h)

theorem execBy_append [∀ s a, Decidable (ok s a)] {s : σ} {as bs : List α} :
    execBy step ok s (as ++ bs) = (execBy step ok s as).bind fun t => execBy step ok t bs := by
  induction as generalizing s with
  | nil => rfl
  | cons a as ih =>
    simp only [List.cons_append, execBy]
    split_ifs with hok
    · rw [Option.bind_assoc]
      exact congrArg _ (funext fun t => ih)
    · rfl

/-- A property of the last state of an executed run is a property of a state reached. -/
theorem exists_reaches_of_execBy [∀ s a, Decidable (ok s a)] {s : σ} {P : σ → Prop}
    (as : List α) (h : ∃ t ∈ execBy step ok s as, P t) : ∃ t, Reaches step ok s t ∧ P t :=
  h.imp fun _ ⟨ht, hP⟩ => ⟨reaches_of_execBy ht, hP⟩

end Transition
