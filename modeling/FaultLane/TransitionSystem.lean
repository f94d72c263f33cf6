import Mathlib.Data.Option.Basic
import Mathlib.Tactic.SplitIfs

set_option autoImplicit false

/-!
# Transition systems

Runs of a partial step function that stay inside a set of allowed states, and the
induction that carries an invariant along them.
-/
namespace FaultLane.TransitionSystem
variable {σ α : Type}

inductive Reachable (step : σ → α → Option σ) (allowed : σ → Prop) (init : σ) : σ → Prop where
  | init (h : allowed init) : Reachable step allowed init init
  | next {s s' : σ} {a : α} (h : Reachable step allowed init s) (hs : step s a = some s')
      (ha : allowed s') : Reachable step allowed init s'

theorem Reachable.allowed {step : σ → α → Option σ} {allowed : σ → Prop} {init s : σ}
    (h : Reachable step allowed init s) : allowed s := by
  cases h with
  | init h => exact h
  | next _ _ ha => exact ha

theorem Reachable.invariant {step : σ → α → Option σ} {allowed : σ → Prop} {init s : σ}
    (I : σ → Prop) (h : Reachable step allowed init s) (hi : I init)
    (hp : ∀ s a s', allowed s → I s → step s a = some s' → allowed s' → I s') : I s := by
  induction h with
  | init _ => exact hi
  | next h hs ha ih => exact hp _ _ _ h.allowed ih hs ha

theorem Reachable.trans {step : σ → α → Option σ} {allowed : σ → Prop} {init s s' : σ}
    (h : Reachable step allowed init s) (h' : Reachable step allowed s s') :
    Reachable step allowed init s' := by
  induction h' with
  | init _ => exact h
  | next _ hs ha ih => exact ih.next hs ha

/-- The steps that meet a condition. -/
def restrict (step : σ → α → Option σ) (condition : σ → α → Prop)
    [∀ s, DecidablePred (condition s)] (s : σ) (a : α) : Option σ :=
  if condition s a then step s a else none

theorem restrict_eq_some {step : σ → α → Option σ} {condition : σ → α → Prop}
    [∀ s, DecidablePred (condition s)] {s s' : σ} {a : α} :
    restrict step condition s a = some s' ↔ condition s a ∧ step s a = some s' :=
  Option.ite_none_right_eq_some

/-- The state after a list of steps, when none is refused and all states are allowed. -/
def run (step : σ → α → Option σ) (allowed : σ → Prop) [DecidablePred allowed] :
    σ → List α → Option σ
  | s, [] => some s
  | s, a :: rest => (step s a).bind fun s' => if allowed s' then run step allowed s' rest else none

theorem run_cons {step : σ → α → Option σ} {allowed : σ → Prop} [DecidablePred allowed] {s s' : σ}
    {a : α} {rest : List α} (hs : step s a = some s') (ha : allowed s') :
    run step allowed s (a :: rest) = run step allowed s' rest := by
  rw [run, hs, Option.bind_some, if_pos ha]

theorem Reachable.of_run {step : σ → α → Option σ} {allowed : σ → Prop} [DecidablePred allowed]
    {init s s' : σ} {l : List α} (h : Reachable step allowed init s)
    (hr : run step allowed s l = some s') : Reachable step allowed init s' := by
  induction l generalizing s with
  | nil =>
    cases hr
    exact h
  | cons a rest ih =>
    obtain ⟨u, hu, hr⟩ := Option.bind_eq_some_iff.mp hr
    split_ifs at hr with ha
    exact ih (h.next hu ha) hr

end FaultLane.TransitionSystem
