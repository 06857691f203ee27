import Mathlib.Tactic.Common

/-!
# Systems of atomic steps, and what holds along their runs

A concurrent program is modelled as a set of states, a set of atomic actions and a *partial*
step function: `step s a = some s'` when the action is enabled in `s`.  Every interleaving of the
threads of the program is a list of actions, so a property of all interleavings is a property of
all states reachable by such lists.

* `Reachable S s` — some run leads to `s`.
* `ReachableIf S C s` — some run leads to `s` all of whose steps meet the condition `C`, which
  may look at the state before the step.  This is the form in which a program that is right only
  under a condition on the schedule is specified.
* **`ReachableIf.invariant`** — what holds initially and is kept by every step that meets the
  condition holds in every state such a run reaches.  Induction over runs is done here, once.
* `runIf` — the executable counterpart, for exhibiting concrete runs.
-/

namespace G7

/-- Initial states and a partial step function. -/
structure StepSystem (σ α : Type*) where
  /-- The states in which a run may start. -/
  init : σ → Prop
  /-- What an action does, when it is enabled. -/
  step : σ → α → Option σ

namespace StepSystem

variable {σ α : Type*} (S : StepSystem σ α)

/-- The states reached by runs whose steps all meet `C`. -/
inductive ReachableIf (C : σ → α → Prop) : σ → Prop
  | start {s : σ} : S.init s → ReachableIf C s
  | next {s s' : σ} {a : α} : ReachableIf C s → C s a → S.step s a = some s' → ReachableIf C s'

/-- The states reached by any run at all. -/
def Reachable (s : σ) : Prop := S.ReachableIf (fun _ _ => True) s

variable {S}

/-- **The invariant rule.**  The step case may use that the state before the step is itself
reachable under the condition. -/
theorem ReachableIf.invariant {C : σ → α → Prop} {P : σ → Prop}
    (hinit : ∀ s, S.init s → P s)
    (hstep : ∀ s a s', S.ReachableIf C s → P s → C s a → S.step s a = some s' → P s')
    {s : σ} (h : S.ReachableIf C s) : P s := by
  induction h with
  | start hs => exact hinit _ hs
  | next hr hC hs ih => exact hstep _ _ _ hr ih hC hs

/-- A run that meets a condition meets every weaker one. -/
theorem ReachableIf.mono {C D : σ → α → Prop} (hCD : ∀ s a, C s a → D s a) {s : σ}
    (h : S.ReachableIf C s) : S.ReachableIf D s := by
  induction h with
  | start hs => exact .start hs
  | next _ hC hs ih => exact .next ih (hCD _ _ hC) hs

/-- A conditional run is in particular a run. -/
theorem ReachableIf.reachable {C : σ → α → Prop} {s : σ} (h : S.ReachableIf C s) :
    S.Reachable s :=
  h.mono fun _ _ _ => trivial

/-! ## Executing a list of actions -/

/-- Execute a list of actions, stopping with `none` at the first one that is not enabled or does
not meet the condition. -/
def runIf (S : StepSystem σ α) (C : σ → α → Prop) [∀ s a, Decidable (C s a)] :
    σ → List α → Option σ
  | s, [] => some s
  | s, a :: as => if C s a then (S.step s a).bind fun s' => runIf S C s' as else none

/-- Execute a list of actions without a condition. -/
def run (S : StepSystem σ α) (s : σ) (as : List α) : Option σ := runIf S (fun _ _ => True) s as

/-- What a conditional execution ends in is reachable under the condition. -/
theorem reachableIf_runIf {C : σ → α → Prop} [∀ s a, Decidable (C s a)] :
    ∀ {as : List α} {s s' : σ}, S.ReachableIf C s → S.runIf C s as = some s' →
      S.ReachableIf C s'
  | [], s, s', hs, h => by
      simp only [runIf, Option.some.injEq] at h
      exact h ▸ hs
  | a :: as, s, s', hs, h => by
      simp only [runIf] at h
      split_ifs at h with hC
      obtain ⟨t, ht, h⟩ := Option.bind_eq_some_iff.mp h
      exact reachableIf_runIf (hs.next hC ht) h

/-- What an execution ends in is reachable. -/
theorem reachable_run {as : List α} {s s' : σ} (hs : S.init s) (h : S.run s as = some s') :
    S.Reachable s' :=
  reachableIf_runIf (.start hs) h

end StepSystem

end G7
