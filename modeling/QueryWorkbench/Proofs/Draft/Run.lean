/-
QueryWorkbench.Proofs.Draft.Run — runs of actions.

`Draft.run` is the draft after a list of actions. What each action keeps holds all along a run
(`run_along`) and after it (`run_keeps`).
-/
import Mathlib.Data.List.Induction
import QueryWorkbench.Draft.Perform

namespace QueryWorkbench.Draft

/-- The draft after some actions. -/
def run (w : Workbench) (d : Draft) (actions : List Action) : Draft :=
  actions.foldl (fun d a => (d.perform w a).draft) d

variable {w : Workbench}

theorem run_concat (d : Draft) (actions : List Action) (a : Action) :
    d.run w (actions ++ [a]) = ((d.run w actions).perform w a).draft := by
  rw [run, List.foldl_append]
  rfl

/-- What holds at the beginning of a run and is kept by each of its actions holds all along. -/
theorem run_along (Kept : Draft → Prop) {d : Draft} {actions : List Action} (first : Kept d)
    (step : ∀ front a, front ++ [a] <+: actions → Kept (d.run w front) →
      Kept (d.run w (front ++ [a]))) {front : List Action} (within : front <+: actions) :
    Kept (d.run w front) := by
  induction front using List.reverseRecOn with
  | nil => exact first
  | append_singleton front a ih =>
    exact step front a within (ih ((List.prefix_append front [a]).trans within))

/-- What each action of a kind keeps, a run of such actions keeps. -/
theorem run_keeps {d : Draft} {Kept : Draft → Prop} {Allowed : Action → Prop}
    (step : ∀ {d a}, Allowed a → Kept d → Kept (d.perform w a).draft) {actions : List Action}
    (first : Kept d) (allowed : ∀ a ∈ actions, Allowed a) : Kept (d.run w actions) := by
  refine run_along Kept first (fun front a within kept => ?_) (List.prefix_refl actions)
  rw [run_concat]
  exact step (allowed a (within.subset (by simp))) kept

end QueryWorkbench.Draft
