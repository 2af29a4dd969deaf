/-
QueryWorkbench.Proofs.Pattern.Outcomes — the ways to match a pattern, listed.

`Pattern.run` hands one way after the other to what follows the pattern. `outcomes` lists these
ways instead, the first one first: where a match ends and what it keeps. `run_eq_findSome?` says
that the two agree, so a match is the head of a list (`matchAt?_eq_head?`), and what follows a
sequence of patterns is a matter of lists. `First` and emptiness are the two facts about outcomes
that proofs about texts use: a match that is made, and one that cannot be.
-/
import QueryWorkbench.Pattern.Search

namespace QueryWorkbench

/-- The places that a lazy repetition can end at, the nearest first. -/
def lazyEnds (set : CharSet) (before : Option Char) (position : Nat) : List Char → List Place
  | [] => [⟨before, position, []⟩]
  | c :: rest =>
    ⟨before, position, c :: rest⟩ ::
      if set.has c then lazyEnds set (some c) (position + 1) rest else []

theorem firstLazy_eq_findSome? {β : Type} (set : CharSet) (answer : Place → Option β)
    (before : Option Char) (position : Nat) (s : List Char) :
    firstLazy set answer before position s =
      (lazyEnds set before position s).findSome? answer := by
  induction s generalizing before position with
  | nil =>
    rw [firstLazy, lazyEnds, List.findSome?_cons]
    cases answer ⟨before, position, []⟩ <;> rfl
  | cons c rest ih =>
    rw [firstLazy, lazyEnds, List.findSome?_cons]
    cases answer ⟨before, position, c :: rest⟩ with
    | some b => rfl
    | none =>
      by_cases taken : set.has c = true
      · rw [if_pos taken, if_pos taken]
        exact ih _ _
      · rw [if_neg taken, if_neg taken]
        rfl

namespace Pattern

variable {σ : Type}

/-- Every way to match a pattern at a place, the first success first: where the match ends, and
what it keeps. -/
def outcomes : Pattern σ → Place → List (Place × Kept σ)
  | nothing, here => [(here, [])]
  | one set, ⟨_, position, rest⟩ =>
    match rest with
    | c :: rest => if set.has c then [(⟨some c, position + 1, rest⟩, [])] else []
    | [] => []
  | seq first second, here =>
    (first.outcomes here).flatMap fun o =>
      (second.outcomes o.1).map fun o' => (o'.1, o'.2 ++ o.2)
  | or first second, here => first.outcomes here ++ second.outcomes here
  | option inner, here => inner.outcomes here ++ [(here, [])]
  | greedy set, here => (greedyEnds set here.position here.rest [here]).map (·, [])
  | lazy set, here => (lazyEnds set here.before here.position here.rest).map (·, [])
  | keep slot inner, here =>
    (inner.outcomes here).map fun o =>
      (o.1, (slot, ⟨here, o.1.position - here.position⟩) :: o.2)
  | ahead inner, here => ((inner.outcomes here).head?.map fun o => (here, o.2)).toList
  | notAhead inner, here => if (inner.outcomes here).isEmpty then [(here, [])] else []
  | wordEdge, here => if here.atWordEdge then [(here, [])] else []
  | finish, here => if here.rest.isEmpty then [(here, [])] else []

theorem findSome?_flatMap {α β γ : Type} (l : List α) (f : α → List β) (g : β → Option γ) :
    (l.flatMap f).findSome? g = l.findSome? fun x => (f x).findSome? g := by
  induction l with
  | nil => rfl
  | cons x rest ih =>
    rw [List.flatMap_cons, List.findSome?_append, ih, List.findSome?_cons]
    cases (f x).findSome? g <;> rfl

/-- A pattern is matched by handing its outcomes on, one after the other. -/
theorem run_eq_findSome? (p : Pattern σ) : ∀ {β : Type} (next : Place → Kept σ → Option β)
    (here : Place) (kept : Kept σ),
    p.run next here kept = (p.outcomes here).findSome? fun o => next o.1 (o.2 ++ kept) := by
  induction p with
  | nothing =>
    intro β next here kept
    rw [run, outcomes, List.findSome?_singleton, List.nil_append]
  | one set =>
    intro β next ⟨before, position, rest⟩ kept
    cases rest with
    | nil => rfl
    | cons c rest =>
      rw [run, outcomes]
      split
      · rw [List.findSome?_singleton, List.nil_append]
      · rfl
  | seq first second ih₁ ih₂ =>
    intro β next here kept
    rw [run, ih₁, outcomes, findSome?_flatMap]
    congr 1
    funext o
    rw [ih₂, List.findSome?_map]
    simp only [Function.comp_def, List.append_assoc]
  | or first second ih₁ ih₂ =>
    intro β next here kept
    rw [run, ih₁, ih₂, outcomes, List.findSome?_append]
    cases (first.outcomes here).findSome? fun o => next o.1 (o.2 ++ kept) <;> rfl
  | option inner ih =>
    intro β next here kept
    rw [run, ih, outcomes, List.findSome?_append]
    cases (inner.outcomes here).findSome? fun o => next o.1 (o.2 ++ kept) with
    | some b => rfl
    | none =>
      rw [List.findSome?_singleton, List.nil_append]
      rfl
  | greedy set =>
    intro β next here kept
    rw [run, outcomes, List.findSome?_map]
    rfl
  | lazy set =>
    intro β next here kept
    rw [run, firstLazy_eq_findSome?, outcomes, List.findSome?_map]
    rfl
  | keep slot inner ih =>
    intro β next here kept
    rw [run, ih, outcomes, List.findSome?_map]
    rfl
  | ahead inner ih =>
    intro β next here kept
    rw [run, ih, outcomes]
    cases inner.outcomes here with
    | nil => rfl
    | cons o rest =>
      rw [List.findSome?_cons, List.head?_cons, Option.map_some, Option.toList_some,
        List.findSome?_singleton]
  | notAhead inner ih =>
    intro β next here kept
    rw [run, ih, outcomes]
    cases inner.outcomes here with
    | nil =>
      rw [List.isEmpty_nil, if_pos rfl, List.findSome?_singleton, List.nil_append]
      rfl
    | cons o rest => rfl
  | wordEdge =>
    intro β next here kept
    rw [run, outcomes]
    split
    · rw [List.findSome?_singleton, List.nil_append]
    · rfl
  | finish =>
    intro β next here kept
    rw [run, outcomes]
    split
    · rw [List.findSome?_singleton, List.nil_append]
    · rfl

/-- A match at a place is the first outcome there. -/
theorem matchAt?_eq_head? (p : Pattern σ) (here : Place) :
    p.matchAt? here = (p.outcomes here).head?.map fun o => ⟨here, o.1, o.2⟩ := by
  rw [matchAt?, run_eq_findSome?]
  cases p.outcomes here with
  | nil => rfl
  | cons o rest => rw [List.findSome?_cons, List.append_nil]; rfl

end Pattern

end QueryWorkbench
