/-
QueryWorkbench.Proofs.Draft.Failing — what an action that fails leaves behind.

The actions check what they are given before they change a clause, so that a failure leaves all
clauses alone (`keeps_perform`). Sorting is the exception: ORDER BY is made before the direction is
checked, and stays there without entries (`clauses_addSorting`). The SQL and the issues of a draft
are the same with and without such an ORDER BY (`clauses_of_failed`).

## How the proof goes

`Keeps c p` says of one action what has to be said: if it failed, the clauses are `c`. An action
that answers keeps anything (`keeps_answered`), and one that fails keeps what it was given
(`keeps_failed`), so that an action has the property as soon as each of its branches is one of the
two. The updates of all clauses share one such lemma (`keeps_update`), and so do the removals from
clauses that may be missing (`keeps_remove`); what the documents are read by does not matter to
either. For the text and the issues, an empty ORDER BY is compared with none by unfolding both
(`Clauses.generate_withOrderBy`, `Clauses.issues_withOrderBy`).

No condition is put on the draft or on what the action is given. The first part of
`clauses_of_failed` is an equivalence, so that sorting without an ORDER BY is the only failure which
changes a clause, and `not_kept_sortUpwards` is one.
-/
import QueryWorkbench.Check.Structure
import QueryWorkbench.Proofs.Draft.Joined
import QueryWorkbench.Proofs.Draft.Update

namespace QueryWorkbench

/-- The clauses with an ORDER BY, which has no entries if it is a new one. -/
def Clauses.withOrderBy {Q : Type} (c : Clauses Q) : Clauses Q :=
  { c with sortings := some (c.sortings.getD []) }

namespace Clauses

variable {Q : Type} {c : Clauses Q}

theorem withOrderBy_eq_self_iff : c.withOrderBy = c ↔ c.sortings ≠ none := by
  obtain ⟨source, fields, joins, conditions, groupings, sortings, limit, ctes, unions⟩ := c
  cases sortings <;> simp [withOrderBy]

theorem withOrderBy_of_none (none : c.sortings = none) :
    c.withOrderBy = { c with sortings := some [] } := by
  rw [withOrderBy, none, Option.getD_none]

/-- An ORDER BY without entries is not written. -/
theorem generate_withOrderBy (d : Dialect) (layout : Sql.Layout) (c : Clauses Query) :
    Sql.generate d layout (.mk c.withOrderBy) = Sql.generate d layout (.mk c) := by
  have same : Sql.fragments d (c.withOrderBy.map (Sql.compactText d)) =
      Sql.fragments d (c.map (Sql.compactText d)) := rfl
  simp only [Sql.generate, Sql.queryFragments, Query.clauses, same]

/-- An ORDER BY without entries refers to no table. -/
theorem issues_withOrderBy (g : Option SchemaGraph) (c : Clauses Q) :
    Check.issues g c.withOrderBy = Check.issues g c := rfl

end Clauses

/-- The action that sorts by a column. -/
def Action.Sorts : Action → Prop
  | .addSorting _ _ _ => True
  | _ => False

namespace Draft

open Document (Members Reader)

variable {w : Workbench} {d : Draft}

/-! ## One action -/

/-- Whatever comes of an action, it is no failure that leaves other clauses than these. -/
def Keeps (c : Clauses Query) (p : Performed) : Prop :=
  ∀ f, p.outcome.result = .error f → p.draft.clauses = c

theorem keeps_answered (c : Clauses Query) (d : Draft) (a : Answer) : Keeps c (d.answered a) := by
  intro f failed
  cases failed

theorem keeps_failed (d : Draft) (f : Failure) : Keeps d.clauses (d.failed f) := fun _ _ => rfl

/-- An update is read before it is put in place. -/
theorem keeps_update {α : Type} (clause : ItemClause α) (write : α → Json) (read : Reader α)
    (answer : Option α → Answer) (wanted : String) (updates : Members) :
    Keeps d.clauses (d.update clause write read answer wanted updates) := by
  rcases update_cases d clause write read answer wanted updates with
    ⟨f, same⟩ | same | ⟨before, a, after, b, -, -, -, -, same⟩ <;> rw [same]
  · exact keeps_failed d f
  · exact keeps_answered _ _ _
  · exact keeps_answered _ _ _

theorem keeps_remove {α : Type} (clause : ItemClause α) (unwanted : String) :
    Keeps d.clauses (d.remove clause unwanted) := by
  rw [remove]
  split
  · exact keeps_answered _ _ _
  · exact keeps_answered _ _ _

theorem keeps_addColumn (table column : String) : Keeps d.clauses (d.addColumn w table column) := by
  rw [addColumn]
  split
  · exact keeps_answered _ _ _
  · intro f failed
    cases failed

theorem keeps_addManualJoin (target source : String) (columns : List (String × String)) (kind : Json)
    (subquery : Option Query) (subqueryAlias : Option String) :
    Keeps d.clauses (d.addManualJoin w target source columns kind subquery subqueryAlias) := by
  rcases addManualJoin_cases w d target source columns kind subquery subqueryAlias with
    ⟨-, same⟩ | ⟨f, -, same⟩ | ⟨k, j, -, -, -, -, same⟩ <;> rw [same]
  · exact keeps_failed d _
  · exact keeps_failed d.advance f
  · exact keeps_answered _ _ _

theorem keeps_addCte (name : Json) (query : Query) (columns recursive : Json) :
    Keeps d.clauses (d.addCte name query columns recursive) := by
  unfold addCte
  dsimp only
  split
  · exact keeps_failed d.advance _
  · exact keeps_answered _ _ _

theorem keeps_addUnion (query : Query) (kind : Json) : Keeps d.clauses (d.addUnion query kind) := by
  rw [addUnion]
  cases named UnionKind.name UnionKind.every .unionKind kind with
  | error f => exact keeps_failed d.advance f
  | ok kind => exact keeps_answered _ _ _

theorem keeps_setLimit (count offset : Json) : Keeps d.clauses (d.setLimit count offset) := by
  rw [setLimit]
  split
  · split
    · exact keeps_answered _ _ _
    · exact keeps_failed d _
  · exact keeps_answered _ _ _

/-- Every action but sorting leaves the clauses as they were if it fails. -/
theorem keeps_perform {a : Action} (other : ¬ a.Sorts) : Keeps d.clauses (d.perform w a) := by
  cases a with
  | addColumn table column => exact keeps_addColumn table column
  | renameField id aliasName => exact keeps_update .fields _ _ _ id _
  | addJoin target source =>
    intro f failed
    cases failed
  | addManualJoin target source columns kind subquery subqueryAlias =>
    exact keeps_addManualJoin target source columns kind subquery subqueryAlias
  | updateJoin id updates => exact keeps_update .joins _ _ _ id updates
  | updateCondition id updates => exact keeps_update .conditions _ _ _ id updates
  | updateSorting id updates => exact keeps_update .sortings _ _ _ id updates
  | updateCte id updates => exact keeps_update .ctes _ _ _ id updates
  | removeCondition id => exact keeps_remove .conditions id
  | removeGrouping id => exact keeps_remove .groupings id
  | removeSorting id => exact keeps_remove .sortings id
  | addGrouping table column =>
    rw [perform, addGrouping]
    split
    · exact keeps_answered _ _ _
    · exact keeps_answered _ _ _
  | addSorting table column direction => exact absurd trivial other
  | addCte name query columns recursive => exact keeps_addCte name query columns recursive
  | addUnion query kind => exact keeps_addUnion query kind
  | setLimit count offset => exact keeps_setLimit count offset
  | _ => exact keeps_answered _ _ _

/-- Sorting that fails has made an ORDER BY before. -/
theorem clauses_addSorting {table column : String} {direction : Json} {f : Failure}
    (failed : (d.addSorting table column direction).outcome.result = .error f) :
    (d.addSorting table column direction).draft.clauses = d.clauses.withOrderBy := by
  rw [addSorting] at failed ⊢
  split at failed
  · cases failed
  · rename_i new
    rw [if_neg new]
    cases checked : named Direction.name Direction.all .direction direction with
    | error g => rfl
    | ok direction =>
      rw [checked] at failed
      cases failed

/-! ## What a failure changes -/

/-- A failure leaves the clauses as they were exactly if it was no sorting of a draft without ORDER
BY. Such a sorting leaves an ORDER BY without entries. In any case the SQL and the issues are those
from before. -/
theorem clauses_of_failed {a : Action} {f : Failure}
    (failed : (d.perform w a).outcome.result = .error f) :
    ((d.perform w a).draft.clauses = d.clauses ↔ ¬ (a.Sorts ∧ d.clauses.sortings = none)) ∧
    (a.Sorts → d.clauses.sortings = none →
      (d.perform w a).draft.clauses = { d.clauses with sortings := some [] }) ∧
    (∀ dialect layout, Sql.generate dialect layout (.mk (d.perform w a).draft.clauses) =
      Sql.generate dialect layout (.mk d.clauses)) ∧
    ∀ g, Check.issues g (d.perform w a).draft.clauses = Check.issues g d.clauses := by
  by_cases sorts : a.Sorts
  · have changed : (d.perform w a).draft.clauses = d.clauses.withOrderBy := by
      cases a with
      | addSorting table column direction => exact clauses_addSorting failed
      | _ => exact sorts.elim
    rw [changed]
    refine ⟨?_, fun _ none => Clauses.withOrderBy_of_none none,
      fun dialect layout => Clauses.generate_withOrderBy dialect layout d.clauses,
      fun g => Clauses.issues_withOrderBy g d.clauses⟩
    rw [Clauses.withOrderBy_eq_self_iff, not_and]
    exact ⟨fun there _ => there, fun there => there sorts⟩
  · have kept : (d.perform w a).draft.clauses = d.clauses := keeps_perform sorts f failed
    rw [kept]
    exact ⟨⟨fun _ both => sorts both.1, fun _ => rfl⟩, fun sorting => absurd sorting sorts,
      fun _ _ => rfl, fun _ => rfl⟩

/-- A draft that selects from one table. -/
def ofOrders : Draft := { clauses := { source := { table := "orders", aliasName := "ord" } } }

/-- A workbench without relationships. -/
def plainWorkbench : Workbench := ⟨{}, 3, .mysql⟩

/-- Sorting in a direction that there is not. -/
def sortUpwards : Action := .addSorting "orders" "id" (.str "UP")

theorem clauses_of_failed_sortUpwards :
    (ofOrders.perform plainWorkbench sortUpwards).outcome.result =
        .error (.unknownName "'UP'" .direction) ∧
      (sortUpwards.Sorts ∧ ofOrders.clauses.sortings = none) ∧
      (ofOrders.perform plainWorkbench sortUpwards).draft.clauses =
        { ofOrders.clauses with sortings := some [] } ∧
      ∀ dialect layout,
        Sql.generate dialect layout
            (.mk (ofOrders.perform plainWorkbench sortUpwards).draft.clauses) =
          Sql.generate dialect layout (.mk ofOrders.clauses) := by
  have failed : (ofOrders.perform plainWorkbench sortUpwards).outcome.result =
      .error (.unknownName "'UP'" .direction) := by rfl
  obtain ⟨-, left, written, -⟩ := clauses_of_failed failed
  exact ⟨failed, ⟨trivial, rfl⟩, left trivial rfl, written⟩

/-- The direction is not taken, and an ORDER BY is there that was not there before. -/
theorem not_kept_sortUpwards :
    (ofOrders.perform plainWorkbench sortUpwards).outcome.result =
        .error (.unknownName "'UP'" .direction) ∧
      (ofOrders.perform plainWorkbench sortUpwards).draft.clauses ≠ ofOrders.clauses := by
  refine ⟨by rfl, fun kept => ?_⟩
  have sortings : some ([] : List Sorting) = none := congrArg Clauses.sortings kept
  cases sortings

end Draft

end QueryWorkbench
