/-
QueryWorkbench.Proofs.Draft.Numbering — the numbers of clause items and their places.

The items of five clauses carry a number, by which they are sorted when the query is written. A
clause is in step when sorting leaves it as it is. An added item is numbered by the items that are
there, a new order numbers all items by their places, and a removal leaves the numbers of the others
alone (`Renumbers`, `renumbers_perform`). So without removals the numbers are the places, and a
clause gets out of step only when an item is added behind one with a larger number
(`inStep_along_run`), which takes two removals in front of that one (`not_inStep_changedColumns`).

## How the proof goes

`Renumbers` has one constructor for each way in which the numbers of a clause can change. That an
action changes them in one of these ways is proved once for adding, removing and reordering
(`ItemClause.IsNumbered.push`, `remove`, `reorder`), for any clause whose items have numbers: the
other clauses keep theirs because a clause is put back without touching them. `renumbers_perform`
then takes the clause of each action. What a change does to sorted numbers is a fact about lists
(`Renumbers.pairwise`, `Renumbers.eq_ordinals`), and the rest is induction along the run
(`run_along`).

## The side condition

`Arranges` leaves out the updates, which read an item again from a document that may set its number
to anything, and the actions on clauses whose items have no number.
-/
import QueryWorkbench.Proofs.Draft.Joined
import QueryWorkbench.Proofs.Draft.Run

namespace QueryWorkbench

/-! ## Clauses in step -/

/-- The clauses whose items are numbered. -/
inductive NumberedClause where
  | fields
  | conditions
  | groupings
  | sortings
  | unions

namespace Clauses

/-- The numbers of the items of a clause, as the items stand. -/
def numbers (c : Clauses Query) : NumberedClause → List Int
  | .fields => c.fields.map (·.order)
  | .conditions => (c.conditions.getD []).map (·.order)
  | .groupings => (c.groupings.getD []).map (·.order)
  | .sortings => (c.sortings.getD []).map (·.order)
  | .unions => c.unions.map (·.order)

/-- Sorting the items of a clause by their numbers, as it is done for SQL text, leaves them as they
stand. -/
structure InStep (c : Clauses Query) : Prop where
  fields : Sql.sortedBy (·.order) c.fields = c.fields
  conditions : Sql.sortedBy (·.order) (c.conditions.getD []) = c.conditions.getD []
  groupings : Sql.sortedBy (·.order) (c.groupings.getD []) = c.groupings.getD []
  sortings : Sql.sortedBy (·.order) (c.sortings.getD []) = c.sortings.getD []
  unions : Sql.sortedBy (·.order) c.unions = c.unions

end Clauses

/-- Sorting leaves items as they stand exactly when no number comes before a smaller one. -/
theorem Sql.sortedBy_eq_self_iff {α : Type} {order : α → Int} {items : List α} :
    Sql.sortedBy order items = items ↔ (items.map order).Pairwise (· ≤ ·) := by
  rw [List.pairwise_map, Sql.sortedBy]
  constructor
  · intro same
    rw [← same]
    exact Sql.pairwise_sortedBy order items
  · intro sorted
    exact List.mergeSort_of_pairwise (sorted.imp fun h => decide_eq_true h)

theorem Clauses.inStep_iff {c : Clauses Query} :
    c.InStep ↔ ∀ part, (c.numbers part).Pairwise (· ≤ ·) := by
  constructor
  · intro h part
    cases part with
    | fields => exact Sql.sortedBy_eq_self_iff.mp h.fields
    | conditions => exact Sql.sortedBy_eq_self_iff.mp h.conditions
    | groupings => exact Sql.sortedBy_eq_self_iff.mp h.groupings
    | sortings => exact Sql.sortedBy_eq_self_iff.mp h.sortings
    | unions => exact Sql.sortedBy_eq_self_iff.mp h.unions
  · intro h
    exact ⟨Sql.sortedBy_eq_self_iff.mpr (h .fields), Sql.sortedBy_eq_self_iff.mpr (h .conditions),
      Sql.sortedBy_eq_self_iff.mpr (h .groupings), Sql.sortedBy_eq_self_iff.mpr (h .sortings),
      Sql.sortedBy_eq_self_iff.mpr (h .unions)⟩

/-! ## How numbers change -/

/-- The numbers of so many items that are numbered by their places. -/
def ordinals (count : Nat) : List Int := (List.range count).map Int.ofNat

/-- What becomes of the numbers of a clause: they stay, some go where items may be removed, all are
given anew, or one more comes, which is how many there were. -/
inductive Renumbers (removes : Prop) (old : List Int) : List Int → Prop
  | same : Renumbers removes old old
  | fewer {new : List Int} : removes → new.Sublist old → Renumbers removes old new
  | anew (count : Nat) : Renumbers removes old (ordinals count)
  | added : Renumbers removes old (old ++ [(old.length : Int)])

namespace Renumbers

variable {removes : Prop} {old new : List Int}

/-- Numbers that do not fall keep so, unless one comes behind a larger one. -/
theorem pairwise (h : Renumbers removes old new) (sorted : old.Pairwise (· ≤ ·))
    (small : new = old ++ [(old.length : Int)] → ∀ o ∈ old, o ≤ old.length) :
    new.Pairwise (· ≤ ·) := by
  cases h with
  | same => exact sorted
  | fewer _ sub => exact sorted.sublist sub
  | anew count =>
    refine List.pairwise_map.mpr (List.pairwise_lt_range.imp fun before => ?_)
    exact Int.ofNat_le.mpr (Nat.le_of_lt before)
  | added =>
    refine List.pairwise_append.mpr ⟨sorted, List.pairwise_singleton _ _, fun o ho n hn => ?_⟩
    rw [List.mem_singleton.mp hn]
    exact small rfl o ho

/-- Numbers that are the places stay so, unless some go. -/
theorem eq_ordinals (h : Renumbers removes old new) (kept : ¬ removes)
    (before : old = ordinals old.length) : new = ordinals new.length := by
  cases h with
  | same => exact before
  | fewer gone _ => exact absurd gone kept
  | anew count => simp [ordinals]
  | added =>
    rw [List.length_append, List.length_singleton, ordinals, List.range_succ, List.map_append]
    exact congrArg (· ++ [(old.length : Int)]) before

end Renumbers

/-! ## Items that are added, removed and reordered -/

section Items

variable {removes : Prop} {α : Type} {clause : ItemClause α} {order : α → Int}
  {part other : NumberedClause} {c : Clauses Query} {d : Draft}

/-- The numbers of a clause are those of its items, and other items in it leave the numbers of the
other clauses alone. -/
structure ItemClause.IsNumbered (clause : ItemClause α) (order : α → Int) (part : NumberedClause) :
    Prop where
  own : ∀ c : Clauses Query, c.numbers part = (clause.items c).map order
  others : ∀ items c other, other ≠ part →
    (clause.put items c).numbers other = c.numbers other

namespace ItemClause

theorem isNumbered_fields : fields.IsNumbered Field.order .fields :=
  ⟨fun _ => rfl, fun _ _ other ne => by cases other <;> first | rfl | exact absurd rfl ne⟩

theorem isNumbered_conditions : conditions.IsNumbered Condition.order .conditions :=
  ⟨fun _ => rfl, fun _ _ other ne => by cases other <;> first | rfl | exact absurd rfl ne⟩

theorem isNumbered_groupings : groupings.IsNumbered Grouping.order .groupings :=
  ⟨fun _ => rfl, fun _ _ other ne => by cases other <;> first | rfl | exact absurd rfl ne⟩

theorem isNumbered_sortings : sortings.IsNumbered Sorting.order .sortings :=
  ⟨fun _ => rfl, fun _ _ other ne => by cases other <;> first | rfl | exact absurd rfl ne⟩

theorem isNumbered_unions : unions.IsNumbered Union.order .unions :=
  ⟨fun _ => rfl, fun _ _ other ne => by cases other <;> first | rfl | exact absurd rfl ne⟩

namespace IsNumbered

/-- What becomes of the numbers of one clause is all that becomes of any. -/
theorem put (h : clause.IsNumbered order part) {items : List α}
    (one : Renumbers removes ((clause.items c).map order) (items.map order)) :
    Renumbers removes (c.numbers other) ((clause.put items c).numbers other) := by
  by_cases here : other = part
  · rwa [here, h.own, h.own, clause.items_put]
  · rw [h.others items c other here]
    exact .same

theorem numbers_put_items (h : clause.IsNumbered order part) :
    (clause.put (clause.items c) c).numbers other = c.numbers other := by
  by_cases here : other = part
  · rw [here, h.own, h.own, clause.items_put]
  · exact h.others _ c other here

theorem push (h : clause.IsNumbered order part) {a : α} (last : order a = (clause.items c).length) :
    Renumbers removes (c.numbers other) ((clause.push a c).numbers other) := by
  refine h.put ?_
  have one : Renumbers removes ((clause.items c).map order)
      ((clause.items c).map order ++ [(((clause.items c).map order).length : Int)]) := .added
  rwa [List.length_map, ← last, ← List.map_singleton, ← List.map_append] at one

theorem remove (h : clause.IsNumbered order part) (gone : removes) (unwanted : String) :
    Renumbers removes (d.clauses.numbers other)
      ((d.remove clause unwanted).draft.clauses.numbers other) := by
  rw [Draft.remove]
  cases found : clause.items? d.clauses with
  | none => exact .same
  | some items =>
    refine h.put ?_
    rw [ItemClause.items, found, Option.getD_some]
    exact .fewer gone (List.filter_sublist.map order)

theorem reorder (h : clause.IsNumbered order part) (number : α → Int → α)
    (numbered : ∀ a i, order (number a i) = i) (picks : List (Pick α)) :
    Renumbers removes (d.clauses.numbers other)
      ((d.reorder clause number picks).draft.clauses.numbers other) := by
  have by_place : ∀ items, (Draft.renumbered number items).map order = ordinals items.length := by
    intro items
    rw [Draft.renumbered, ordinals]
    exact List.ext_getElem (by simp) fun i _ _ => by simp [numbered]
  refine h.put ?_
  rw [by_place]
  exact .anew _

end IsNumbered

end ItemClause

end Items

/-! ## What an action does to the numbers -/

/-- The actions that add, remove and reorder the items of the numbered clauses, and the choice of a
base table, which starts anew. -/
def Action.Arranges : Action → Prop
  | .setBaseTable _
  | .addColumn _ _ | .addExpression _ _ | .removeField _ | .reorderFields _
  | .addCondition _ | .removeCondition _ | .reorderConditions _
  | .addGrouping _ _ | .removeGrouping _ | .reorderGroupings _
  | .addSorting _ _ _ | .removeSorting _ | .reorderSortings _
  | .addUnion _ _ | .removeUnion _ => True
  | _ => False

/-- The actions that remove items of the numbered clauses. -/
def Action.Removes : Action → Prop
  | .removeField _ | .removeCondition _ | .removeGrouping _ | .removeSorting _
  | .removeUnion _ => True
  | _ => False

namespace Draft

variable {w : Workbench} {d : Draft} {removes : Prop}

theorem renumbers_addColumn (table column : String) (part : NumberedClause) :
    Renumbers removes (d.clauses.numbers part)
      ((d.addColumn w table column).draft.clauses.numbers part) := by
  rw [addColumn]
  split
  · exact .same
  · obtain ⟨more, same⟩ := (joined_reach (w := w) (d := d) table).clauses
    have advanced : (d.reach w table).1.advance.clauses =
        { d.clauses with joins := d.clauses.joins ++ more } := same
    have numbers : (d.reach w table).1.advance.clauses.numbers part = d.clauses.numbers part := by
      rw [advanced]
      cases part <;> rfl
    rw [← numbers]
    refine ItemClause.isNumbered_fields.push ?_
    rw [advanced]
    rfl

theorem renumbers_addCondition (condition : Condition Query) (part : NumberedClause) :
    Renumbers removes (d.clauses.numbers part)
      ((d.addCondition condition).draft.clauses.numbers part) := by
  by_cases unnamed : condition.id = ""
  · simp only [addCondition, if_pos unnamed]
    exact ItemClause.isNumbered_conditions.push rfl
  · simp only [addCondition, if_neg unnamed]
    exact ItemClause.isNumbered_conditions.push rfl

theorem renumbers_addGrouping (table column : String) (part : NumberedClause) :
    Renumbers removes (d.clauses.numbers part)
      ((d.addGrouping table column).draft.clauses.numbers part) := by
  rw [addGrouping]
  split
  · exact .same
  · exact ItemClause.isNumbered_groupings.push rfl

theorem renumbers_addSorting (table column : String) (direction : Json) (part : NumberedClause) :
    Renumbers removes (d.clauses.numbers part)
      ((d.addSorting table column direction).draft.clauses.numbers part) := by
  -- An ORDER BY that is made for the new entry has no numbers before.
  have made : (ItemClause.sortings.put (ItemClause.sortings.items d.clauses) d.clauses).numbers
      part = d.clauses.numbers part := ItemClause.isNumbered_sortings.numbers_put_items
  rw [addSorting, ← made]
  split
  · exact .same
  · cases named Direction.name Direction.all .direction direction with
    | error f => exact .same
    | ok direction => exact ItemClause.isNumbered_sortings.push rfl

theorem renumbers_addUnion (query : Query) (kind : Json) (part : NumberedClause) :
    Renumbers removes (d.clauses.numbers part)
      ((d.addUnion query kind).draft.clauses.numbers part) := by
  rw [addUnion]
  cases named UnionKind.name UnionKind.every .unionKind kind with
  | error f => exact .same
  | ok kind => exact ItemClause.isNumbered_unions.push rfl

/-- Each of the actions renumbers each clause in one of these ways. -/
theorem renumbers_perform {a : Action} (ha : a.Arranges) (part : NumberedClause) :
    Renumbers a.Removes (d.clauses.numbers part)
      ((d.perform w a).draft.clauses.numbers part) := by
  open ItemClause in
  cases a with
  | setBaseTable table => cases part <;> exact .anew 0
  | addColumn table column => exact renumbers_addColumn table column part
  | addExpression expression aliasName => exact isNumbered_fields.push rfl
  | removeField id => exact isNumbered_fields.remove trivial id
  | reorderFields picks => exact isNumbered_fields.reorder _ (fun _ _ => rfl) picks
  | addCondition condition => exact renumbers_addCondition condition part
  | removeCondition id => exact isNumbered_conditions.remove trivial id
  | reorderConditions picks => exact isNumbered_conditions.reorder _ (fun _ _ => rfl) picks
  | addGrouping table column => exact renumbers_addGrouping table column part
  | removeGrouping id => exact isNumbered_groupings.remove trivial id
  | reorderGroupings picks => exact isNumbered_groupings.reorder _ (fun _ _ => rfl) picks
  | addSorting table column direction => exact renumbers_addSorting table column direction part
  | removeSorting id => exact isNumbered_sortings.remove trivial id
  | reorderSortings picks => exact isNumbered_sortings.reorder _ (fun _ _ => rfl) picks
  | addUnion query kind => exact renumbers_addUnion query kind part
  | removeUnion id => exact isNumbered_unions.remove trivial id
  | _ => exact ha.elim

/-- Along a run from nothing each action renumbers each clause in one of these ways. Without
removals the numbers are the places. With removals all clauses stay in step exactly when every item
that is added comes behind numbers that are at most its own, which is how many items there are. -/
theorem inStep_along_run (w : Workbench) {actions : List Action}
    (ha : ∀ a ∈ actions, a.Arranges) :
    (∀ front a, front ++ [a] <+: actions → ∀ part,
      Renumbers a.Removes ((run w {} front).clauses.numbers part)
        ((run w {} (front ++ [a])).clauses.numbers part)) ∧
    ((∀ a ∈ actions, ¬ a.Removes) → ∀ part,
      (run w {} actions).clauses.numbers part =
        ordinals ((run w {} actions).clauses.numbers part).length) ∧
    ((∀ front, front <+: actions → (run w {} front).clauses.InStep) ↔
      ∀ front a, front ++ [a] <+: actions → ∀ part,
        (run w {} (front ++ [a])).clauses.numbers part =
          (run w {} front).clauses.numbers part ++
            [(((run w {} front).clauses.numbers part).length : Int)] →
        ∀ o ∈ (run w {} front).clauses.numbers part,
          o ≤ ((run w {} front).clauses.numbers part).length) := by
  have step : ∀ front a, front ++ [a] <+: actions → ∀ part,
      Renumbers a.Removes ((run w {} front).clauses.numbers part)
        ((run w {} (front ++ [a])).clauses.numbers part) := by
    intro front a within part
    rw [run_concat]
    exact renumbers_perform (ha a (within.subset (by simp))) part
  refine ⟨step, fun kept => ?_, fun inStep front a within part more o ho => ?_,
    fun small front => ?_⟩
  · refine run_along (fun d => ∀ part, d.clauses.numbers part =
      ordinals (d.clauses.numbers part).length) ?_ ?_ (List.prefix_refl actions)
    · exact fun part => by cases part <;> rfl
    · intro front a within before part
      exact (step front a within part).eq_ordinals (kept a (within.subset (by simp))) (before part)
  · have sorted := Clauses.inStep_iff.mp (inStep _ within) part
    rw [more] at sorted
    exact (List.pairwise_append.mp sorted).2.2 o ho _ (List.mem_singleton.mpr rfl)
  · refine run_along (fun d => d.clauses.InStep) ?_ ?_
    · exact Clauses.inStep_iff.mpr fun part => by cases part <;> exact List.Pairwise.nil
    · intro front a within inStep
      refine Clauses.inStep_iff.mpr fun part => ?_
      exact (step front a within part).pairwise (Clauses.inStep_iff.mp inStep part)
        (small front a within part)

/-- Nothing to join with. -/
def bare : Workbench where
  graph := {}
  bestDepth := 3
  dialect := .mysql

/-- Three columns, without the first two again, and one more. -/
def changedColumns : List Action :=
  [.addColumn "o" "a", .addColumn "o" "b", .addColumn "o" "c",
    .removeField "field-1", .removeField "field-2", .addColumn "o" "d"]

theorem arranges_changedColumns : ∀ a ∈ changedColumns, a.Arranges := by
  simp [changedColumns, Action.Arranges]

theorem not_removes_columns : ∀ a ∈ changedColumns.take 3, ¬ a.Removes := by
  simp [changedColumns, Action.Removes]

theorem inStep_along_run_changedColumns :
    (∀ a ∈ changedColumns, a.Arranges) ∧
      (∀ front a, front ++ [a] <+: changedColumns → ∀ part,
        Renumbers a.Removes ((run bare {} front).clauses.numbers part)
          ((run bare {} (front ++ [a])).clauses.numbers part)) ∧
      ((∀ a ∈ changedColumns.take 3, ¬ a.Removes) ∧ ∀ part,
        (run bare {} (changedColumns.take 3)).clauses.numbers part =
          ordinals ((run bare {} (changedColumns.take 3)).clauses.numbers part).length) ∧
      ((∀ front, front <+: changedColumns → (run bare {} front).clauses.InStep) ↔
        ∀ front a, front ++ [a] <+: changedColumns → ∀ part,
          (run bare {} (front ++ [a])).clauses.numbers part =
            (run bare {} front).clauses.numbers part ++
              [(((run bare {} front).clauses.numbers part).length : Int)] →
          ∀ o ∈ (run bare {} front).clauses.numbers part,
            o ≤ ((run bare {} front).clauses.numbers part).length) := by
  obtain ⟨steps, _, inStep⟩ := inStep_along_run bare arranges_changedColumns
  have columns : ∀ a ∈ changedColumns.take 3, a.Arranges := fun a ha =>
    arranges_changedColumns a (List.mem_of_mem_take ha)
  have numbered := (inStep_along_run bare columns).2.1 not_removes_columns
  exact ⟨arranges_changedColumns, steps, ⟨not_removes_columns, numbered⟩, inStep⟩

/-- The third column keeps its number 2, and the one that comes behind it gets the number 1. -/
theorem not_inStep_changedColumns :
    (∀ a ∈ changedColumns, a.Arranges) ∧
      (run bare {} changedColumns).clauses.fields.map (fun x => (x.column, x.order)) =
        [("c", 2), ("d", 1)] ∧
      ¬ (run bare {} changedColumns).clauses.InStep := by
  have numbers : (run bare {} changedColumns).clauses.numbers .fields = [2, 1] := by decide
  refine ⟨arranges_changedColumns, by decide, fun inStep => ?_⟩
  have sorted := Clauses.inStep_iff.mp inStep .fields
  rw [numbers] at sorted
  exact absurd sorted (by decide)

end Draft

end QueryWorkbench
